-- ncclIbTest (p2p.cc), cut at the places where the provider can act: the head of
-- its loop, each device, and each completion that a poll has returned. The calls
-- of one comm come from one thread, so no other call on the comm comes between.
import MrcPlugin.Completion
import MrcPlugin.Lib.Queues

namespace net_ib.p2p

open queues

/-! ## The completion queues -/

/-- What a completion is for. The code does not see this. -/
inductive Cause
  | data (id : Nat)
  | cts (id : Nat)
  | flush (serial : Nat)
  | speed
deriving DecidableEq, Repr

/-- An entry of a completion queue, or a work request that will become one: the
QP it belongs to, and the queue it goes to. A device has one queue for its data
QPs (`mrcCq`) and one for its flush QP (`cq`). -/
structure Cqe where
  wc : IbvWc
  qp : Nat
  dev : Nat
  flush : Bool
  cause : Cause
deriving DecidableEq, Repr

/-! ## ncclIbTest -/

/-- What `ncclIbTest` uses of a send comm or a receive comm. -/
class NetComm (C : Type) where
  base : C → NcclIbNetCommBase
  ibDevN : C → Nat → Nat
  eventProcess : NetEnv → C → IbvWc → Nat → EventOut C
  requestComplete : NetEnv → C → Nat → C × List Int
  /-- A failed speed update clears the flag of a pending one. -/
  speedUpdateFailed : C → EventOut C

instance : NetComm NcclIbSendComm where
  base := NcclIbSendComm.base
  ibDevN := NcclIbSendComm.ibDevN
  eventProcess := fun _ => sendEventProcess
  requestComplete := sendRequestComplete
  speedUpdateFailed := fun comm => ⟨comm, [], .error .badPointer⟩

instance : NetComm NcclIbRecvComm where
  base := NcclIbRecvComm.base
  ibDevN := NcclIbRecvComm.ibDevN
  eventProcess := recvEventProcess
  requestComplete := fun _ => recvRequestComplete
  speedUpdateFailed := fun comm => ⟨{ comm with postedSpeedUpdate := false }, [], .ok ()⟩

/-- Where a call of `ncclIbTest` stands. -/
inductive TestPc
  | top
  | device (i totalWrDone : Nat)
  | completions (i totalWrDone wrDone : Nat) (wcs : List Cqe)
deriving DecidableEq, Repr

/-- A call of `ncclIbTest` on request `r`. -/
structure TestCall where
  r : Nat
  pc : TestPc
deriving DecidableEq, Repr

/-- The completions that a poll has returned and that are not processed yet. -/
def inHand : Option TestCall → List Cqe
  | some ⟨_, .completions _ _ _ wcs⟩ => wcs
  | _ => []

/-- The completion that the next piece of a call processes. -/
def handled : TestPc → List Cqe
  | .completions _ _ _ (c :: _) => [c]
  | _ => []

/-- How a piece of `ncclIbTest` ends: the call goes on, or it returns. It returns
the sizes when the request is done. -/
inductive TestNext
  | go (pc : TestPc)
  | ret (res : Except Stop (Option (List Int)))

structure TestOut (C : Type) where
  comm : C
  posts : List RecvPost
  cq : List Cqe
  next : TestNext

/-- `ncclIbRequestIsComplete`, with no resiliency context. -/
def ncclIbRequestIsComplete (req : NcclIbRequest) : Bool :=
  (List.range NCCL_IB_MAX_DEVS_PER_NIC).all (fun d => req.events d = 0)

section
variable {C : Type} [NetComm C]

/-- The head of the loop. -/
def testTop (env : NetEnv) (comm : C) (cq : List Cqe) (r : Nat) : TestOut C :=
  let base := NetComm.base comm
  match ncclIbStatsCheckFatalCount env base.fatalErrorCount with
  | .error e => ⟨comm, [], cq, .ret (.error e)⟩
  | .ok () =>
    if ncclIbRequestIsComplete (base.reqs r) then
      let (comm, sizes) := NetComm.requestComplete env comm r
      ⟨comm, [], cq, .ret (.ok (some sizes))⟩
    else ⟨comm, [], cq, .go (.device 0 0)⟩

/-- The loop over the devices. A poll returns at most 4 completions; how many it
returns is up to the provider. -/
def testDevice (comm : C) (cq : List Cqe) (r i totalWrDone n : Nat) : TestOut C :=
  let base := NetComm.base comm
  let req := base.reqs r
  if i ≥ base.ndevs then
    ⟨comm, [], cq, if totalWrDone > 0 then .go .top else .ret (.ok none)⟩
  else if !req.devBases i || (req.events i = 0 && !base.resiliency) then
    ⟨comm, [], cq, .go (.device (i + 1) totalWrDone)⟩
  else
    let flush := decide (req.type = NCCL_NET_IB_REQ_FLUSH)
    let (wcs, cq) := popUpTo (fun c => c.dev = i && c.flush == flush) (min n 4) cq
    ⟨comm, [], cq, .go (.completions i (totalWrDone + wcs.length) wcs.length wcs)⟩

/-- One completion that a poll has returned. -/
def testCompletion (env : NetEnv) (comm : C) (cq : List Cqe) (i totalWrDone wrDone : Nat) (c : Cqe)
    (wcs : List Cqe) : TestOut C :=
  let out :=
    if c.wc.success then NetComm.eventProcess env comm c.wc i
    else if c.wc.wr_id = NCCL_IB_SPEED_UPDATE_WR_ID then NetComm.speedUpdateFailed comm
    else ⟨comm, [], .error (.ret ncclRemoteError)⟩
  match out.ret with
  | .error e => ⟨out.comm, out.posts, cq, .ret (.error e)⟩
  | .ok () => ⟨out.comm, out.posts, cq, .go (.completions i totalWrDone wrDone wcs)⟩

/-- One piece of `ncclIbTest`. -/
def ncclIbTest (env : NetEnv) (comm : C) (cq : List Cqe) (call : TestCall) (n : Nat) : TestOut C :=
  match call.pc with
  | .top => testTop env comm cq call.r
  | .device i totalWrDone => testDevice comm cq call.r i totalWrDone n
  | .completions i totalWrDone wrDone (c :: wcs) =>
    testCompletion env comm cq i totalWrDone wrDone c wcs
  | .completions i totalWrDone wrDone [] =>
    -- A fatal error of the device ends the call after a poll that returned something.
    if wrDone = 0 then ⟨comm, [], cq, .go (.device (i + 1) totalWrDone)⟩
    else
      match ncclIbStatsCheckFatalCount env
          (env.devFatalErrorCount (NetComm.ibDevN comm i)) with
      | .error e => ⟨comm, [], cq, .ret (.error e)⟩
      | .ok () => ⟨comm, [], cq, .go (.device (i + 1) totalWrDone)⟩

end

end net_ib.p2p
