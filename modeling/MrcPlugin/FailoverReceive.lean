-- The receive side while devices fail (p2p.cc, p2p_resiliency.cc): a receive comm that
-- preposts, matches by id and has a resiliency context. A part of a send may arrive on any
-- QP, and the device that brings it need not be the one that the receive counts on. The
-- fields from arrived on are history.
import MrcPlugin.ActiveTable
import MrcPlugin.FailoverTest
import MrcPlugin.RecvSteps

namespace net_ib.resiliency

open p2p recovery queues

/-! ## The completion queues -/

/-- Part `part` of send group `id`. -/
structure DataPart where
  id : Nat
  part : Nat
deriving DecidableEq, Repr

/-- An entry of a completion queue of a device. `data` is the part that it brings. The code
sees its id only, cut to 32 bits. -/
structure RecvCqe where
  status : WcStatus
  wc : IbvWc
  dev : Nat
  flush : Bool
  data : Option DataPart
deriving DecidableEq, Repr

/-! ## The pieces of a call -/

/-- Where a call of `ncclIbTest` stands. The places before the loop are in
`ncclIbResiliencyProgress`, which has neither probes nor failed requests on this side. -/
inductive ReceivePc
  | start
  | recovery (d : Nat)
  | finish
  | top
  | device (i totalWrDone : Nat)
  | completions (i totalWrDone wrDone : Nat) (wcs : List RecvCqe)
deriving DecidableEq, Repr

/-- A call of `ncclIbTest` on request `r`. -/
structure ReceiveCall where
  r : Nat
  pc : ReceivePc
deriving DecidableEq, Repr

/-- How a piece ends: the call goes on, or it returns. It returns the sizes when the
request is done. -/
inductive ReceiveNext
  | go (pc : ReceivePc)
  | ret (res : Except Stop (Option (List Int)))

/-- What a piece does. -/
structure ReceiveOut where
  s : ResRecvComm
  posts : List RecvPost
  cq : List RecvCqe
  next : ReceiveNext

/-- The turn of a device in `ncclIbResiliencyProgress`. -/
def receiveRecovery (s : ResRecvComm) (cq : List RecvCqe) (d : Nat) :
    ReceiveOut :=
  if d ≥ s.res.ndevs then ⟨s, [], cq, .go .finish⟩
  else
    match progressDev s.comm.base s.res d with
    | (base, res, .error e) => ⟨⟨{ s.comm with base }, res⟩, [], cq, .ret (.error e)⟩
    | (base, res, .ok ()) => ⟨⟨{ s.comm with base }, res⟩, [], cq, .go (.recovery (d + 1))⟩

/-- The end of `ncclIbResiliencyProgress`. -/
def receiveProgressEnd (s : ResRecvComm) (cq : List RecvCqe) : ReceiveOut :=
  let inProgress :=
    if s.res.outstandingRequests = 0 ∧ s.res.outstandingRecovery = 0 then false
    else s.res.inProgress
  ⟨{ s with res := { s.res with inProgress } }, [], cq, .go .top⟩

/-- The head of the loop. -/
def receiveTop (env : FailoverEnv) (s : ResRecvComm) (cq : List RecvCqe) (r : Nat) : ReceiveOut :=
  match ncclIbStatsCheckFatalCount env.net s.comm.base.fatalErrorCount with
  | .error e => ⟨s, [], cq, .ret (.error e)⟩
  | .ok () =>
    if requestIsComplete s.res (s.comm.base.reqs r) then
      let (comm, sizes) := recvRequestComplete s.comm r
      ⟨{ s with comm }, [], cq, .ret (.ok (some sizes))⟩
    else ⟨s, [], cq, .go (.device 0 0)⟩

/-- The loop over the devices. A device is polled whatever its counter says. -/
def receiveDevice (s : ResRecvComm) (cq : List RecvCqe) (r i totalWrDone n : Nat) : ReceiveOut :=
  let req := s.comm.base.reqs r
  if i ≥ s.comm.base.ndevs then
    ⟨s, [], cq, if totalWrDone > 0 then .go .top else .ret (.ok none)⟩
  else if !req.devBases i then ⟨s, [], cq, .go (.device (i + 1) totalWrDone)⟩
  else
    let flush := decide (req.type = NCCL_NET_IB_REQ_FLUSH)
    let (wcs, cq) := popUpTo (fun c => c.dev = i && c.flush == flush) (min n 4) cq
    ⟨s, [], cq, .go (.completions i (totalWrDone + wcs.length) wcs.length wcs)⟩

/-- What the code does with a completion that a poll has returned. -/
def recvCompletion (env : FailoverEnv) (s : ResRecvComm) (i : Nat) (c : RecvCqe) :
    ResOut ResRecvComm RecvPost :=
  if c.status = .IBV_WC_SUCCESS then
    let out := recvEventProcess env.net s.comm c.wc i
    ⟨{ s with comm := out.comm }, out.posts, out.ret⟩
  else if c.wc.wr_id = NCCL_IB_SPEED_UPDATE_WR_ID then
    ⟨{ s with comm := { s.comm with postedSpeedUpdate := false } }, [], .ok ()⟩
  else recvCompletionError env.res s c.status c.wc.wr_id i

/-- The loop over the completions that a poll has returned. -/
def receiveCompletions (env : FailoverEnv) (s : ResRecvComm) (cq : List RecvCqe)
    (i totalWrDone wrDone : Nat) : List RecvCqe → ReceiveOut
  | c :: wcs =>
    let out := recvCompletion env s i c
    match out.ret with
    | .error e => ⟨out.comm, out.posts, cq, .ret (.error e)⟩
    | .ok () => ⟨out.comm, out.posts, cq, .go (.completions i totalWrDone wrDone wcs)⟩
  | [] =>
    if wrDone = 0 then ⟨s, [], cq, .go (.device (i + 1) totalWrDone)⟩
    else
      match ncclIbStatsCheckFatalCount env.net
          (env.net.devFatalErrorCount (s.comm.ibDevN i)) with
      | .error e => ⟨s, [], cq, .ret (.error e)⟩
      | .ok () => ⟨s, [], cq, .go (.device (i + 1) totalWrDone)⟩

/-- One piece of `ncclIbTest`. -/
def receiveTest (env : FailoverEnv) (s : ResRecvComm) (cq : List RecvCqe) (call : ReceiveCall)
    (n : Nat) : ReceiveOut :=
  match call.pc with
  | .start =>
    ⟨s, [], cq, .go
      (if s.res.inProgress then
        if s.res.outstandingRecovery > 0 then .recovery 0 else .finish
      else .top)⟩
  | .recovery d => receiveRecovery s cq d
  | .finish => receiveProgressEnd s cq
  | .top => receiveTop env s cq call.r
  | .device i totalWrDone => receiveDevice s cq call.r i totalWrDone n
  | .completions i totalWrDone wrDone wcs => receiveCompletions env s cq i totalWrDone wrDone wcs

/-! ## The state -/

/-- `reads` are the reads of flushes that are posted, `lost` the completions that a call was
about to process when it failed. `charged` are the parts that were counted, each with the
receive that it was counted for, if it was one. -/
structure ReceiveState where
  s : ResRecvComm
  call : Option ReceiveCall
  reads : List RecvCqe
  cq : List RecvCqe
  lost : List RecvCqe
  arrived : List DataPart
  charged : List (DataPart × Option Nat)
  reported : List Nat

/-- The completions that a poll has returned and that are not processed yet. -/
def receiveHand : Option ReceiveCall → List RecvCqe
  | some ⟨_, .completions _ _ _ wcs⟩ => wcs
  | _ => []

/-- The completions that are not processed. -/
def ReceiveState.pend (x : ReceiveState) : List RecvCqe :=
  x.cq ++ receiveHand x.call ++ x.lost

/-- The receive that a request is. -/
def receiveOf (req : NcclIbRequest) : Option Nat :=
  if req.type = NCCL_NET_IB_REQ_RECV then some req.id else none

/-- What the processing of a completion counts: its part, if it has one and finds a request
in use. -/
def chargeOf (comm : NcclIbRecvComm) (c : RecvCqe) : List (DataPart × Option Nat) :=
  match c.data, recvRetrieve comm c.wc with
  | some a, .ok (some i) =>
    if (comm.base.reqs i).type = NCCL_NET_IB_REQ_UNUSED then []
    else [(a, receiveOf (comm.base.reqs i))]
  | _, _ => []

/-- What the next piece of a call counts, when it goes on. -/
def chargeOfPc (comm : NcclIbRecvComm) : ReceivePc → List (DataPart × Option Nat)
  | .completions _ _ _ (c :: _) => chargeOf comm c
  | _ => []

/-- The state after a piece of `ncclIbTest`. A call that follows a bad pointer has no state
after it. -/
def ReceiveState.afterTest (x : ReceiveState) (call : ReceiveCall) (out : ReceiveOut) :
    Option ReceiveState :=
  let t := { x with s := out.s, cq := out.cq }
  match out.next with
  | .go pc =>
    some { t with
      call := some ⟨call.r, pc⟩
      charged := x.charged ++ chargeOfPc x.s.comm call.pc }
  | .ret (.error (.ret _)) => some { t with call := none, lost := x.lost ++ receiveHand x.call }
  | .ret (.error _) => none
  | .ret (.ok none) => some { t with call := none }
  | .ret (.ok (some _)) =>
    some { t with
      call := none
      reported := x.reported ++ (receiveOf (x.s.comm.base.reqs call.r)).toList }

/-- The completion of the read that a flush posts. -/
def readCqe : RecvPost → Option RecvCqe
  | .flush d wr =>
    some ⟨.IBV_WC_SUCCESS, ⟨true, wr.wr_id, IBV_WC_RDMA_READ, 0, 0, 0⟩, d, true, none⟩
  | _ => none

/-- The completion of a CTS message, of a speed update, or of a receive that is flushed.
Those with an error have no more than their `wr_id`. -/
structure Control (sh : Shape) (c : RecvCqe) : Prop where
  data : c.data = none
  flush : c.flush = false
  dev : c.dev < sh.ndevs
  success : c.status = .IBV_WC_SUCCESS → c.wc.success = true ∧
    (c.wc.wr_id = NCCL_IB_SPEED_UPDATE_WR_ID ∨
      c.wc.wr_id < NET_IB_MAX_REQUESTS ∧ c.wc.opcode = IBV_WC_RDMA_WRITE)
  error : c.status ≠ .IBV_WC_SUCCESS → c.wc.wr_id = NCCL_IB_SPEED_UPDATE_WR_ID ∨
    c.wc.wr_id = NCCL_IB_RECV_WR_ID_DUMMY ∨ c.wc.wr_id < NET_IB_MAX_REQUESTS

instance (sh : Shape) (c : RecvCqe) : Decidable (Control sh c) :=
  decidable_of_iff (c.data = none ∧ c.flush = false ∧ c.dev < sh.ndevs ∧
    (c.status = .IBV_WC_SUCCESS → c.wc.success = true ∧
      (c.wc.wr_id = NCCL_IB_SPEED_UPDATE_WR_ID ∨
        c.wc.wr_id < NET_IB_MAX_REQUESTS ∧ c.wc.opcode = IBV_WC_RDMA_WRITE)) ∧
    (c.status ≠ .IBV_WC_SUCCESS → c.wc.wr_id = NCCL_IB_SPEED_UPDATE_WR_ID ∨
      c.wc.wr_id = NCCL_IB_RECV_WR_ID_DUMMY ∨ c.wc.wr_id < NET_IB_MAX_REQUESTS))
    ⟨fun ⟨h1, h2, h3, h4, h5⟩ => ⟨h1, h2, h3, h4, h5⟩, fun ⟨h1, h2, h3, h4, h5⟩ =>
      ⟨h1, h2, h3, h4, h5⟩⟩

/-! ## The steps -/

inductive ReceiveAct
  | irecv (env : NetEnv) (bufs : List RecvBuffer)
  | iflush (bufs : List FlushBuffer)
  | testBegin (r : Nat)
  | test (env : FailoverEnv) (n : Nat)
  | arrives (a : DataPart) (q byte_len : Nat)
  | control (c : RecvCqe)
  | readDone (j : Nat) (status : WcStatus)
  | thread (d : Nat) (st : DevState)
  | record (slot : Nat) (sizes : Nat → Int)

/-- The completion that a part brings on QP `q`. -/
def arrivalCqe (comm : NcclIbRecvComm) (a : DataPart) (q byte_len : Nat) : RecvCqe where
  status := .IBV_WC_SUCCESS
  wc := ⟨true, comm.recvWrId, IBV_WC_RECV_RDMA_WITH_IMM, a.id % 2 ^ 32, byte_len,
    (comm.base.qps q).qpn⟩
  dev := (comm.base.qps q).devIndex
  flush := false
  data := some a

/-- One step of a receive comm. A part arrives on some QP, for a receive that was posted. -/
def ReceiveState.next (sh : Shape) : ReceiveAct → ReceiveState → Option ReceiveState
  | .irecv env bufs, x =>
    if x.call.isSome then none
    else
      let out := ncclIbIrecv env x.s.comm bufs
      match out.ret with
      | .error (.ret _) | .ok _ => some { x with s := { x.s with comm := out.comm } }
      | .error _ => none
  | .iflush bufs, x =>
    if x.call.isSome then none
    else
      let out := ncclIbIflush x.s.comm bufs
      match out.ret with
      | .error (.ret _) | .ok _ =>
        some { x with
          s := { x.s with comm := out.comm }
          reads := x.reads ++ out.posts.filterMap readCqe }
      | .error _ => none
  | .testBegin r, x =>
    if x.call = none ∧ r < NET_IB_MAX_REQUESTS ∧
        (x.s.comm.base.reqs r).type ≠ NCCL_NET_IB_REQ_UNUSED then
      some { x with call := some ⟨r, .start⟩ }
    else none
  | .test env n, x =>
    match x.call with
    | none => none
    | some call => x.afterTest call (receiveTest env x.s x.cq call n)
  | .arrives a q byte_len, x =>
    if a.id < x.s.comm.base.fifoHead ∧ a.part < reqQps sh x.s.comm.base ∧ q < sh.nqps then
      some { x with
        cq := x.cq ++ [arrivalCqe x.s.comm a q byte_len]
        arrived := x.arrived ++ [a] }
    else none
  | .control c, x => some { x with cq := x.cq ++ [c] }
  | .readDone j status, x =>
    match x.reads[j]? with
    | none => none
    | some c => some { x with reads := x.reads.eraseIdx j, cq := x.cq ++ [{ c with status }] }
  | .thread d st, x =>
    if (x.s.res.devs d).state = .RecoveryInProgress ∧ (st = .Recovered ∨ st = .RecoveryFailed) then
      some { x with s := { x.s with res := x.s.res.setState d st } }
    else none
  | .record slot sizes, x =>
    -- The sender of a multi-receive writes the sizes of its sends.
    some { x with s := { x.s with comm := { x.s.comm with
      cmplsRecords := Function.update x.s.comm.cmplsRecords slot
        { x.s.comm.cmplsRecords slot with sizes } } } }

/-- A receive comm right after the handshake, with a resiliency context. -/
structure ReceiveState.Init (sh : Shape) (x : ReceiveState) : Prop where
  devices : (ResComm.recv x.s).Init sh
  context : x.s.comm.base.resiliency = true
  byId : x.s.comm.base.recvMatchingScheme = BY_ID
  recvWrId : x.s.comm.recvWrId = NCCL_IB_RECV_WR_ID_DUMMY
  prepost : x.s.comm.prepostReceiveWorkRequests = true
  fifoHead : x.s.comm.base.fifoHead = 0
  reqs : ∀ i < NET_IB_MAX_REQUESTS, (x.s.comm.base.reqs i).type = NCCL_NET_IB_REQ_UNUSED
  call : x.call = none
  reads : x.reads = []
  cq : x.cq = []
  lost : x.lost = []
  arrived : x.arrived = []
  charged : x.charged = []
  reported : x.reported = []

/-- The request that a failed completion leads to by its slot is not a flush by now. Such a
flush would give up its own read. -/
def SlotHolds (comm : NcclIbRecvComm) (c : RecvCqe) : Prop :=
  c.status ≠ .IBV_WC_SUCCESS → c.wc.wr_id < NET_IB_MAX_REQUESTS →
    ∀ i ∈ comm.recvReqs c.wc.wr_id, (comm.base.reqs i).type ≠ NCCL_NET_IB_REQ_FLUSH

instance (comm : NcclIbRecvComm) (c : RecvCqe) : Decidable (SlotHolds comm c) :=
  inferInstanceAs (Decidable (_ → _ → ∀ i ∈ comm.recvReqs c.wc.wr_id, _))

/-- What the rest of the world keeps to. The receives that are not reported done are among
the last 256, no part arrives twice, nothing else looks like a part or a flush, and the slot
of a CTS message that fails has not come to a flush. -/
def ReceiveGuard (sh : Shape) : ReceiveAct → ReceiveState → Prop
  | .irecv _ _, x => ∀ i < NET_IB_MAX_REQUESTS,
    (x.s.comm.base.reqs i).type = NCCL_NET_IB_REQ_RECV →
      x.s.comm.base.fifoHead < (x.s.comm.base.reqs i).id + NET_IB_MAX_REQUESTS
  | .test _ _, x => ∀ c ∈ (receiveHand x.call).head?, SlotHolds x.s.comm c
  | .arrives a _ _, x => a ∉ x.arrived
  | .control c, _ => Control sh c
  | _, _ => True

instance (sh : Shape) (act : ReceiveAct) (x : ReceiveState) :
    Decidable (ReceiveGuard sh act x) := by
  cases act <;> unfold ReceiveGuard <;> infer_instance

def receiveSystem (sh : Shape) : runs.System ReceiveState where
  init := ReceiveState.Init sh
  step := fun x y => ∃ act, ReceiveGuard sh act x ∧ x.next sh act = some y

end net_ib.resiliency
