-- ncclIbTest on a send comm with a resiliency context (p2p.cc, p2p_resiliency.cc),
-- cut where the provider can act. First ncclIbResiliencyProgress polls the probes
-- of each device, then each slot of failedRequests and each device has its turn.
-- The loop over the completion queues of the devices comes after that.
import MrcPlugin.Resiliency
import MrcPlugin.Lib.Resends

namespace net_ib.resiliency

open p2p recovery queues resends

/-! ## The completion queues -/

/-- An entry of the completion queue of a device, or a signaled work request that
will become one. `part` is the QP index that it is for, with the group and the
number of its post. The code does not see it. -/
structure SendCqe where
  status : WcStatus
  wr_id : Nat
  qp : Nat
  dev : Nat
  part : Sending
deriving DecidableEq, Repr

/-- A probe that is out, or its completion. `read` says whether the provider has
written the answer. -/
structure ProbeCqe where
  status : WcStatus
  wr : IbvSendWr
  dev : Nat
  read : Bool
deriving DecidableEq, Repr

/-! ## The pieces of a call -/

/-- Where a call stands. The first six places are in `ncclIbResiliencyProgress`. -/
inductive FailoverPc
  | start
  | probes (d : Nat)
  | probeEvents (d : Nat) (wcs : List ProbeCqe)
  | requests (k : Nat)
  | recovery (d : Nat)
  | finish
  | top
  | device (i totalWrDone : Nat)
  | completions (i totalWrDone wrDone : Nat) (wcs : List SendCqe)
deriving DecidableEq, Repr

/-- A call of `ncclIbTest` on request `r`. -/
structure FailoverCall where
  r : Nat
  pc : FailoverPc
deriving DecidableEq, Repr

/-- How a piece ends: the call goes on, or it returns. It returns the sizes when the
request is done. -/
inductive FailoverNext
  | go (pc : FailoverPc)
  | ret (res : Except Stop (Option (List Int)))

/-- What a piece does. -/
structure FailoverOut where
  s : ResSendComm
  posts : List (SendPost ⊕ ProbePost)
  cq : List SendCqe
  probeCq : List ProbeCqe
  next : FailoverNext

/-- The parameters and the clocks of both files. -/
structure FailoverEnv where
  net : NetEnv
  res : ResEnv

/-- Both completion queues of a comm. -/
structure Cqs where
  cq : List SendCqe
  probeCq : List ProbeCqe

/-- Nothing changes, and the call goes on at `pc`. -/
def goTo (s : ResSendComm) (q : Cqs) (pc : FailoverPc) : FailoverOut :=
  ⟨s, [], q.cq, q.probeCq, .go pc⟩

/-! ## ncclIbResiliencyProgress -/

/-- The loop of `ncclIbResiliencyProbeProgress` over the devices. A poll returns at
most 4 completions. -/
def probeProgress (s : ResSendComm) (q : Cqs) (d n : Nat) : FailoverOut :=
  let resDev := s.res.base.devs d
  if d ≥ s.res.base.ndevs then goTo s q (.requests 0)
  else if resDev.nOutstandingProbes = 0 then goTo s q (.probes (d + 1))
  else
    let (wcs, probeCq) := popUpTo (fun c => c.dev = d) (min n 4) q.probeCq
    if wcs.length = 0 then goTo s q (.probes (d + 1))
    else if wcs.length > resDev.nOutstandingProbes then
      ⟨s, [], q.cq, probeCq, .ret (.error (.ret ncclInternalError))⟩
    else
      let devs := Function.update s.res.base.devs d
        { resDev with nOutstandingProbes := resDev.nOutstandingProbes - wcs.length }
      ⟨{ s with res := { s.res with base := { s.res.base with devs } } }, [], q.cq, probeCq,
        .go (.probeEvents d wcs)⟩

/-- One completion of a probe. -/
def probeEvent (env : FailoverEnv) (s : ResSendComm) (q : Cqs) (d : Nat) (c : ProbeCqe)
    (wcs : List ProbeCqe) : FailoverOut :=
  match ncclIbResiliencyProbeHandleCompletionEvent env.res s c.status c.wr.wr_id d with
  | (s, .error e) => ⟨s, [], q.cq, q.probeCq, .ret (.error e)⟩
  | (s, .ok ()) => ⟨s, [], q.cq, q.probeCq, .go (.probeEvents d wcs)⟩

/-- The turn of slot `k` of `failedRequests`. -/
def requestTurn (env : FailoverEnv) (s : ResSendComm) (q : Cqs) (k : Nat) : FailoverOut :=
  if k ≥ NET_IB_MAX_REQUESTS then
    goTo s q (if s.res.base.outstandingRecovery > 0 then .recovery 0 else .finish)
  else
    let out := progressRequest env.net env.res s k
    match out.ret with
    | .error e => ⟨out.comm, out.posts, q.cq, q.probeCq, .ret (.error e)⟩
    | .ok () => ⟨out.comm, out.posts, q.cq, q.probeCq, .go (.requests (k + 1))⟩

/-- The turn of a device whose recovery may have ended. -/
def recoveryTurn (s : ResSendComm) (q : Cqs) (d : Nat) : FailoverOut :=
  if d ≥ s.res.base.ndevs then goTo s q .finish
  else
    match progressDev s.comm.base s.res.base d with
    | (base, res, .error e) =>
      ⟨⟨{ s.comm with base }, { s.res with base := res }⟩, [], q.cq, q.probeCq, .ret (.error e)⟩
    | (base, res, .ok ()) =>
      goTo ⟨{ s.comm with base }, { s.res with base := res }⟩ q (.recovery (d + 1))

/-- The end of `ncclIbResiliencyProgress`. -/
def progressEnd (s : ResSendComm) (q : Cqs) : FailoverOut :=
  let base := s.res.base
  let inProgress :=
    if base.outstandingRequests = 0 ∧ base.outstandingRecovery = 0 then false else base.inProgress
  goTo { s with res := { s.res with base := { base with inProgress } } } q .top

/-! ## The loop of ncclIbTest -/

/-- The head of the loop. -/
def failoverTop (env : FailoverEnv) (s : ResSendComm) (q : Cqs) (r : Nat) : FailoverOut :=
  match ncclIbStatsCheckFatalCount env.net s.comm.base.fatalErrorCount with
  | .error e => ⟨s, [], q.cq, q.probeCq, .ret (.error e)⟩
  | .ok () =>
    if requestIsComplete s.res.base (s.comm.base.reqs r) then
      let (comm, sizes) := sendRequestComplete env.net s.comm r
      ⟨{ s with comm }, [], q.cq, q.probeCq, .ret (.ok (some sizes))⟩
    else goTo s q (.device 0 0)

/-- The loop over the devices. All requests of a send comm are sends, and a device
is polled whatever its counter says. -/
def failoverDevice (s : ResSendComm) (q : Cqs) (r i totalWrDone n : Nat) : FailoverOut :=
  if i ≥ s.comm.base.ndevs then
    if totalWrDone > 0 then goTo s q .top else ⟨s, [], q.cq, q.probeCq, .ret (.ok none)⟩
  else if !(s.comm.base.reqs r).devBases i then goTo s q (.device (i + 1) totalWrDone)
  else
    let (wcs, cq) := popUpTo (fun c => c.dev = i) (min n 4) q.cq
    ⟨s, [], cq, q.probeCq, .go (.completions i (totalWrDone + wcs.length) wcs.length wcs)⟩

/-- What a successful completion looks like to the code. -/
def wcOf (base : NcclIbNetCommBase) (c : SendCqe) : IbvWc :=
  ⟨true, c.wr_id, IBV_WC_RDMA_WRITE, 0, 0, (base.qps c.qp).qpn⟩

/-- What the code does with a completion that a poll has returned. -/
def sendCompletion (env : FailoverEnv) (s : ResSendComm) (i : Nat) (c : SendCqe) :
    ResSendComm × Except Stop Unit :=
  if c.status = .IBV_WC_SUCCESS then
    let out := sendEventProcess s.comm (wcOf s.comm.base c) i
    ({ s with comm := out.comm }, out.ret)
  else if c.wr_id = NCCL_IB_SPEED_UPDATE_WR_ID then (s, .error .badPointer)
  else sendCompletionError env.res s c.status c.wr_id i

/-- The loop over the completions that a poll has returned. -/
def failoverCompletions (env : FailoverEnv) (s : ResSendComm) (q : Cqs)
    (i totalWrDone wrDone : Nat) : List SendCqe → FailoverOut
  | c :: wcs =>
    match sendCompletion env s i c with
    | (s, .error e) => ⟨s, [], q.cq, q.probeCq, .ret (.error e)⟩
    | (s, .ok ()) => ⟨s, [], q.cq, q.probeCq, .go (.completions i totalWrDone wrDone wcs)⟩
  | [] =>
    if wrDone = 0 then goTo s q (.device (i + 1) totalWrDone)
    else
      match ncclIbStatsCheckFatalCount env.net
          (env.net.devFatalErrorCount (s.comm.ibDevN i)) with
      | .error e => ⟨s, [], q.cq, q.probeCq, .ret (.error e)⟩
      | .ok () => goTo s q (.device (i + 1) totalWrDone)

/-- One piece of `ncclIbTest`. -/
def failoverTest (env : FailoverEnv) (s : ResSendComm) (q : Cqs) (call : FailoverCall) (n : Nat) :
    FailoverOut :=
  match call.pc with
  | .start => goTo s q (if s.res.base.inProgress then .probes 0 else .top)
  | .probes d => probeProgress s q d n
  | .probeEvents d [] => goTo s q (.probes d)
  | .probeEvents d (c :: wcs) => probeEvent env s q d c wcs
  | .requests k => requestTurn env s q k
  | .recovery d => recoveryTurn s q d
  | .finish => progressEnd s q
  | .top => failoverTop env s q call.r
  | .device i totalWrDone => failoverDevice s q call.r i totalWrDone n
  | .completions i totalWrDone wrDone wcs => failoverCompletions env s q i totalWrDone wrDone wcs

end net_ib.resiliency
