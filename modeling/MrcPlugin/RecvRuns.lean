-- The runs of a receive comm. The user calls ncclIbIrecv, ncclIbIflush and
-- ncclIbTest, the data of the peer arrives on each QP in order and uses up one
-- receive work request, and the provider completes the signaled work requests of
-- each QP in order. The fields from reqFor on are history.
import MrcPlugin.Test
import MrcPlugin.Lib.Runs

namespace net_ib.p2p

open queues

/-! ## The state -/

/-- A receive work request on a QP, and the group that it was posted for. A
preposted one is for no group. -/
structure RecvWr where
  qp : Nat
  wr_id : Nat
  id : Option Nat
deriving DecidableEq, Repr

/-- `data` are the last writes of the peer, with the immediate value, that have
not used a receive work request yet. Their `wr_id` is not set. -/
structure RecvState where
  comm : NcclIbRecvComm
  call : Option TestCall
  sq : List Cqe
  rq : List RecvWr
  data : List Cqe
  cq : List Cqe
  /-- What a request is for. -/
  reqFor : Nat → Cause
  /-- The groups that the peer has sent. -/
  peerHead : Nat
  /-- The calls of `ncclIbIflush` that returned a request. -/
  flushes : Nat
  reported : List Cause
  processed : List Cqe
  /-- The completions in the hand of a test that failed. -/
  lost : List Cqe

/-! ## The steps -/

/-- The completions that a post will have: one for each signaled work request. -/
def postCqes (base : NcclIbNetCommBase) (cause : Cause) : RecvPost → List Cqe
  | .send p => (p.wrs.filter (fun wr => wr.signaled)).map (fun wr =>
    { wc := ⟨true, wr.wr_id, IBV_WC_RDMA_WRITE, 0, 0, (base.qps p.qp).qpn⟩
      qp := p.qp
      dev := (base.qps p.qp).devIndex
      flush := false
      cause })
  | .recv _ _ => []
  | .flush d wr =>
    [{ wc := ⟨true, wr.wr_id, IBV_WC_RDMA_READ, 0, 0, 0⟩, qp := d, dev := d, flush := true, cause }]

def postRecvs (id : Option Nat) : RecvPost → List RecvWr
  | .recv qp wr_id => [⟨qp, wr_id, id⟩]
  | _ => []

/-- The posts of a call reach the provider. -/
def RecvState.posted (s : RecvState) (cause : Cause) (id : Option Nat) (posts : List RecvPost) :
    RecvState :=
  { s with
    sq := s.sq ++ posts.flatMap (postCqes s.comm.base cause)
    rq := s.rq ++ posts.flatMap (postRecvs id) }

/-- The state after a call of `ncclIbIrecv` or `ncclIbIflush` that was made for
`cause`. -/
def RecvState.afterCall (s : RecvState) (cause posted : Cause) (id : Option Nat) (out : RecvOut) :
    Option RecvState :=
  let t := { s.posted posted id out.posts with comm := out.comm }
  match out.ret with
  | .error (.ret _) => some t
  | .error _ => none
  | .ok none => some t
  | .ok (some i) => some { t with reqFor := Function.update s.reqFor i cause }

/-- The state after a piece of `ncclIbTest`. A call that follows a bad pointer
has no state after it. -/
def RecvState.afterTest (s : RecvState) (call : TestCall) (out : TestOut NcclIbRecvComm) :
    Option RecvState :=
  let t := { s.posted .speed none out.posts with comm := out.comm, cq := out.cq }
  match out.next with
  | .go pc =>
    some { t with call := some ⟨call.r, pc⟩, processed := s.processed ++ handled call.pc }
  | .ret (.error (.ret _)) => some { t with call := none, lost := s.lost ++ inHand (some call) }
  | .ret (.error _) => none
  | .ret (.ok none) => some { t with call := none }
  | .ret (.ok (some _)) =>
    some { t with call := none, reported := s.reported ++ [s.reqFor call.r] }

inductive RecvAct
  | irecv (env : NetEnv) (bufs : List RecvBuffer)
  | iflush (bufs : List FlushBuffer)
  | testBegin (r : Nat)
  | test (env : NetEnv) (n : Nat)
  | complete (q : Nat) (flush : Bool)
  | deliver (q : Nat)
  | record (slot : Nat) (sizes : Nat → Int)

/-- One step of a receive comm. -/
def RecvState.next : RecvAct → RecvState → Option RecvState
  | .irecv env bufs, s =>
    if s.call.isSome then none
    else
      let k := s.comm.base.fifoHead
      s.afterCall (.data k) (.cts k) (some k) (ncclIbIrecv env s.comm bufs)
  | .iflush bufs, s =>
    if s.call.isSome then none
    else
      let out := ncclIbIflush s.comm bufs
      match s.afterCall (.flush s.flushes) (.flush s.flushes) none out with
      | none => none
      | some t => some { t with flushes := if out.posts = [] then s.flushes else s.flushes + 1 }
  | .testBegin r, s =>
    -- The user tests a request that it holds.
    if s.call = none ∧ r < NET_IB_MAX_REQUESTS ∧
        (s.comm.base.reqs r).type ≠ NCCL_NET_IB_REQ_UNUSED then
      some { s with call := some ⟨r, .top⟩ }
    else none
  | .test env n, s =>
    match s.call with
    | none => none
    | some call => s.afterTest call (ncclIbTest env s.comm s.cq call n)
  | .complete q flush, s =>
    match popFirst (fun c => c.qp = q && c.flush == flush) s.sq with
    | none => none
    | some (c, sq) => some { s with sq, cq := s.cq ++ [c] }
  | .deliver q, s =>
    -- Data that finds no receive work request waits.
    match popFirst (fun c => c.qp = q) s.data, popFirst (fun e => e.qp = q) s.rq with
    | some (c, data), some (e, rq) =>
      some { s with data, rq, cq := s.cq ++ [{ c with wc := { c.wc with wr_id := e.wr_id } }] }
    | _, _ => none
  | .record slot sizes, s =>
    -- The sender of a multi-receive writes the sizes of its sends.
    some { s with comm := { s.comm with
      cmplsRecords := Function.update s.comm.cmplsRecords slot
        { s.comm.cmplsRecords slot with sizes } } }

/-- A receive comm right after the handshake, with no resiliency context. Its
preposted receives, if any, are there. -/
structure RecvState.Init (sh : Shape) (pre : Bool) (s : RecvState) : Prop where
  striped : Striped sh s.comm.base
  active : ∀ q < sh.nqps, s.comm.base.activeQps q = some q
  resiliency : s.comm.base.resiliency = false
  fifoHead : s.comm.base.fifoHead = 0
  reqs : ∀ i < NET_IB_MAX_REQUESTS, (s.comm.base.reqs i).type = NCCL_NET_IB_REQ_UNUSED
  prepost : s.comm.prepostReceiveWorkRequests = pre
  recvWrId : pre = true → s.comm.recvWrId = NCCL_IB_RECV_WR_ID_DUMMY
  rq : ∀ e ∈ s.rq, pre = true ∧ e.id = none ∧ e.wr_id = NCCL_IB_RECV_WR_ID_DUMMY
  call : s.call = none
  sq : s.sq = []
  data : s.data = []
  cq : s.cq = []
  peerHead : s.peerHead = 0
  flushes : s.flushes = 0
  reported : s.reported = []
  processed : s.processed = []
  lost : s.lost = []

/-- A receive comm before its first call. -/
def startRecv (sh : Shape) : RecvState :=
  { comm := freshRecv sh false, call := none, sq := [], rq := [], data := [], cq := []
    reqFor := fun _ => .speed, peerHead := 0, flushes := 0, reported := [], processed := []
    lost := [] }

theorem init_startRecv (sh : Shape) : RecvState.Init sh false (startRecv sh) where
  striped := striped_freshBase sh false
  active := fun _ _ => rfl
  resiliency := rfl
  fifoHead := rfl
  reqs := fun _ _ => rfl
  prepost := rfl
  recvWrId := fun _ => rfl
  rq := fun e he => by cases he
  call := rfl
  sq := rfl
  data := rfl
  cq := rfl
  peerHead := rfl
  flushes := rfl
  reported := rfl
  processed := rfl
  lost := rfl

end net_ib.p2p
