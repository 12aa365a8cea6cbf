-- The runs of a send comm. The user calls ncclIbIsend and ncclIbTest, the CTS
-- elements of the receive groups arrive in the FIFO, and the provider completes
-- the signaled work requests of each QP in order. The history fields (owner and
-- below) are not in the code: they say what each slot entry is for.
import MrcPlugin.Test
import MrcPlugin.Lib.Runs

namespace net_ib.p2p

open queues

/-! ## The state -/

/-- The send that an entry of `sendReqs` stands for: its group, and its number
among all sends. The request itself may be freed and used again before the entry
is cleared. -/
structure Owner where
  id : Nat
  serial : Nat
deriving DecidableEq, Repr

/-- A call of `ncclIbIsend` that returned a request. `before` are the sends that
had been reported done, and `weights` are those of the comm. -/
structure Accept where
  id : Nat
  r : Nat
  serial : Nat
  args : IsendArgs
  before : List Nat
  weights : Nat → Nat

/-- A group that `ncclIbMultiSend` has posted, and the owners of the entries that
it posted. -/
structure Sent where
  id : Nat
  owners : List (Option Owner)
  posts : List SendPost

structure SendState where
  comm : NcclIbSendComm
  call : Option TestCall
  sq : List Cqe
  cq : List Cqe
  owner : Nat → Nat → Option Owner
  serialOf : Nat → Nat
  nextSerial : Nat
  reported : List Nat
  processed : List Cqe
  log : List Accept
  sent : List Sent

/-! ## The steps -/

/-- The completions of the posts of group `id`: one for each signaled work request. -/
def sendCqes (base : NcclIbNetCommBase) (id : Nat) (posts : List SendPost) : List Cqe :=
  posts.flatMap (fun p => (p.wrs.filter (fun wr => wr.signaled)).map (fun wr =>
    { wc := ⟨true, wr.wr_id, IBV_WC_RDMA_WRITE, 0, 0, (base.qps p.qp).qpn⟩
      qp := p.qp
      dev := (base.qps p.qp).devIndex
      flush := false
      cause := .data id }))

inductive SendAct
  | isend (env : NetEnv) (a : IsendArgs)
  | cts (k r : Nat)
  | testBegin (r : Nat)
  | test (env : NetEnv) (n : Nat)
  | complete (q : Nat)
  | speed (buf : NcclIbRemoteSpeedBuf)

/-- The entry that the call of `ncclIbIsend` takes in this state. -/
def SendState.entry (s : SendState) (a : IsendArgs) : Nat :=
  let slot := slotOf s.comm.base.fifoHead
  (matchEntry s.comm slot (s.comm.ctsFifo slot 0).nreqs a.tag).getD 0

/-- The history of a call that returned request `i`. -/
def SendState.accept (s : SendState) (a : IsendArgs) (out : IsendOut) (i : Nat) : SendState :=
  let id := s.comm.base.fifoHead
  let slot := slotOf id
  let r := s.entry a
  let owner := Function.update s.owner slot
    (Function.update (s.owner slot) r (some ⟨id, s.nextSerial⟩))
  { s with
    comm := out.comm
    sq := s.sq ++ sendCqes s.comm.base id out.posts
    owner
    serialOf := Function.update s.serialOf i s.nextSerial
    nextSerial := s.nextSerial + 1
    log := s.log ++ [⟨id, r, s.nextSerial, a, s.reported, s.comm.base.weights⟩]
    sent :=
      if out.posts = [] then s.sent
      else s.sent ++ [⟨id, (List.range (s.comm.ctsFifo slot 0).nreqs).map (owner slot), out.posts⟩] }

/-- The state after a piece of `ncclIbTest`. A call that follows a bad pointer
has no state after it. -/
def SendState.afterTest (s : SendState) (call : TestCall) (out : TestOut NcclIbSendComm) :
    Option SendState :=
  let t := { s with comm := out.comm, cq := out.cq }
  match out.next with
  | .go pc => some { t with call := some ⟨call.r, pc⟩, processed := s.processed ++ handled call.pc }
  | .ret (.error (.ret _)) => some { t with call := none }
  | .ret (.error _) => none
  | .ret (.ok none) => some { t with call := none }
  | .ret (.ok (some _)) =>
    some { t with
      call := none
      reported := s.reported ++ [s.serialOf call.r]
      -- The owners of a row go with the row.
      owner := fun slot r =>
        if (out.comm.sendReqs slot r).isNone then none else s.owner slot r }

/-- One step of a send comm, where `g k` are the CTS elements of receive group
`k`. An element arrives while its group is one of the next 256. A call that spins
has not returned: it is the same as a later call. -/
def SendState.next (g : Nat → List NcclIbSendFifo) : SendAct → SendState → Option SendState
  | .isend env a, s =>
    if s.call.isSome then none
    else
      let out := ncclIbIsend env s.comm a
      match out.ret with
      | .error (.ret _) => some { s with comm := out.comm }
      | .error _ => none
      | .ok none => some { s with comm := out.comm }
      | .ok (some i) => some (s.accept a out i)
  | .cts k r, s =>
    match (g k)[r]? with
    | none => none
    | some e =>
      if s.comm.base.fifoHead ≤ k ∧ k < s.comm.base.fifoHead + NET_IB_MAX_REQUESTS then
        some { s with comm := { s.comm with
          ctsFifo := Function.update s.comm.ctsFifo (slotOf k)
            (Function.update (s.comm.ctsFifo (slotOf k)) r e) } }
      else none
  | .testBegin r, s =>
    -- The user tests a request that it holds.
    if s.call = none ∧ r < NET_IB_MAX_REQUESTS ∧
        (s.comm.base.reqs r).type ≠ NCCL_NET_IB_REQ_UNUSED then
      some { s with call := some ⟨r, .top⟩ }
    else none
  | .test env n, s =>
    match s.call with
    | none => none
    | some call => s.afterTest call (ncclIbTest env s.comm s.cq call n)
  | .complete q, s =>
    match popFirst (fun c => c.qp = q) s.sq with
    | none => none
    | some (c, sq) => some { s with sq, cq := s.cq ++ [c] }
  | .speed buf, s => some { s with comm := { s.comm with remoteSpeedBuf := buf } }

/-- A send comm right after the handshake, with no resiliency context. -/
structure SendState.Init (sh : Shape) (s : SendState) : Prop where
  striped : Striped sh s.comm.base
  active : ∀ q < sh.nqps, s.comm.base.activeQps q = some q
  resiliency : s.comm.base.resiliency = false
  fifoHead : s.comm.base.fifoHead = 0
  reqs : ∀ i < NET_IB_MAX_REQUESTS, (s.comm.base.reqs i).type = NCCL_NET_IB_REQ_UNUSED
  ctsFifo : ∀ slot r, (s.comm.ctsFifo slot r).idx = 0
  sendReqs : ∀ slot r, s.comm.sendReqs slot r = none
  sendReqsCnt : ∀ slot, s.comm.sendReqsCnt slot = 0
  call : s.call = none
  sq : s.sq = []
  cq : s.cq = []
  owner : ∀ slot r, s.owner slot r = none
  nextSerial : s.nextSerial = 0
  reported : s.reported = []
  processed : s.processed = []
  log : s.log = []
  sent : s.sent = []

/-- The elements of the receive groups as `ncclIbIrecv` writes them. -/
structure GroupsOk (g : Nat → List NcclIbSendFifo) : Prop where
  length_le : ∀ k, (g k).length ≤ NCCL_NET_IB_MAX_RECVS
  idx : ∀ (k r : Nat) (e : NcclIbSendFifo), (g k)[r]? = some e → e.idx = k + 1
  nreqs : ∀ (k r : Nat) (e : NcclIbSendFifo), (g k)[r]? = some e → e.nreqs = (g k).length

/-- The runs of a send comm of shape `sh` whose steps all meet `guard`. -/
def sendSystem (sh : Shape) (g : Nat → List NcclIbSendFifo) (guard : SendAct → SendState → Prop) :
    runs.System SendState where
  init := SendState.Init sh
  step := fun s t => ∃ act, guard act s ∧ s.next g act = some t

/-! ## Before the first call -/

/-- A send comm before its first call. -/
def startSend (sh : Shape) : SendState :=
  { comm := freshSend sh, call := none, sq := [], cq := [], owner := fun _ _ => none
    serialOf := fun _ => 0, nextSerial := 0, reported := [], processed := [], log := [], sent := [] }

def sendOf (tag : Int) : IsendArgs := { data := 1, size := 8, tag, lkeys := fun _ => 1 }

theorem init_startSend (sh : Shape) : SendState.Init sh (startSend sh) where
  striped := striped_freshBase sh true
  active := fun _ _ => rfl
  resiliency := rfl
  fifoHead := rfl
  reqs := fun _ _ => rfl
  ctsFifo := fun _ _ => rfl
  sendReqs := fun _ _ => rfl
  sendReqsCnt := fun _ => rfl
  call := rfl
  sq := rfl
  cq := rfl
  owner := fun _ _ => rfl
  nextSerial := rfl
  reported := rfl
  processed := rfl
  log := rfl
  sent := rfl

end net_ib.p2p
