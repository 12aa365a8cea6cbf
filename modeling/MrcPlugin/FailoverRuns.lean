-- The runs of a send comm with a resiliency context. To the runs of SendRuns come
-- completions with error, the probes that the provider answers, and the recovery
-- thread. The history fields (owner and below) are not in the code: they say which
-- sends the rows stand for, and what became of every part that was posted.
import MrcPlugin.FailoverTest
import MrcPlugin.Rows
import MrcPlugin.PostedSends
import MrcPlugin.Lib.Runs

namespace net_ib.resiliency

open p2p recovery queues resends

/-! ## The state -/

/-- `gen` counts for each group how often its counters were cleared. `acked` are the
parts whose successful completion was polled, `lost` those that a poll took out of
the queue in another way, and `answered` what the probes of a group reported. -/
structure FailoverState where
  s : ResSendComm
  call : Option FailoverCall
  sq : List SendCqe
  cq : List SendCqe
  probeSq : List ProbeCqe
  probeCq : List ProbeCqe
  owner : Nat → Nat → Option Owner
  serialOf : Nat → Nat
  nextSerial : Nat
  reported : List Nat
  log : List Owner
  gen : Nat → Nat
  acked : List Sending
  lost : List Sending
  answered : List (Nat × Nat)

/-- The completions that a poll has returned and that are not processed yet. -/
def handOf : Option FailoverCall → List SendCqe
  | some ⟨_, .completions _ _ _ wcs⟩ => wcs
  | _ => []

def probeHandOf : Option FailoverCall → List ProbeCqe
  | some ⟨_, .probeEvents _ wcs⟩ => wcs
  | _ => []

/-- The completions that are not processed yet. -/
def FailoverState.pend (x : FailoverState) : List SendCqe := x.sq ++ x.cq ++ handOf x.call

/-- The probes that are not processed yet. -/
def FailoverState.probes (x : FailoverState) : List ProbeCqe :=
  x.probeSq ++ x.probeCq ++ probeHandOf x.call

/-- What became of the parts. -/
def FailoverState.ledger (x : FailoverState) : Ledger :=
  { gen := x.gen
    waiting := x.pend.map SendCqe.part ++ x.lost
    acked := x.acked
    known := x.answered }

def FailoverState.rows (x : FailoverState) : Rows :=
  { fifoHead := x.s.comm.base.fifoHead
    reqs := x.s.comm.base.reqs
    sendReqs := x.s.comm.sendReqs
    cnt := x.s.comm.sendReqsCnt
    owner := x.owner
    serialOf := x.serialOf
    nextSerial := x.nextSerial
    reported := x.reported }

/-! ## The posts of a group -/

/-- The QP indexes of request `id`. -/
def requestIndexes (base : NcclIbNetCommBase) (id : Nat) : List Nat :=
  match requestQps base id with
  | .ok qps => qps.map Prod.snd
  | .error _ => []

/-- The indexes that the loop of `ncclIbMultiSend` posts, where `sent` are the marks
before it. -/
def postedIndexes (sent : Nat → Bool) : List Nat → List Nat
  | [] => []
  | q :: rest =>
    if sent q then postedIndexes sent rest
    else q :: postedIndexes (Function.update sent q true) rest

/-- The completions of the posts of group `id`: one for each signaled work request. -/
def partCqes (base : NcclIbNetCommBase) (id gen : Nat) (posts : List SendPost)
    (indexes : List Nat) : List SendCqe :=
  (posts.zip indexes).flatMap (fun p => (p.1.wrs.filter (fun wr => wr.signaled)).map (fun wr =>
    { status := .IBV_WC_SUCCESS
      wr_id := wr.wr_id
      qp := p.1.qp
      dev := (base.qps p.1.qp).devIndex
      part := ⟨id, gen, p.2⟩ }))

/-! ## The pieces of a call -/

/-- The entry that the call of `ncclIbIsend` takes. -/
def entryOf (comm : NcclIbSendComm) (a : IsendArgs) : Nat :=
  let slot := slotOf comm.base.fifoHead
  (matchEntry comm slot (comm.ctsFifo slot 0).nreqs a.tag).getD 0

/-- The history of a call that returned request `i`. A new request has sent nothing. -/
def FailoverState.accept (x : FailoverState) (a : IsendArgs) (out : IsendOut) (i : Nat) :
    FailoverState :=
  let base := x.s.comm.base
  let id := base.fifoHead
  let slot := slotOf id
  let r := entryOf x.s.comm a
  { x with
    s := { x.s with comm := out.comm }
    sq := x.sq ++ partCqes base id 0 out.posts
      (postedIndexes (fun _ => false) (requestIndexes base id))
    owner := Function.update x.owner slot
      (Function.update (x.owner slot) r (some ⟨id, x.nextSerial⟩))
    serialOf := Function.update x.serialOf i x.nextSerial
    nextSerial := x.nextSerial + 1
    log := x.log ++ [⟨id, x.nextSerial⟩] }

/-- The group whose probe has been answered, in the turn of its slot. -/
def probedGroup (s : ResSendComm) : FailoverPc → Option Nat
  | .requests k =>
    if k < NET_IB_MAX_REQUESTS ∧ (s.res.failedRequests k).state = .ProbeCompleted then
      (s.res.failedRequests k).request.map (fun i => (s.comm.base.reqs i).id)
    else none
  | _ => none

/-- The parts that the replay of group `id` does not send. -/
def notResent (s : ResSendComm) (id q : Nat) : Bool :=
  (reqAt s.comm (slotOf id) 0).send.sentData q && s.res.probingResults (slotOf id) q

/-- The state after a piece that does not touch the parts, but for the posts and the
completion that it handles. -/
def FailoverState.after (x : FailoverState) (pc : FailoverPc) (out : FailoverOut) : FailoverState :=
  let t := { x with
    s := out.s
    cq := out.cq
    probeCq := out.probeCq
    probeSq := x.probeSq ++ (out.posts.filterMap Sum.getRight?).map
      (fun p => ⟨.IBV_WC_SUCCESS, p.wr, p.dev, false⟩) }
  match probedGroup x.s pc, pc with
  | some id, _ =>
    { t with
      gen := Function.update x.gen id (x.gen id + 1)
      sq := x.sq ++ partCqes x.s.comm.base id (x.gen id + 1)
        (out.posts.filterMap Sum.getLeft?)
        (postedIndexes (notResent x.s id) (requestIndexes x.s.comm.base id)) }
  | none, .completions _ _ _ (c :: _) =>
    if c.status = .IBV_WC_SUCCESS then { t with acked := x.acked ++ [c.part] }
    else { t with lost := x.lost ++ [c.part] }
  | none, _ => t

/-- The state after a piece of `ncclIbTest`. What a call that returns has in hand is
gone. A call that follows a bad pointer has no state after it. -/
def FailoverState.afterTest (x : FailoverState) (call : FailoverCall) (out : FailoverOut) :
    Option FailoverState :=
  let t := x.after call.pc out
  match out.next with
  | .go pc => some { t with call := some ⟨call.r, pc⟩ }
  | .ret (.error (.ret _)) =>
    some { t with call := none, lost := t.lost ++ ((handOf x.call).drop 1).map SendCqe.part }
  | .ret (.error _) => none
  | .ret (.ok none) => some { t with call := none }
  | .ret (.ok (some _)) =>
    some { t with
      call := none
      reported := x.reported ++ [x.serialOf call.r]
      -- The owners of a row go with the row.
      owner := fun slot r =>
        if (out.s.comm.sendReqs slot r).isNone then none else x.owner slot r }

/-! ## The probes -/

/-- The row of `probingResults` that a probe is answered in. -/
def probeRow (res : NcclIbResiliencySend) (p : ProbeCqe) : Nat :=
  (p.wr.sge.addr - res.probingResultsAddr) / probeBytes

/-- The provider writes the flags of the completion record. -/
def FailoverState.answer (x : FailoverState) (p : ProbeCqe) (flags : Nat → Bool) : FailoverState :=
  let k := probeRow x.s.res p
  let id := (x.s.res.failedRequests k).id - 1
  { x with
    s := { x.s with res := { x.s.res with
      probingResults := Function.update x.s.res.probingResults k flags } }
    answered := x.answered ++
      ((List.range NCCL_IB_MAX_QPS).filter flags).map (fun q => (id, q)) }

/-! ## The steps -/

inductive FailoverAct
  | isend (env : NetEnv) (a : IsendArgs)
  | cts (k r : Nat)
  | testBegin (r : Nat)
  | test (env : FailoverEnv) (n : Nat)
  | complete (q : Nat) (status : WcStatus)
  | probeRead (j : Nat) (flags : Nat → Bool)
  | probeDone (j : Nat) (status : WcStatus)
  | thread (d : Nat) (st : DevState)
  | speed (buf : NcclIbRemoteSpeedBuf)

/-- One step of a send comm, where `g k` are the CTS elements of receive group `k`.
A probe that succeeds has been answered before. -/
def FailoverState.next (g : Nat → List NcclIbSendFifo) :
    FailoverAct → FailoverState → Option FailoverState
  | .isend env a, x =>
    if x.call.isSome then none
    else
      let out := ncclIbIsend env x.s.comm a
      match out.ret with
      | .error (.ret _) => some { x with s := { x.s with comm := out.comm } }
      | .error _ => none
      | .ok none => some { x with s := { x.s with comm := out.comm } }
      | .ok (some i) => some (x.accept a out i)
  | .cts k r, x =>
    match (g k)[r]? with
    | none => none
    | some e =>
      if x.s.comm.base.fifoHead ≤ k ∧ k < x.s.comm.base.fifoHead + NET_IB_MAX_REQUESTS then
        some { x with s := { x.s with comm := { x.s.comm with
          ctsFifo := Function.update x.s.comm.ctsFifo (slotOf k)
            (Function.update (x.s.comm.ctsFifo (slotOf k)) r e) } } }
      else none
  | .testBegin r, x =>
    if x.call = none ∧ r < NET_IB_MAX_REQUESTS ∧
        (x.s.comm.base.reqs r).type ≠ NCCL_NET_IB_REQ_UNUSED then
      some { x with call := some ⟨r, .start⟩ }
    else none
  | .test env n, x =>
    match x.call with
    | none => none
    | some call => x.afterTest call (failoverTest env x.s ⟨x.cq, x.probeCq⟩ call n)
  | .complete q status, x =>
    match popFirst (fun c => c.qp = q) x.sq with
    | none => none
    | some (c, sq) => some { x with sq, cq := x.cq ++ [{ c with status }] }
  | .probeRead j flags, x =>
    match x.probeSq[j]? with
    | none => none
    | some p =>
      if p.read then none
      else some { x.answer p flags with probeSq := x.probeSq.set j { p with read := true } }
  | .probeDone j status, x =>
    match x.probeSq[j]? with
    | none => none
    | some p =>
      if status = .IBV_WC_SUCCESS ∧ !p.read then none
      else some { x with
        probeSq := x.probeSq.eraseIdx j, probeCq := x.probeCq ++ [{ p with status }] }
  | .thread d st, x =>
    if (x.s.res.base.devs d).state = .RecoveryInProgress ∧
        (st = .Recovered ∨ st = .RecoveryFailed) then
      some { x with s := { x.s with res := { x.s.res with base := x.s.res.base.setState d st } } }
    else none
  | .speed buf, x => some { x with s := { x.s with comm := { x.s.comm with remoteSpeedBuf := buf } } }

/-- A send comm right after the handshake, with a resiliency context. -/
structure FailoverState.Init (sh : Shape) (x : FailoverState) : Prop where
  striped : Striped sh x.s.comm.base
  context : x.s.comm.base.resiliency = true
  ndevs : x.s.res.base.ndevs = sh.ndevs
  active : ∀ q < sh.nqps, x.s.comm.base.activeQps q = some q
  ok : ∀ d < sh.ndevs, (x.s.res.base.devs d).state = .Ok
  failedRequests : ∀ k, x.s.res.failedRequests k = {}
  fifoHead : x.s.comm.base.fifoHead = 0
  reqs : ∀ i < NET_IB_MAX_REQUESTS, (x.s.comm.base.reqs i).type = NCCL_NET_IB_REQ_UNUSED
  ctsFifo : ∀ slot r, (x.s.comm.ctsFifo slot r).idx = 0
  sendReqs : ∀ slot r, x.s.comm.sendReqs slot r = none
  sendReqsCnt : ∀ slot, x.s.comm.sendReqsCnt slot = 0
  call : x.call = none
  sq : x.sq = []
  cq : x.cq = []
  probeSq : x.probeSq = []
  probeCq : x.probeCq = []
  owner : ∀ slot r, x.owner slot r = none
  nextSerial : x.nextSerial = 0
  reported : x.reported = []
  log : x.log = []
  gen : ∀ id, x.gen id = 0
  acked : x.acked = []
  lost : x.lost = []
  answered : x.answered = []

/-- The runs of a send comm of shape `sh`. -/
def failoverSystem (sh : Shape) (g : Nat → List NcclIbSendFifo) : runs.System FailoverState where
  init := FailoverState.Init sh
  step := fun x y => ∃ act, x.next g act = some y

/-! ## The property -/

/-- Every part of the group of a send that is reported done was acknowledged by a
successful completion, or a probe reported that it was received. -/
def SendsArrived (x : FailoverState) : Prop :=
  ∀ o ∈ x.log, o.serial ∈ x.reported →
    ∀ q ∈ requestIndexes x.s.comm.base o.id, x.ledger.Arrived o.id q

end net_ib.resiliency
