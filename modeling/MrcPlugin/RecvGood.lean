-- The invariant of a receive comm: which request waits for which completions,
-- where the completions of every group and of every flush are, and how a
-- completion finds its request.
import MrcPlugin.RecvRuns
import MrcPlugin.SendGood
import MrcPlugin.QpLookup

namespace net_ib.p2p

open queues counts

/-! ## What completions a request waits for -/

/-- The completions that are counted: those of data and of flushes. -/
def Cause.counted : Cause → Bool
  | .data _ => true
  | .flush _ => true
  | _ => false

/-- The type of the request that waits for a completion. -/
def Cause.reqType : Cause → ReqType
  | .data _ => NCCL_NET_IB_REQ_RECV
  | .flush _ => NCCL_NET_IB_REQ_FLUSH
  | _ => NCCL_NET_IB_REQ_UNUSED

/-- The completions on device `d` of a group or of a flush. -/
def totalFor (sh : Shape) (b : NcclIbNetCommBase) : Cause → Nat → Nat
  | .data id, d => (qpsOf sh b id).countP (fun q => (b.qps q.1).devIndex = d)
  | .flush _, d => if d < sh.ndevs then 1 else 0
  | _, _ => 0

/-- A completion on device `d` for `k`. -/
def causedBy (k : Cause) (d : Nat) (c : Cqe) : Bool := c.cause = k ∧ c.dev = d

/-- All completions that are not processed yet. -/
def RecvState.pend (s : RecvState) : List Cqe := s.data ++ s.sq ++ s.cq ++ inHand s.call

/-- The calls that were made. -/
def RecvState.issued (s : RecvState) : Cause → Prop
  | .data id => id < s.comm.base.fifoHead
  | .flush n => n < s.flushes
  | _ => False

/-- The groups and flushes whose completions are on their way. -/
def RecvState.started (s : RecvState) : Cause → Bool
  | .data id => id < s.peerHead
  | .flush n => n < s.flushes
  | _ => false

/-! ## What a completion looks like -/

/-- The last write of group `id` on a QP, when it arrives. -/
structure DataOk (sh : Shape) (b : NcclIbNetCommBase) (id : Nat) (c : Cqe) : Prop where
  success : c.wc.success = true
  flush : c.flush = false
  qp : c.qp < sh.nqps
  dev : c.dev = (b.qps c.qp).devIndex
  opcode : c.wc.opcode = IBV_WC_RECV_RDMA_WITH_IMM
  qp_num : c.wc.qp_num = (b.qps c.qp).qpn
  imm : b.recvMatchingScheme = BY_ID → c.wc.imm_data % NET_IB_MAX_REQUESTS = slotOf id

/-- A completion in a queue or in the hand of a test finds its request. -/
def CqeOk (sh : Shape) (b : NcclIbNetCommBase) (pre : Bool) (s : RecvState) (c : Cqe) : Prop :=
  match c.cause with
  | .data id => DataOk sh b id c ∧
    (c.wc.wr_id = slotOf id ∨ pre = true ∧ c.wc.wr_id = NCCL_IB_RECV_WR_ID_DUMMY)
  | .cts id => c.wc.success = true ∧ c.wc.opcode = IBV_WC_RDMA_WRITE ∧ c.wc.wr_id = slotOf id ∧
    id < s.comm.base.fifoHead
  | .flush n => c.wc.success = true ∧ c.wc.opcode = IBV_WC_RDMA_READ ∧
    ∃ i < NET_IB_MAX_REQUESTS, c.wc.wr_id = i + NCCL_IB_FLUSH_REQ_WR_ID_OFFSET ∧
      (s.comm.base.reqs i).type = NCCL_NET_IB_REQ_FLUSH ∧ s.reqFor i = .flush n
  | .speed => c.wc.wr_id = NCCL_IB_SPEED_UPDATE_WR_ID ∧ c.wc.success = true

/-- The parts of group `id` on QP `q`, in the order of posting. -/
def partsOn (sh : Shape) (b : NcclIbNetCommBase) (q id : Nat) : List (Option Nat) :=
  ((qpsOf sh b id).filter (fun p => p.1 = q)).map (fun _ => some id)

/-- The group that a completion is for. -/
def Cqe.group (c : Cqe) : Option Nat :=
  match c.cause with
  | .data id => some id
  | _ => none

/-! ## The invariant -/

structure RecvGood (sh : Shape) (b0 : NcclIbNetCommBase) (pre : Bool) (s : RecvState) :
    Prop where
  plain : PlainBase sh b0
  same : SameBase b0 s.comm.base
  prepost : s.comm.prepostReceiveWorkRequests = pre
  recvWrId : pre = true → s.comm.recvWrId = NCCL_IB_RECV_WR_ID_DUMMY
  peer : s.peerHead ≤ s.comm.base.fifoHead
  /-- Every live request is for a call that is not reported. -/
  live : ∀ i < NET_IB_MAX_REQUESTS, (s.comm.base.reqs i).type ≠ NCCL_NET_IB_REQ_UNUSED →
    s.issued (s.reqFor i) ∧ s.reqFor i ∉ s.reported ∧
      (s.comm.base.reqs i).type = (s.reqFor i).reqType ∧
      ∀ id, s.reqFor i = .data id →
        s.comm.recvReqs (slotOf id) = some i ∧ (s.comm.base.reqs i).id = id
  /-- Every call that is not reported has a request. -/
  known : ∀ k, s.issued k → k ∉ s.reported →
    ∃ i < NET_IB_MAX_REQUESTS, (s.comm.base.reqs i).type = k.reqType ∧ s.reqFor i = k
  one_req : ∀ i < NET_IB_MAX_REQUESTS, ∀ j < NET_IB_MAX_REQUESTS,
    (s.comm.base.reqs i).type ≠ NCCL_NET_IB_REQ_UNUSED →
    (s.comm.base.reqs j).type ≠ NCCL_NET_IB_REQ_UNUSED → s.reqFor i = s.reqFor j → i = j
  slots : ∀ id < s.comm.base.fifoHead, ∃ i, s.comm.recvReqs (slotOf id) = some i
  events : ∀ i < NET_IB_MAX_REQUESTS, (s.comm.base.reqs i).type ≠ NCCL_NET_IB_REQ_UNUSED →
    ∀ d, (s.comm.base.reqs i).events d =
      (totalFor sh b0 (s.reqFor i) d : Int) - s.processed.countP (causedBy (s.reqFor i) d)
  /-- Every completion of a started group or flush is somewhere, once. -/
  conserved : ∀ k, k.counted = true → ∀ d, s.pend.countP (causedBy k d) +
    s.processed.countP (causedBy k d) + s.lost.countP (causedBy k d) =
      if s.started k then totalFor sh b0 k d else 0
  /-- What is reported has all its completions processed. -/
  reported : ∀ k ∈ s.reported, k.counted = true ∧ s.started k = true ∧
    ∀ d, s.pend.countP (causedBy k d) = 0
  reported_nodup : s.reported.Nodup
  data : ∀ c ∈ s.data, ∃ id, c.cause = .data id ∧ DataOk sh b0 id c
  cqes : ∀ c ∈ s.sq ++ s.cq ++ inHand s.call, CqeOk sh b0 pre s c
  rq : ∀ e ∈ s.rq, e.id = none ∧ e.wr_id = NCCL_IB_RECV_WR_ID_DUMMY ∨
    ∃ id, e.id = some id ∧ e.wr_id = slotOf id ∧ pre = false
  /-- The receives of a QP are in the order of the data that will use them. -/
  aligned : pre = false → ∀ q, (s.rq.filter (fun e => e.qp = q)).map (fun e => e.id) =
    (s.data.filter (fun c => c.qp = q)).map Cqe.group ++
      (List.range' s.peerHead (s.comm.base.fifoHead - s.peerHead)).flatMap (partsOn sh b0 q)
  call_live : ∀ call, s.call = some call → call.r < NET_IB_MAX_REQUESTS ∧
    (s.comm.base.reqs call.r).type ≠ NCCL_NET_IB_REQ_UNUSED
  hand : ∀ r i t w wcs, s.call = some ⟨r, .completions i t w wcs⟩ → ∀ c ∈ wcs, c.dev = i

section
variable {sh : Shape} {b0 : NcclIbNetCommBase} {pre : Bool} {s t : RecvState}

theorem causedBy_iff {k : Cause} {d : Nat} {c : Cqe} :
    causedBy k d c = true ↔ c.cause = k ∧ c.dev = d := by
  unfold causedBy
  exact decide_eq_true_iff

theorem issued_congr (hfifo : t.comm.base.fifoHead = s.comm.base.fifoHead)
    (hflushes : t.flushes = s.flushes) : t.issued = s.issued := by
  funext k
  unfold RecvState.issued
  rw [hfifo, hflushes]

/-- What a completion looks like does not change while its request is there. -/
theorem CqeOk.keep {c : Cqe} (h : CqeOk sh b0 pre s c)
    (hfifo : s.comm.base.fifoHead ≤ t.comm.base.fifoHead)
    (hreq : ∀ n, c.cause = .flush n → ∀ i < NET_IB_MAX_REQUESTS,
      (s.comm.base.reqs i).type = NCCL_NET_IB_REQ_FLUSH → s.reqFor i = .flush n →
      (t.comm.base.reqs i).type = NCCL_NET_IB_REQ_FLUSH ∧ t.reqFor i = .flush n) :
    CqeOk sh b0 pre t c := by
  unfold CqeOk at h ⊢
  cases hc : c.cause with
  | data id =>
    rw [hc] at h
    exact h
  | cts id =>
    rw [hc] at h
    exact ⟨h.1, h.2.1, h.2.2.1, Nat.lt_of_lt_of_le h.2.2.2 hfifo⟩
  | flush n =>
    rw [hc] at h
    obtain ⟨h1, h2, i, hi, hwr, htype, hfor⟩ := h
    obtain ⟨htype', hfor'⟩ := hreq n hc i hi htype hfor
    exact ⟨h1, h2, i, hi, hwr, htype', hfor'⟩
  | speed =>
    rw [hc] at h
    exact h

theorem RecvState.mem_pend {c : Cqe} (hc : c ∈ s.sq ++ s.cq ++ inHand s.call) : c ∈ s.pend := by
  unfold RecvState.pend
  rw [List.append_assoc, List.append_assoc]
  rw [List.append_assoc] at hc
  exact List.mem_append_right _ hc

/-- A completion that is somewhere belongs to a call that is not reported, and
its request waits for it. -/
theorem RecvGood.pending (h : RecvGood sh b0 pre s) {c : Cqe} (hc : c ∈ s.pend)
    (hk : c.cause.counted = true) : s.started c.cause = true ∧ c.cause ∉ s.reported ∧
      s.processed.countP (causedBy c.cause c.dev) < totalFor sh b0 c.cause c.dev := by
  have hpos : 0 < s.pend.countP (causedBy c.cause c.dev) :=
    List.countP_pos_iff.mpr ⟨c, hc, causedBy_iff.mpr ⟨rfl, rfl⟩⟩
  have hcons := h.conserved c.cause hk c.dev
  refine ⟨?_, ?_, ?_⟩
  · by_contra hns
    rw [if_neg hns] at hcons
    omega
  · intro hrep
    have := (h.reported _ hrep).2.2 c.dev
    omega
  · split at hcons <;> omega

theorem RecvGood.issued_of_started (h : RecvGood sh b0 pre s) {k : Cause}
    (hk : s.started k = true) : s.issued k := by
  unfold RecvState.started at hk
  unfold RecvState.issued
  cases k with
  | data id =>
    have hlt : id < s.peerHead := of_decide_eq_true hk
    exact Nat.lt_of_lt_of_le hlt h.peer
  | flush n => exact of_decide_eq_true hk
  | cts id => cases hk
  | speed => cases hk

/-- The request that waits for a completion. -/
theorem RecvGood.waiting (h : RecvGood sh b0 pre s) {c : Cqe} (hc : c ∈ s.pend)
    (hk : c.cause.counted = true) : ∃ i < NET_IB_MAX_REQUESTS,
      (s.comm.base.reqs i).type = c.cause.reqType ∧ s.reqFor i = c.cause := by
  obtain ⟨hst, hrep, _⟩ := h.pending hc hk
  exact h.known _ (h.issued_of_started hst) hrep

/-! ## Completions move -/

theorem RecvGood.move (h : RecvGood sh b0 pre s) {sq cq : List Cqe} {call : Option TestCall}
    (hp : (sq ++ cq ++ inHand call).Perm (s.sq ++ s.cq ++ inHand s.call))
    (hlive : ∀ c, call = some c → c.r < NET_IB_MAX_REQUESTS ∧
      (s.comm.base.reqs c.r).type ≠ NCCL_NET_IB_REQ_UNUSED)
    (hhand : ∀ r i t w wcs, call = some ⟨r, .completions i t w wcs⟩ → ∀ c ∈ wcs, c.dev = i) :
    RecvGood sh b0 pre { s with sq, cq, call } := by
  have hpend : ({ s with sq, cq, call } : RecvState).pend.Perm s.pend := by
    unfold RecvState.pend
    have := hp.append_left s.data
    simpa only [List.append_assoc] using this
  exact
    { h with
      conserved := fun k hk d => by
        rw [hpend.countP_eq]
        exact h.conserved k hk d
      reported := fun k hk => by
        obtain ⟨h1, h2, h3⟩ := h.reported k hk
        exact ⟨h1, h2, fun d => (hpend.countP_eq _).trans (h3 d)⟩
      cqes := fun c hc => h.cqes c (hp.mem_iff.mp hc)
      call_live := hlive
      hand := hhand }

end

end net_ib.p2p
