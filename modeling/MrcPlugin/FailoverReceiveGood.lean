-- The invariant of a receive comm while devices fail. The counters of a receive on the
-- single devices may be anything, but together they are the parts that are not counted
-- yet. A part that is not counted yet keeps its receive from being reported.
import MrcPlugin.FailoverReceive
import MrcPlugin.Lib.Tallies
import MrcPlugin.RecvCalls

namespace net_ib.resiliency

open p2p recovery queues tallies

/-! ## What a completion is -/

/-- The read of flush request `i` on device `d`. -/
def readOf (i d : Nat) (c : RecvCqe) : Bool :=
  c.flush && decide (c.wc.wr_id = i + NCCL_IB_FLUSH_REQ_WR_ID_OFFSET ∧ c.dev = d)

/-- The read of a flush that waits, where `flushing` are the requests that are flushes. -/
structure ReadOk (sh : Shape) (flushing : Nat → Prop) (c : RecvCqe) : Prop where
  data : c.data = none
  success : c.wc.success = true
  opcode : c.wc.opcode = IBV_WC_RDMA_READ
  dev : c.dev < sh.ndevs
  request : ∃ i < NET_IB_MAX_REQUESTS, flushing i ∧
    c.wc.wr_id = i + NCCL_IB_FLUSH_REQ_WR_ID_OFFSET

/-- The completion that part `a` brings. -/
structure ArrivalOk (sh : Shape) (a : DataPart) (c : RecvCqe) : Prop where
  data : c.data = some a
  status : c.status = .IBV_WC_SUCCESS
  success : c.wc.success = true
  opcode : c.wc.opcode = IBV_WC_RECV_RDMA_WITH_IMM
  wr_id : c.wc.wr_id = NCCL_IB_RECV_WR_ID_DUMMY
  imm : c.wc.imm_data = a.id % 2 ^ 32
  dev : c.dev < sh.ndevs

/-- What may be in a completion queue. -/
def Expected (sh : Shape) (flushing : Nat → Prop) (c : RecvCqe) : Prop :=
  if c.flush then ReadOk sh flushing c else (∃ a, ArrivalOk sh a c) ∨ Control sh c

/-- The completions that are not processed, with the parts that have arrived and those that
are counted: each part is once in a completion or once counted. -/
structure PartBooks (sh : Shape) (flushing : Nat → Prop) (reads pend : List RecvCqe)
    (arrived charged : List DataPart) : Prop where
  expected : ∀ c ∈ reads ++ pend, Expected sh flushing c
  reads : ∀ c ∈ reads, c.flush = true
  conserved : (pend.filterMap RecvCqe.data ++ charged).Perm arrived
  fresh : arrived.Nodup

section
variable {sh : Shape} {flushing flushing' : Nat → Prop} {reads pend pend' : List RecvCqe}
variable {arrived charged : List DataPart}

theorem Expected.mono {c : RecvCqe} (h : Expected sh flushing c)
    (hmono : ∀ i, flushing i → flushing' i) : Expected sh flushing' c := by
  unfold Expected at h ⊢
  split at h
  next hflush =>
    rw [if_pos hflush]
    obtain ⟨i, hi, hfl, hwr⟩ := h.request
    exact ⟨h.data, h.success, h.opcode, h.dev, i, hi, hmono i hfl, hwr⟩
  next hflush =>
    rw [if_neg hflush]
    exact h

theorem Expected.dev {c : RecvCqe} (h : Expected sh flushing c) : c.dev < sh.ndevs := by
  unfold Expected at h
  split at h
  · exact h.dev
  · rcases h with ⟨a, ha⟩ | hc
    · exact ha.dev
    · exact hc.dev

theorem PartBooks.mono (h : PartBooks sh flushing reads pend arrived charged)
    (hmono : ∀ i, flushing i → flushing' i) : PartBooks sh flushing' reads pend arrived charged :=
  ⟨fun c hc => (h.expected c hc).mono hmono, h.reads, h.conserved, h.fresh⟩

/-- Completions go from one queue to another. -/
theorem PartBooks.perm (h : PartBooks sh flushing reads pend arrived charged)
    (hp : pend'.Perm pend) : PartBooks sh flushing reads pend' arrived charged := by
  refine ⟨fun c hc => h.expected c ?_, h.reads, ?_, h.fresh⟩
  · exact (hp.append_left reads).subset hc
  · exact ((hp.filterMap _).append_right charged).trans h.conserved

/-- A completion that is not of a part comes. -/
theorem PartBooks.control (h : PartBooks sh flushing reads pend arrived charged) {c : RecvCqe}
    (hc : Control sh c) : PartBooks sh flushing reads (c :: pend) arrived charged := by
  refine ⟨fun c' hc' => ?_, h.reads, ?_, h.fresh⟩
  · rcases List.mem_append.mp hc' with hc' | hc'
    · exact h.expected c' (List.mem_append_left _ hc')
    rcases List.mem_cons.mp hc' with rfl | hc'
    · unfold Expected
      rw [hc.flush]
      exact .inr hc
    · exact h.expected c' (List.mem_append_right _ hc')
  · rw [List.filterMap_cons_none hc.data]
    exact h.conserved

/-- A part arrives. -/
theorem PartBooks.arrival (h : PartBooks sh flushing reads pend arrived charged) {a : DataPart}
    {c : RecvCqe} (hc : ArrivalOk sh a c) (hflush : c.flush = false) (hnew : a ∉ arrived) :
    PartBooks sh flushing reads (c :: pend) (arrived ++ [a]) charged := by
  refine ⟨fun c' hc' => ?_, h.reads, ?_, ?_⟩
  · rcases List.mem_append.mp hc' with hc' | hc'
    · exact h.expected c' (List.mem_append_left _ hc')
    rcases List.mem_cons.mp hc' with rfl | hc'
    · unfold Expected
      rw [hflush]
      exact .inl ⟨a, hc⟩
    · exact h.expected c' (List.mem_append_right _ hc')
  · rw [List.filterMap_cons_some hc.data, List.cons_append]
    exact (h.conserved.cons a).trans (List.perm_append_singleton a arrived).symm
  · exact List.nodup_append.mpr ⟨h.fresh, List.nodup_singleton a, fun b hb b' hb' hbb => by
      rw [List.mem_singleton.mp hb'] at hbb
      exact hnew (hbb ▸ hb)⟩

/-- The provider is done with a read. -/
theorem PartBooks.readDone (h : PartBooks sh flushing reads pend arrived charged) {j : Nat}
    {c : RecvCqe} (hc : reads[j]? = some c) (status : WcStatus) :
    PartBooks sh flushing (reads.eraseIdx j) ({ c with status } :: pend) arrived charged := by
  have hmem : c ∈ reads := List.mem_of_getElem? hc
  have hread := h.expected c (List.mem_append_left _ hmem)
  unfold Expected at hread
  rw [if_pos (h.reads c hmem)] at hread
  refine ⟨fun c' hc' => ?_, fun c' hc' => h.reads c' (List.mem_of_mem_eraseIdx hc'), ?_, h.fresh⟩
  · rcases List.mem_append.mp hc' with hc' | hc'
    · exact h.expected c' (List.mem_append_left _ (List.mem_of_mem_eraseIdx hc'))
    rcases List.mem_cons.mp hc' with rfl | hc'
    · unfold Expected
      rw [if_pos (h.reads c hmem)]
      exact ⟨hread.data, hread.success, hread.opcode, hread.dev, hread.request⟩
    · exact h.expected c' (List.mem_append_right _ hc')
  · have hdata : ({ c with status } : RecvCqe).data = none := hread.data
    rw [List.filterMap_cons_none hdata]
    exact h.conserved

/-- A completion of no part has been processed. -/
theorem PartBooks.dropped {c : RecvCqe}
    (h : PartBooks sh flushing reads (c :: pend) arrived charged) (hc : c.data = none) :
    PartBooks sh flushing reads pend arrived charged := by
  refine ⟨fun c' hc' => h.expected c' ?_, h.reads, ?_, h.fresh⟩
  · rcases List.mem_append.mp hc' with hc' | hc'
    · exact List.mem_append_left _ hc'
    · exact List.mem_append_right _ (List.mem_cons_of_mem c hc')
  · have hconserved := h.conserved
    rw [List.filterMap_cons_none hc] at hconserved
    exact hconserved

/-- A part has been counted. -/
theorem PartBooks.counted {c : RecvCqe} {a : DataPart}
    (h : PartBooks sh flushing reads (c :: pend) arrived charged) (hc : c.data = some a) :
    PartBooks sh flushing reads pend arrived (charged ++ [a]) := by
  refine ⟨fun c' hc' => h.expected c' ?_, h.reads, ?_, h.fresh⟩
  · rcases List.mem_append.mp hc' with hc' | hc'
    · exact List.mem_append_left _ hc'
    · exact List.mem_append_right _ (List.mem_cons_of_mem c hc')
  · have hconserved := h.conserved
    rw [List.filterMap_cons_some hc, List.cons_append] at hconserved
    refine List.Perm.trans ?_ hconserved
    rw [← List.append_assoc]
    exact List.perm_append_singleton a _

end

/-! ## The parts of one receive -/

/-- The numbers of the parts of group `id`. -/
def partNumbers (l : List DataPart) (id : Nat) : List Nat :=
  (l.filter fun a => a.id = id).map DataPart.part

theorem mem_partNumbers {l : List DataPart} {id p : Nat} : p ∈ partNumbers l id ↔ ⟨id, p⟩ ∈ l := by
  unfold partNumbers
  rw [List.mem_map]
  constructor
  · rintro ⟨⟨id', p'⟩, ha, rfl⟩
    obtain ⟨hmem, hid⟩ := List.mem_filter.mp ha
    obtain rfl : id' = id := by simpa using hid
    exact hmem
  · intro h
    exact ⟨⟨id, p⟩, List.mem_filter.mpr ⟨h, by simp⟩, rfl⟩

theorem nodup_partNumbers {l : List DataPart} (h : l.Nodup) (id : Nat) :
    (partNumbers l id).Nodup := by
  refine List.Nodup.map_on ?_ (h.filter _)
  rintro ⟨ia, pa⟩ ha ⟨ib, pb⟩ hb hab
  have hia : ia = id := by simpa using (List.mem_filter.mp ha).2
  have hib : ib = id := by simpa using (List.mem_filter.mp hb).2
  rw [hia, hib]
  exact congrArg _ hab

theorem length_partNumbers_append (l : List DataPart) (a : DataPart) (id : Nat) :
    (partNumbers (l ++ [a]) id).length =
      (partNumbers l id).length + if a.id = id then 1 else 0 := by
  unfold partNumbers
  rw [List.filter_append, List.map_append, List.length_append]
  by_cases hid : a.id = id <;> simp [hid]

/-! ## The invariant -/

/-- The requests that are flushes. -/
def flushing (comm : NcclIbRecvComm) (i : Nat) : Prop :=
  (comm.base.reqs i).type = NCCL_NET_IB_REQ_FLUSH

/-- The parts that are counted. -/
def ReceiveState.counted (x : ReceiveState) : List DataPart := x.charged.map Prod.fst

/-- The completions that are not processed, those of posted reads included. -/
def ReceiveState.queued (x : ReceiveState) : List RecvCqe := x.reads ++ x.pend

/-- Request `i` is a receive that waits. -/
structure ReceiveOk (sh : Shape) (comm : NcclIbRecvComm) (counted : List DataPart) (i : Nat) :
    Prop where
  posted : (comm.base.reqs i).id < comm.base.fifoHead
  found : comm.recvReqs (slotOf (comm.base.reqs i).id) = some i
  tally : total sh.ndevs (comm.base.reqs i).events =
    (reqQps sh comm.base : Int) - (partNumbers counted (comm.base.reqs i).id).length

/-- A receive waits on while its request and its slot are left alone. -/
theorem ReceiveOk.kept {sh : Shape} {comm comm' : NcclIbRecvComm} {counted : List DataPart}
    {i : Nat} (h : ReceiveOk sh comm counted i) (hreq : comm'.base.reqs i = comm.base.reqs i)
    (hfifo : comm.base.fifoHead ≤ comm'.base.fifoHead)
    (hslot : comm'.recvReqs (slotOf (comm.base.reqs i).id) =
      comm.recvReqs (slotOf (comm.base.reqs i).id))
    (hqps : reqQps sh comm'.base = reqQps sh comm.base) : ReceiveOk sh comm' counted i where
  posted := by
    rw [hreq]
    exact Nat.lt_of_lt_of_le h.posted hfifo
  found := by
    rw [hreq, hslot]
    exact h.found
  tally := by
    rw [hreq, hqps]
    exact h.tally

structure ReceiveGood (sh : Shape) (x : ReceiveState) : Prop where
  table : ActiveTable sh x.s.comm.base x.s.res
  context : x.s.comm.base.resiliency = true
  byId : x.s.comm.base.recvMatchingScheme = BY_ID
  recvWrId : x.s.comm.recvWrId = NCCL_IB_RECV_WR_ID_DUMMY
  prepost : x.s.comm.prepostReceiveWorkRequests = true
  kinds : ∀ i < NET_IB_MAX_REQUESTS, (x.s.comm.base.reqs i).type = NCCL_NET_IB_REQ_UNUSED ∨
    (x.s.comm.base.reqs i).type = NCCL_NET_IB_REQ_RECV ∨
    (x.s.comm.base.reqs i).type = NCCL_NET_IB_REQ_FLUSH
  receives : ∀ i < NET_IB_MAX_REQUESTS, (x.s.comm.base.reqs i).type = NCCL_NET_IB_REQ_RECV →
    ReceiveOk sh x.s.comm x.counted i
  flushes : ∀ i < NET_IB_MAX_REQUESTS, flushing x.s.comm i → ∀ d,
    (x.s.comm.base.reqs i).events d = x.queued.countP (readOf i d) ∧
      x.queued.countP (readOf i d) ≤ 1
  known : ∀ k < x.s.comm.base.fifoHead, k ∈ x.reported ∨
    ∃ i < NET_IB_MAX_REQUESTS, (x.s.comm.base.reqs i).type = NCCL_NET_IB_REQ_RECV ∧
      (x.s.comm.base.reqs i).id = k
  reported : ∀ k ∈ x.reported, k < x.s.comm.base.fifoHead ∧
    (partNumbers x.counted k).length = reqQps sh x.s.comm.base
  books : PartBooks sh (flushing x.s.comm) x.reads x.pend x.arrived x.counted
  within : ∀ a ∈ x.arrived, a.id < x.s.comm.base.fifoHead ∧ a.part < reqQps sh x.s.comm.base
  own : ∀ p ∈ x.charged, p.2 = some p.1.id
  call_live : ∀ call, x.call = some call → call.r < NET_IB_MAX_REQUESTS ∧
    (x.s.comm.base.reqs call.r).type ≠ NCCL_NET_IB_REQ_UNUSED
  hand : ∀ r i t w wcs, x.call = some ⟨r, .completions i t w wcs⟩ → ∀ c ∈ wcs, c.dev = i

section
variable {sh : Shape} {x y : ReceiveState}

theorem ReceiveGood.counted_sub (h : ReceiveGood sh x) : ∀ a ∈ x.counted, a ∈ x.arrived :=
  fun _ ha => h.books.conserved.subset (List.mem_append_right _ ha)

theorem ReceiveGood.counted_nodup (h : ReceiveGood sh x) : x.counted.Nodup :=
  (List.nodup_append.mp (h.books.conserved.nodup_iff.mpr h.books.fresh)).2.1

theorem ReceiveGood.parts_below (h : ReceiveGood sh x) (id : Nat) :
    ∀ p ∈ partNumbers x.counted id, p < reqQps sh x.s.comm.base := by
  intro p hp
  exact (h.within ⟨id, p⟩ (h.counted_sub _ (mem_partNumbers.mp hp))).2

/-- Not more parts are counted than there are. -/
theorem ReceiveGood.parts_le (h : ReceiveGood sh x) (id : Nat) :
    (partNumbers x.counted id).length ≤ reqQps sh x.s.comm.base :=
  length_le_of_below (nodup_partNumbers h.counted_nodup id) (h.parts_below id)

/-- A part that is still in a completion is of a receive that waits, and the slot of its
immediate value leads there. -/
theorem ReceiveGood.owner (h : ReceiveGood sh x) {a : DataPart}
    (ha : a ∈ x.pend.filterMap RecvCqe.data) :
    ∃ i < NET_IB_MAX_REQUESTS, (x.s.comm.base.reqs i).type = NCCL_NET_IB_REQ_RECV ∧
      (x.s.comm.base.reqs i).id = a.id ∧ x.s.comm.recvReqs (slotOf a.id) = some i := by
  have harrived : a ∈ x.arrived := h.books.conserved.subset (List.mem_append_left _ ha)
  obtain ⟨hid, hpart⟩ := h.within a harrived
  rcases h.known a.id hid with hdone | ⟨i, hi, htype, hi'⟩
  · -- All parts of a reported receive are counted, and `a` is one more.
    exfalso
    have hnodup := h.books.conserved.nodup_iff.mpr h.books.fresh
    have hnot : a ∉ x.counted := fun hmem =>
      (List.nodup_append.mp hnodup).2.2 a ha a hmem rfl
    have hmem := all_below (nodup_partNumbers h.counted_nodup a.id) (h.parts_below a.id)
      (h.reported a.id hdone).2.ge a.part hpart
    exact hnot (mem_partNumbers.mp hmem)
  · refine ⟨i, hi, htype, hi', ?_⟩
    rw [← hi']
    exact (h.receives i hi htype).found

/-- A request is complete when its counters together are zero. -/
theorem requestIsComplete_iff {res : NcclIbResiliency} {req : NcclIbRequest}
    (hn : res.ndevs ≤ NCCL_IB_MAX_DEVS_PER_NIC) (h : 0 ≤ total res.ndevs req.events) :
    requestIsComplete res req = true ↔ total res.ndevs req.events = 0 := by
  have hsettled := settled_iff h
  unfold requestIsComplete ncclIbRequestIsComplete ncclIbResiliencyRequestIsComplete
  rw [Bool.or_eq_true, Bool.or_eq_true, decide_eq_true_eq, decide_eq_true_eq]
  constructor
  · rintro (hall | hrest)
    · refine Finset.sum_eq_zero fun d hd => ?_
      have hlt : d < NCCL_IB_MAX_DEVS_PER_NIC :=
        Nat.lt_of_lt_of_le (Finset.mem_range.mp hd) hn
      exact of_decide_eq_true (List.all_eq_true.mp hall d (List.mem_range.mpr hlt))
    · exact hsettled.mp hrest
  · intro hzero
    exact .inr (hsettled.mpr hzero)

theorem ReceiveGood.res_ndevs (h : ReceiveGood sh x) : x.s.res.ndevs = sh.ndevs := h.table.ndevs

/-- A receive is complete when all its parts are counted. -/
theorem ReceiveGood.complete_iff (h : ReceiveGood sh x) {i : Nat} (hi : i < NET_IB_MAX_REQUESTS)
    (htype : (x.s.comm.base.reqs i).type = NCCL_NET_IB_REQ_RECV) :
    requestIsComplete x.s.res (x.s.comm.base.reqs i) = true ↔
      (partNumbers x.counted (x.s.comm.base.reqs i).id).length = reqQps sh x.s.comm.base := by
  have htally := (h.receives i hi htype).tally
  have hle := h.parts_le (x.s.comm.base.reqs i).id
  have hn : x.s.res.ndevs ≤ NCCL_IB_MAX_DEVS_PER_NIC := by
    rw [h.res_ndevs]
    exact sh.ndevs_le
  rw [requestIsComplete_iff hn (by rw [h.res_ndevs]; omega), h.res_ndevs]
  omega

/-- A flush that is complete has no read left. -/
theorem ReceiveGood.flush_complete (h : ReceiveGood sh x) {i : Nat} (hi : i < NET_IB_MAX_REQUESTS)
    (hflush : flushing x.s.comm i)
    (hdone : requestIsComplete x.s.res (x.s.comm.base.reqs i) = true) :
    ∀ d < sh.ndevs, x.queued.countP (readOf i d) = 0 := by
  have hnonneg : ∀ d < sh.ndevs, 0 ≤ (x.s.comm.base.reqs i).events d := by
    intro d _
    rw [(h.flushes i hi hflush d).1]
    exact Int.natCast_nonneg _
  have hn : x.s.res.ndevs ≤ NCCL_IB_MAX_DEVS_PER_NIC := by
    rw [h.res_ndevs]
    exact sh.ndevs_le
  have htotal : 0 ≤ total x.s.res.ndevs (x.s.comm.base.reqs i).events := by
    rw [h.res_ndevs]
    exact Finset.sum_nonneg fun d hd => hnonneg d (Finset.mem_range.mp hd)
  rw [requestIsComplete_iff hn htotal, h.res_ndevs, total_eq_zero_iff hnonneg] at hdone
  intro d hd
  have hzero := hdone d hd
  rw [(h.flushes i hi hflush d).1] at hzero
  exact_mod_cast hzero

end

end net_ib.resiliency
