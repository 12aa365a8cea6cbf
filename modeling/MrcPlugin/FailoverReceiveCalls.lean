-- The calls that open a request of a receive comm while devices fail. The QPs of a receive
-- are those in use at the time of the call, and each of them is one event on its device.
import MrcPlugin.FailoverReceiveReach

namespace net_ib.resiliency

open p2p recovery queues tallies

/-! ## ncclIbIrecv -/

/-- A call of `ncclIbIrecv` that opens request `i`. -/
structure IrecvOpens (sh : Shape) (comm : NcclIbRecvComm) (res : NcclIbResiliency) (i : Nat)
    (comm' : NcclIbRecvComm) : Prop where
  index : i < NET_IB_MAX_REQUESTS
  unused : (comm.base.reqs i).type = NCCL_NET_IB_REQ_UNUSED
  table : ActiveTable sh comm'.base res
  fifoHead : comm'.base.fifoHead = comm.base.fifoHead + 1
  split : comm'.base.splitDataOnQps = comm.base.splitDataOnQps
  context : comm'.base.resiliency = comm.base.resiliency
  scheme : comm'.base.recvMatchingScheme = comm.base.recvMatchingScheme
  recvReqs : comm'.recvReqs = Function.update comm.recvReqs (slotOf comm.base.fifoHead) (some i)
  prepost : comm'.prepostReceiveWorkRequests = comm.prepostReceiveWorkRequests
  recvWrId : comm.prepostReceiveWorkRequests = true → comm'.recvWrId = comm.recvWrId
  reqs : ∀ j, j ≠ i → comm'.base.reqs j = comm.base.reqs j
  type : (comm'.base.reqs i).type = NCCL_NET_IB_REQ_RECV
  id : (comm'.base.reqs i).id = comm.base.fifoHead
  tally : total sh.ndevs (comm'.base.reqs i).events = (reqQps sh comm.base : Int)

section
variable {sh : Shape} {comm : NcclIbRecvComm} {res : NcclIbResiliency}

/-- The CTS message has a QP in use. -/
theorem postFifo_no_error {req : NcclIbRequest} {slot : Nat} {e : Stop}
    (he : ncclIbPostFifo comm req slot = .error e) (h : ActiveTable sh comm.base res) : False := by
  have hdev : req.id % 2 ^ 32 % comm.base.ndevs < sh.ndevs := by
    rw [h.striped.ndevs]
    exact Nat.mod_lt _ sh.ndevs_pos
  have hlt : req.id % 2 ^ 32 % comm.base.ndevs < sh.nqps :=
    Nat.lt_of_lt_of_le hdev (Nat.le_trans sh.ndevs_le_nDataQps sh.nDataQps_le_nqps)
  obtain ⟨p, -, hactive, -⟩ := h.active _ hlt
  have hget : ncclIbCommBaseGetQpByIndex comm.base (req.id % 2 ^ 32 % comm.base.ndevs) 0 =
      .ok (some p) := by
    unfold ncclIbCommBaseGetQpByIndex
    rw [if_neg (Nat.not_le_of_lt (h.striped.ndevs ▸ hdev)), Nat.mul_zero, Nat.zero_add, hactive]
  have hqp : ncclIbRecvCommGetQpForCts comm.base req.id = .ok p := by
    unfold ncclIbRecvCommGetQpForCts
    simp only
    rw [hget]
    rfl
  unfold ncclIbPostFifo at he
  rw [hqp] at he
  cases he

/-- The QPs of a receive lie on devices of the comm. -/
theorem qpsOf_devs (h : ActiveTable sh comm.base res) (id : Nat) :
    ∀ d ∈ (qpsOf sh comm.base id).map (fun q => (comm.base.qps q.1).devIndex), d < sh.ndevs := by
  intro d hd
  obtain ⟨q, hq, rfl⟩ := List.mem_map.mp hd
  obtain ⟨i, -, rfl⟩ := List.mem_map.mp hq
  obtain ⟨p, hp, hactive, -⟩ := h.active _ (reqQpIndex_lt sh comm.base id i)
  simp only [hactive, Option.getD_some]
  rw [h.striped.devIndex p hp]
  exact Nat.mod_lt _ sh.ndevs_pos

theorem irecv_opens (h : ActiveTable sh comm.base res) (env : NetEnv) (bufs : List RecvBuffer) :
    (ncclIbIrecv env comm bufs).comm = comm ∨
      ∃ i, IrecvOpens sh comm res i (ncclIbIrecv env comm bufs).comm := by
  unfold ncclIbIrecv
  simp only
  split
  · exact .inl rfl
  split
  · exact .inl rfl
  split
  · exact .inl rfl
  rw [requestQps_eq h.striped h.isSome]
  simp only
  split
  · exact .inl rfl
  rename_i base i hget
  obtain ⟨hi, hunused, hbase⟩ := getRequest_cases hget
  have hqps : base.qps = comm.base.qps := by rw [hbase]
  have hfifo : base.fifoHead = comm.base.fifoHead := by rw [hbase]
  have hreqs : base.reqs = Function.update comm.base.reqs i (clearCounters (comm.base.reqs i)) := by
    rw [hbase]
  have hrest : base.splitDataOnQps = comm.base.splitDataOnQps ∧
      base.resiliency = comm.base.resiliency ∧
      base.recvMatchingScheme = comm.base.recvMatchingScheme := by
    rw [hbase]
    exact ⟨rfl, rfl, rfl⟩
  have htable : ∀ (reqs : Nat → NcclIbRequest) (fifoHead : Nat),
      ActiveTable sh { base with reqs, fifoHead } res := by
    intro reqs fifoHead
    refine h.same ?_
    rw [hbase]
    exact ⟨rfl, rfl, rfl, rfl, rfl, rfl, fun _ => rfl⟩
  clear hbase hget
  right
  split
  · rename_i e he
    exact (postFifo_no_error he (htable _ base.fifoHead)).elim
  refine ⟨i, ?_⟩
  exact
    { index := hi
      unused := hunused
      table := htable _ _
      fifoHead := by rw [← hfifo]
      split := hrest.1
      context := hrest.2.1
      scheme := hrest.2.2
      recvReqs := by rw [← hfifo]
      prepost := rfl
      recvWrId := fun hpre => by simp [hpre]
      reqs := fun j hj => by simp only [Function.update_of_ne hj, hreqs]
      type := by
        simp only [Function.update_self]
        exact (addEvents _ _).2.2.1
      id := by
        simp only [Function.update_self]
        exact (addEvents _ _).2.2.2.1.trans hfifo
      tally := by
        simp only [Function.update_self]
        have hlen : (qpsOf sh comm.base comm.base.fifoHead).length = reqQps sh comm.base := by
          unfold qpsOf
          rw [List.length_map, List.length_range]
        have hcount := total_count (qpsOf_devs h comm.base.fifoHead)
        rw [List.length_map, hlen] at hcount
        rw [← hcount]
        refine total_congr fun d _ => ?_
        unfold recvRequest
        rw [(addEvents _ _).1 d, hqps]
        -- The counters of an unused request are cleared.
        simp only [hreqs, Function.update_self, clearCounters, Int.zero_add] }

end

section
variable {sh : Shape} {x y : ReceiveState}

/-- Nothing of a group that is not posted yet has arrived. -/
theorem ReceiveGood.no_parts (h : ReceiveGood sh x) :
    partNumbers x.counted x.s.comm.base.fifoHead = [] := by
  rw [List.eq_nil_iff_forall_not_mem]
  intro p hp
  have hid := (h.within _ (h.counted_sub _ (mem_partNumbers.mp hp))).1
  exact Nat.lt_irrefl _ hid

/-- A receive is opened whose slot no receive that waits is in. -/
theorem ReceiveGood.opened (h : ReceiveGood sh x) {i : Nat} {comm : NcclIbRecvComm}
    (hopens : IrecvOpens sh x.s.comm x.s.res i comm) (hcall : x.call = none)
    (hwindow : ∀ j < NET_IB_MAX_REQUESTS, (x.s.comm.base.reqs j).type = NCCL_NET_IB_REQ_RECV →
      x.s.comm.base.fifoHead < (x.s.comm.base.reqs j).id + NET_IB_MAX_REQUESTS) :
    ReceiveGood sh { x with s := { x.s with comm } } := by
  have hqps : reqQps sh comm.base = reqQps sh x.s.comm.base := by
    unfold reqQps
    rw [hopens.split]
  have hused : ∀ j, (x.s.comm.base.reqs j).type ≠ NCCL_NET_IB_REQ_UNUSED → j ≠ i := by
    rintro j hj rfl
    exact hj hopens.unused
  have hflush : ∀ j, flushing comm j ↔ flushing x.s.comm j := by
    intro j
    unfold flushing
    by_cases hji : j = i
    · subst hji
      rw [hopens.type, hopens.unused]
      simp
    · rw [hopens.reqs j hji]
  refine
    { table := hopens.table
      context := hopens.context.trans h.context
      byId := hopens.scheme.trans h.byId
      recvWrId := (hopens.recvWrId h.prepost).trans h.recvWrId
      prepost := hopens.prepost.trans h.prepost
      kinds := fun j hj => ?_
      receives := fun j hj hrecv => ?_
      flushes := fun j hj hfl d => ?_
      known := fun k hk => ?_, reported := fun k hk => ?_
      books := h.books.mono fun j hj => (hflush j).mpr hj
      within := fun a ha => ?_
      own := h.own
      call_live := fun _ hc => by rw [hcall] at hc; cases hc
      hand := h.hand }
  · by_cases hji : j = i
    · subst hji
      exact .inr (.inl hopens.type)
    · simp only [hopens.reqs j hji]
      exact h.kinds j hj
  · by_cases hji : j = i
    · subst hji
      refine ⟨?_, ?_, ?_⟩
      · simp only [hopens.id, hopens.fifoHead]
        exact Nat.lt_succ_self _
      · simp only [hopens.id, hopens.recvReqs, Function.update_self]
      · simp only [hopens.id, hopens.tally, hqps]
        change _ = _ - ((partNumbers x.counted x.s.comm.base.fifoHead).length : Int)
        rw [h.no_parts]
        simp
    · simp only [hopens.reqs j hji] at hrecv
      have hok := h.receives j hj hrecv
      have hposted := hok.posted
      have hwin := hwindow j hj hrecv
      -- The slots differ, since the ids are less than 256 apart.
      have hslot : slotOf (x.s.comm.base.reqs j).id ≠ slotOf x.s.comm.base.fifoHead := by
        unfold slotOf
        unfold NET_IB_MAX_REQUESTS at hwin ⊢
        omega
      refine hok.kept (hopens.reqs j hji) (by rw [hopens.fifoHead]; exact Nat.le_succ _) ?_ hqps
      rw [hopens.recvReqs, Function.update_of_ne hslot]
  · have hfl := (hflush j).mp hfl
    have hji := hused j (by rw [hfl]; simp)
    simp only [hopens.reqs j hji]
    exact h.flushes j hj hfl d
  · simp only [hopens.fifoHead] at hk
    rcases Nat.lt_succ_iff_lt_or_eq.mp hk with hk | rfl
    · rcases h.known k hk with hrep | ⟨j, hj, htype, hid⟩
      · exact .inl hrep
      · have hji := hused j (by rw [htype]; simp)
        exact .inr ⟨j, hj, by simp only [hopens.reqs j hji]; exact ⟨htype, hid⟩⟩
    · exact .inr ⟨i, hopens.index, hopens.type, hopens.id⟩
  · obtain ⟨hlt, hparts⟩ := h.reported k hk
    simp only [hopens.fifoHead, hqps]
    exact ⟨Nat.lt_succ_of_lt hlt, hparts⟩
  · obtain ⟨hlt, hpart⟩ := h.within a ha
    simp only [hopens.fifoHead, hqps]
    exact ⟨Nat.lt_succ_of_lt hlt, hpart⟩

theorem ReceiveGood.irecv (h : ReceiveGood sh x) (env : NetEnv) (bufs : List RecvBuffer)
    (hcall : x.call = none)
    (hwindow : ∀ j < NET_IB_MAX_REQUESTS, (x.s.comm.base.reqs j).type = NCCL_NET_IB_REQ_RECV →
      x.s.comm.base.fifoHead < (x.s.comm.base.reqs j).id + NET_IB_MAX_REQUESTS) :
    ReceiveGood sh { x with s := { x.s with comm := (ncclIbIrecv env x.s.comm bufs).comm } } := by
  rcases irecv_opens h.table env bufs with hsame | ⟨i, hopens⟩
  · rw [hsame]
    exact h
  · exact h.opened hopens hcall hwindow

/-! ## ncclIbIflush -/

/-- The completions of the reads of a flush. -/
def flushReads (wrs : Nat → IbvSendWr) (ndevs : Nat) : List RecvCqe :=
  ((List.range ndevs).map (fun d => RecvPost.flush d (wrs d))).filterMap readCqe

theorem mem_flushReads {i ndevs : Nat} {wrs : Nat → IbvSendWr} {c : RecvCqe}
    (hwr : ∀ d, (wrs d).wr_id = i + NCCL_IB_FLUSH_REQ_WR_ID_OFFSET)
    (hc : c ∈ flushReads wrs ndevs) : c.flush = true ∧ c.data = none ∧ c.wc.success = true ∧
      c.wc.opcode = IBV_WC_RDMA_READ ∧ c.dev < ndevs ∧
      c.wc.wr_id = i + NCCL_IB_FLUSH_REQ_WR_ID_OFFSET := by
  obtain ⟨p, hp, hread⟩ := List.mem_filterMap.mp hc
  obtain ⟨d, hd, rfl⟩ := List.mem_map.mp hp
  cases hread
  exact ⟨rfl, rfl, rfl, rfl, List.mem_range.mp hd, hwr d⟩

/-- One read on every device. -/
theorem countP_flushReads {i ndevs : Nat} {wrs : Nat → IbvSendWr}
    (hwr : ∀ d, (wrs d).wr_id = i + NCCL_IB_FLUSH_REQ_WR_ID_OFFSET) (j d : Nat) :
    (flushReads wrs ndevs).countP (readOf j d) = if j = i ∧ d < ndevs then 1 else 0 := by
  have hlist : flushReads wrs ndevs = (List.range ndevs).map (fun d =>
      ⟨.IBV_WC_SUCCESS, ⟨true, (wrs d).wr_id, IBV_WC_RDMA_READ, 0, 0, 0⟩, d, true, none⟩) := by
    unfold flushReads
    rw [List.filterMap_map, ← List.filterMap_eq_map]
    rfl
  rw [hlist, List.countP_map]
  by_cases hji : j = i
  · subst hji
    have hcount : ((readOf j d) ∘ fun d => (⟨.IBV_WC_SUCCESS,
        ⟨true, (wrs d).wr_id, IBV_WC_RDMA_READ, 0, 0, 0⟩, d, true, none⟩ : RecvCqe)) =
        fun d' => d' == d := by
      funext d'
      simp [readOf, hwr, beq_eq_decide]
    rw [hcount, ← List.count_eq_countP, List.count_range]
    simp
  · rw [if_neg (fun hc => hji hc.1), List.countP_eq_zero]
    intro d' _ hread
    have hwr' : i + NCCL_IB_FLUSH_REQ_WR_ID_OFFSET = j + NCCL_IB_FLUSH_REQ_WR_ID_OFFSET ∧
        d' = d := by simpa [readOf, hwr] using hread
    omega

/-- An unused request has no read. -/
theorem ReceiveGood.no_reads (h : ReceiveGood sh x) {i : Nat}
    (hunused : (x.s.comm.base.reqs i).type = NCCL_NET_IB_REQ_UNUSED) (d : Nat) :
    x.queued.countP (readOf i d) = 0 := by
  rw [List.countP_eq_zero]
  intro c hc hread
  obtain ⟨hflush, hwr, -⟩ : c.flush = true ∧ c.wc.wr_id = i + NCCL_IB_FLUSH_REQ_WR_ID_OFFSET ∧
      c.dev = d := by simpa [readOf] using hread
  have hok := h.books.expected c hc
  unfold Expected at hok
  rw [if_pos hflush] at hok
  obtain ⟨j, -, hflushing, hj⟩ := hok.request
  obtain rfl : i = j := by omega
  rw [flushing, hunused] at hflushing
  cases hflushing

/-- A flush is opened. -/
theorem ReceiveGood.flushed (h : ReceiveGood sh x) {i : Nat} {req : NcclIbRequest}
    {wrs : Nat → IbvSendWr} (hcall : x.call = none) (hi : i < NET_IB_MAX_REQUESTS)
    (hunused : (x.s.comm.base.reqs i).type = NCCL_NET_IB_REQ_UNUSED)
    (htype : req.type = NCCL_NET_IB_REQ_FLUSH)
    (hevents : ∀ d, req.events d = if d < x.s.comm.base.ndevs then 1 else 0)
    (hwr : ∀ d, (wrs d).wr_id = i + NCCL_IB_FLUSH_REQ_WR_ID_OFFSET)
    (hy : y = { x with
      s := { x.s with comm := { x.s.comm.withReqs (Function.update x.s.comm.base.reqs i req) with
        flushQpsCreated := true } }
      reads := x.reads ++ flushReads wrs x.s.comm.base.ndevs }) : ReceiveGood sh y := by
  have hreqs : y.s.comm.base.reqs = Function.update x.s.comm.base.reqs i req := by
    rw [hy]
    rfl
  have hnew : y.s.comm.base.reqs i = req := by rw [hreqs, Function.update_self]
  have hkept : ∀ j, j ≠ i → y.s.comm.base.reqs j = x.s.comm.base.reqs j :=
    fun j hj => by rw [hreqs, Function.update_of_ne hj]
  have hused : ∀ j, (x.s.comm.base.reqs j).type ≠ NCCL_NET_IB_REQ_UNUSED → j ≠ i := by
    rintro j hj rfl
    exact hj hunused
  have hmono : ∀ j, flushing x.s.comm j → flushing y.s.comm j := by
    intro j hj
    rw [flushing, hkept j (hused j (by rw [hj]; simp))]
    exact hj
  have hndevs := h.table.striped.ndevs
  have hpend : y.pend = x.pend := by rw [hy]; rfl
  have hcounted : y.counted = x.counted := by rw [hy]; rfl
  have hreads : y.reads = x.reads ++ flushReads wrs x.s.comm.base.ndevs := by rw [hy]
  have hcount : ∀ j d, y.queued.countP (readOf j d) =
      x.queued.countP (readOf j d) + if j = i ∧ d < x.s.comm.base.ndevs then 1 else 0 := by
    intro j d
    unfold ReceiveState.queued
    rw [hreads, hpend, List.countP_append, List.countP_append, List.countP_append,
      countP_flushReads hwr]
    omega
  have hfifo : y.s.comm.base.fifoHead = x.s.comm.base.fifoHead := by rw [hy]; rfl
  have hqps : reqQps sh y.s.comm.base = reqQps sh x.s.comm.base := by rw [hy]; rfl
  have hnone : y.call = none := by rw [hy]; exact hcall
  refine
    { table := by rw [hy]; exact h.table.same ⟨rfl, rfl, rfl, rfl, rfl, rfl, fun _ => rfl⟩
      context := by rw [hy]; exact h.context
      byId := by rw [hy]; exact h.byId
      recvWrId := by rw [hy]; exact h.recvWrId
      prepost := by rw [hy]; exact h.prepost
      kinds := fun j hj => ?_
      receives := fun j hj hrecv => ?_
      flushes := fun j hj hfl d => ?_
      known := ?_
      reported := by rw [hfifo, hqps, hcounted, hy]; exact h.reported
      books := ?_
      within := by rw [hfifo, hqps, hy]; exact h.within
      own := by rw [hy]; exact h.own
      call_live := fun _ hc => by rw [hnone] at hc; cases hc
      hand := fun _ _ _ _ _ hc => by rw [hnone] at hc; cases hc }
  · by_cases hji : j = i
    · subst hji
      exact .inr (.inr (hnew ▸ htype))
    · rw [hkept j hji]
      exact h.kinds j hj
  · have hji : j ≠ i := by
      rintro rfl
      rw [hnew, htype] at hrecv
      cases hrecv
    rw [hkept j hji] at hrecv
    have hfound : y.s.comm.recvReqs = x.s.comm.recvReqs := by rw [hy]; rfl
    rw [hcounted]
    exact (h.receives j hj hrecv).kept (hkept j hji) hfifo.ge (by rw [hfound]) hqps
  · rw [hcount]
    by_cases hji : j = i
    · subst hji
      rw [hnew, hevents, h.no_reads hunused]
      by_cases hd : d < x.s.comm.base.ndevs <;> simp [hd]
    · rw [flushing, hkept j hji] at hfl
      rw [hkept j hji, if_neg (fun hc => hji hc.1), Nat.add_zero]
      exact h.flushes j hj hfl d
  · rw [hfifo]
    intro k hk
    rcases h.known k hk with hrep | ⟨j, hj, htype', hid⟩
    · left
      rw [hy]
      exact hrep
    · exact .inr ⟨j, hj, by rw [hkept j (hused j (by rw [htype']; simp))]; exact ⟨htype', hid⟩⟩
  · have hbooks := h.books.mono hmono
    rw [hreads, hpend, hcounted]
    refine ⟨fun c hc => ?_, fun c hc => ?_, ?_, ?_⟩
    · rw [List.append_assoc] at hc
      rcases List.mem_append.mp hc with hc | hc
      · exact hbooks.expected c (List.mem_append_left _ hc)
      rcases List.mem_append.mp hc with hc | hc
      · obtain ⟨hflush, hdata, hsuccess, hop, hdev, hwr'⟩ := mem_flushReads hwr hc
        unfold Expected
        rw [if_pos hflush]
        exact ⟨hdata, hsuccess, hop, hndevs ▸ hdev, i, hi, by rw [flushing, hnew, htype], hwr'⟩
      · exact hbooks.expected c (List.mem_append_right _ hc)
    · rcases List.mem_append.mp hc with hc | hc
      · exact hbooks.reads c hc
      · exact (mem_flushReads hwr hc).1
    · rw [hy]
      exact h.books.conserved
    · rw [hy]
      exact h.books.fresh

theorem ReceiveGood.iflush (h : ReceiveGood sh x) (bufs : List FlushBuffer)
    (hcall : x.call = none) :
    ReceiveGood sh { x with
      s := { x.s with comm := (ncclIbIflush x.s.comm bufs).comm }
      reads := x.reads ++ (ncclIbIflush x.s.comm bufs).posts.filterMap readCqe } := by
  generalize hout : ncclIbIflush x.s.comm bufs = out
  rcases iflush_cases hout with ⟨hposts, -, hframe, hreqs⟩ |
    ⟨i, req, wrs, hi, hunused, htype, hevents, hwr, rfl⟩
  · rw [hposts]
    refine h.move (receiveFrame_of hframe) (activeTable_of hframe h.table) ?_ rfl rfl ?_ rfl
      (List.Perm.refl _) h.callOk
    · exact fun j k => by simp only [hreqs]
    · exact List.append_nil _
  · exact h.flushed hcall hi hunused htype hevents hwr rfl

end

end net_ib.resiliency
