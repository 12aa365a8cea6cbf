-- The invariant of a send comm: which send every slot entry stands for, how the
-- counters follow, and where the completions of every posted group are. One
-- lemma for each change says that it keeps the invariant.
import MrcPlugin.PostedSends
import MrcPlugin.Rows

namespace net_ib.p2p

open queues counts

/-! ## What does not change -/

/-- The part of a comm base that no call on the comm changes. -/
structure SameBase (b0 b : NcclIbNetCommBase) : Prop where
  ndevs : b.ndevs = b0.ndevs
  qps : b.qps = b0.qps
  activeQps : b.activeQps = b0.activeQps
  nqps : b.nqps = b0.nqps
  nDataQps : b.nDataQps = b0.nDataQps
  splitDataOnQps : b.splitDataOnQps = b0.splitDataOnQps
  resiliency : b.resiliency = b0.resiliency
  recvMatchingScheme : b.recvMatchingScheme = b0.recvMatchingScheme
  ready : b.ready = b0.ready
  fatalErrorCount : b.fatalErrorCount = b0.fatalErrorCount

/-- The base of a comm of shape `sh` with all its QPs in use and no resiliency
context. -/
structure PlainBase (sh : Shape) (b : NcclIbNetCommBase) : Prop where
  striped : Striped sh b
  active : ∀ q < sh.nqps, b.activeQps q = some q
  resiliency : b.resiliency = false

section
variable {sh : Shape} {b0 b : NcclIbNetCommBase}

theorem SameBase.refl (b : NcclIbNetCommBase) : SameBase b b :=
  ⟨rfl, rfl, rfl, rfl, rfl, rfl, rfl, rfl, rfl, rfl⟩

theorem SameBase.trans {b1 b2 : NcclIbNetCommBase} (h : SameBase b0 b1) (h' : SameBase b1 b2) :
    SameBase b0 b2 :=
  ⟨h'.1.trans h.1, h'.2.trans h.2, h'.3.trans h.3, h'.4.trans h.4, h'.5.trans h.5,
    h'.6.trans h.6, h'.7.trans h.7, h'.8.trans h.8, h'.9.trans h.9, h'.10.trans h.10⟩

theorem PlainBase.same (h : PlainBase sh b0) (hb : SameBase b0 b) : PlainBase sh b := by
  obtain ⟨⟨h1, h2, h3, h4, h5⟩, hact, hres⟩ := h
  refine ⟨⟨?_, ?_, ?_, ?_, ?_⟩, ?_, ?_⟩
  · rw [hb.ndevs, h1]
  · rw [hb.nqps, h2]
  · rw [hb.nDataQps, h3]
  · rw [hb.qps]
    exact h4
  · rw [hb.qps]
    exact h5
  · rw [hb.activeQps]
    exact hact
  · rw [hb.resiliency, hres]

theorem PlainBase.isSome (h : PlainBase sh b) : ∀ q < sh.nqps, (b.activeQps q).isSome := by
  intro q hq
  rw [h.active q hq]
  rfl

theorem SameBase.reqQps (hb : SameBase b0 b) : reqQps sh b = reqQps sh b0 := by
  unfold net_ib.reqQps
  rw [hb.splitDataOnQps]

theorem SameBase.qpsOf (hb : SameBase b0 b) (id : Nat) : qpsOf sh b id = qpsOf sh b0 id := by
  unfold net_ib.qpsOf reqQpIndex
  rw [hb.reqQps, hb.activeQps]

/-- With all QPs in use, the QP of a part is the one at its index. -/
theorem PlainBase.qpsOf_fst (h : PlainBase sh b) {id : Nat} {q : Nat × Nat}
    (hq : q ∈ net_ib.qpsOf sh b id) : q.1 = q.2 ∧ q.1 < sh.nqps := by
  obtain ⟨i, _, rfl⟩ := List.mem_map.mp hq
  have hlt := reqQpIndex_lt sh b id i
  have hget : (b.activeQps (reqQpIndex sh b id i)).getD 0 = reqQpIndex sh b id i := by
    rw [h.active _ hlt]
    rfl
  exact ⟨hget, Nat.lt_of_le_of_lt (Nat.le_of_eq hget) hlt⟩

end

/-! ## The completions of a group -/

/-- The completion of group `id` on a QP. -/
def groupCqe (b : NcclIbNetCommBase) (n id : Nat) (q : Nat × Nat) : Cqe :=
  { wc := ⟨true, multiSendWrId (slotOf id) (n - 1), IBV_WC_RDMA_WRITE, 0, 0, (b.qps q.1).qpn⟩
    qp := q.1
    dev := (b.qps q.1).devIndex
    flush := false
    cause := .data id }

/-- All completions that group `id` will have. -/
def groupCqes (sh : Shape) (b : NcclIbNetCommBase) (g : Nat → List NcclIbSendFifo) (id : Nat) :
    List Cqe :=
  (qpsOf sh b id).map (groupCqe b (g id).length id)

/-- The completion of a group on a device. -/
def isFor (id d : Nat) (c : Cqe) : Bool := c.cause = .data id ∧ c.dev = d

section
variable {sh : Shape} {b : NcclIbNetCommBase} {g : Nat → List NcclIbSendFifo}

theorem groupCqes_cause {id : Nat} {c : Cqe} (hc : c ∈ groupCqes sh b g id) :
    c.cause = .data id := by
  obtain ⟨q, _, rfl⟩ := List.mem_map.mp hc
  rfl

theorem groupCqes_dev (hb : PlainBase sh b) {id : Nat} {c : Cqe} (hc : c ∈ groupCqes sh b g id) :
    c.dev < sh.ndevs := by
  obtain ⟨q, hq, rfl⟩ := List.mem_map.mp hc
  obtain ⟨_, hlt⟩ := hb.qpsOf_fst hq
  show (b.qps q.1).devIndex < sh.ndevs
  rw [hb.striped.devIndex _ hlt]
  exact Nat.mod_lt _ sh.ndevs_pos

theorem groupCqes_ne_nil (id : Nat) : groupCqes sh b g id ≠ [] := by
  have := reqQps_pos sh b
  intro h
  have hlen := congrArg List.length h
  simp [groupCqes, qpsOf] at hlen
  omega

/-- In the completions of all groups, the ones for `id` are those of group `id`. -/
theorem countP_isFor (id d n : Nat) :
    ((List.range n).flatMap (groupCqes sh b g)).countP (isFor id d) =
      if id < n then (groupCqes sh b g id).countP (isFor id d) else 0 := by
  apply countP_parts
  intro j c hc hfor
  rw [isFor, decide_eq_true_iff] at hfor
  have := (groupCqes_cause hc).symm.trans hfor.1
  exact Cause.data.inj this

theorem mem_groups {n : Nat} {c : Cqe} (hc : c ∈ (List.range n).flatMap (groupCqes sh b g)) :
    ∃ id < n, c ∈ groupCqes sh b g id := by
  obtain ⟨id, hid, hc⟩ := List.mem_flatMap.mp hc
  exact ⟨id, List.mem_range.mp hid, hc⟩

end

/-! ## The invariant -/

/-- The completions that are not processed yet. -/
def SendState.pend (s : SendState) : List Cqe := s.sq ++ s.cq ++ inHand s.call

/-- Whether an entry stands for a send that is not reported done. -/
def SendState.isOpen (s : SendState) (slot r : Nat) : Bool :=
  match s.owner slot r with
  | none => false
  | some o => o.serial ∉ s.reported

structure SendGood (sh : Shape) (b0 : NcclIbNetCommBase) (g : Nat → List NcclIbSendFifo)
    (s : SendState) : Prop where
  plain : PlainBase sh b0
  same : SameBase b0 s.comm.base
  /-- An element of the FIFO is blank or was written by a receive group of its slot. -/
  cts : ∀ slot r, (s.comm.ctsFifo slot r).idx = 0 ∨
    ∃ k, slotOf k = slot ∧ (g k)[r]? = some (s.comm.ctsFifo slot r)
  entry : ∀ slot r, s.owner slot r = none ↔ s.comm.sendReqs slot r = none
  owner : ∀ slot r o, s.owner slot r = some o → slotOf o.id = slot ∧
    o.id ≤ s.comm.base.fifoHead ∧ r < (g o.id).length ∧ o.serial < s.nextSerial
  one_id : ∀ slot r r' o o', s.owner slot r = some o → s.owner slot r' = some o' → o.id = o'.id
  one_entry : ∀ slot r slot' r' o o', s.owner slot r = some o → s.owner slot' r' = some o' →
    o.serial = o'.serial → slot = slot' ∧ r = r'
  open_req : ∀ slot r o, s.owner slot r = some o → o.serial ∉ s.reported →
    ∃ i < NET_IB_MAX_REQUESTS, s.comm.sendReqs slot r = some i ∧ s.serialOf i = o.serial ∧
      (s.comm.base.reqs i).type = NCCL_NET_IB_REQ_SEND ∧ (s.comm.base.reqs i).id = o.id ∧
      (s.comm.base.reqs i).nreqs = (g o.id).length
  live : ∀ i < NET_IB_MAX_REQUESTS, (s.comm.base.reqs i).type ≠ NCCL_NET_IB_REQ_UNUSED →
    (s.comm.base.reqs i).type = NCCL_NET_IB_REQ_SEND ∧ s.serialOf i ∉ s.reported ∧
    ∃ r, s.comm.sendReqs (slotOf (s.comm.base.reqs i).id) r = some i ∧
      s.owner (slotOf (s.comm.base.reqs i).id) r = some ⟨(s.comm.base.reqs i).id, s.serialOf i⟩
  cnt : ∀ slot, s.comm.sendReqsCnt slot =
    (List.range NCCL_NET_IB_MAX_RECVS).countP (s.isOpen slot)
  row_open : ∀ slot r o, s.owner slot r = some o →
    ∃ r' o', s.owner slot r' = some o' ∧ o'.serial ∉ s.reported
  /-- A posted group has all its entries. -/
  full : ∀ slot r o, s.owner slot r = some o → o.id < s.comm.base.fifoHead →
    ∀ r' < (g o.id).length, (s.owner slot r').isSome
  /-- No send of the current group is done. -/
  current : ∀ slot r o, s.owner slot r = some o → o.id = s.comm.base.fifoHead →
    o.serial ∉ s.reported
  posted_pos : ∀ id < s.comm.base.fifoHead, 0 < (g id).length
  reported_lt : ∀ n ∈ s.reported, n < s.nextSerial
  reported_nodup : s.reported.Nodup
  events : ∀ i < NET_IB_MAX_REQUESTS, (s.comm.base.reqs i).type ≠ NCCL_NET_IB_REQ_UNUSED →
    ∀ d, (s.comm.base.reqs i).events d =
      ((groupCqes sh b0 g (s.comm.base.reqs i).id).countP (isFor (s.comm.base.reqs i).id d) : Int) -
        s.processed.countP (isFor (s.comm.base.reqs i).id d)
  /-- Every completion of a posted group is somewhere, once. -/
  conserved : (s.pend ++ s.processed).Perm
    ((List.range s.comm.base.fifoHead).flatMap (groupCqes sh b0 g))
  /-- No send of a group is done before all its completions are processed. -/
  pend_open : ∀ c ∈ s.pend, ∀ id, c.cause = .data id → ∀ r < (g id).length,
    ∃ o, s.owner (slotOf id) r = some o ∧ o.id = id ∧ o.serial ∉ s.reported
  call_live : ∀ call, s.call = some call → call.r < NET_IB_MAX_REQUESTS ∧
    (s.comm.base.reqs call.r).type ≠ NCCL_NET_IB_REQ_UNUSED
  hand : ∀ r i t w wcs, s.call = some ⟨r, .completions i t w wcs⟩ → ∀ c ∈ wcs, c.dev = i

section
variable {sh : Shape} {b0 : NcclIbNetCommBase} {g : Nat → List NcclIbSendFifo} {s : SendState}

theorem SendGood.mem_group (h : SendGood sh b0 g s) {c : Cqe} (hc : c ∈ s.pend) :
    ∃ id < s.comm.base.fifoHead, c ∈ groupCqes sh b0 g id :=
  mem_groups (h.conserved.mem_iff.mp (List.mem_append_left _ hc))

/-- The completions of a group on a device are processed, or they are somewhere. -/
theorem SendGood.count_pend (h : SendGood sh b0 g s) (id d : Nat) :
    s.pend.countP (isFor id d) + s.processed.countP (isFor id d) =
      if id < s.comm.base.fifoHead then (groupCqes sh b0 g id).countP (isFor id d) else 0 := by
  rw [← List.countP_append, h.conserved.countP_eq, countP_isFor]

/-- The rows of the comm. -/
def SendState.rows (s : SendState) : Rows where
  fifoHead := s.comm.base.fifoHead
  reqs := s.comm.base.reqs
  sendReqs := s.comm.sendReqs
  cnt := s.comm.sendReqsCnt
  owner := s.owner
  serialOf := s.serialOf
  nextSerial := s.nextSerial
  reported := s.reported

theorem SendGood.rows (h : SendGood sh b0 g s) : RowsGood (groupSize g) s.rows where
  entry := h.entry
  owner := h.owner
  one_entry := h.one_entry
  open_req := h.open_req
  live := h.live
  cnt := h.cnt
  row_open := h.row_open
  full slot r o ho hlt r' hr' := by
    obtain ⟨o', ho'⟩ := Option.isSome_iff_exists.mp (h.full slot r o ho hlt r' hr')
    exact ⟨o', ho', Nat.le_of_eq (h.one_id _ _ _ _ _ ho' ho)⟩
  current := h.current
  posted_pos := h.posted_pos
  reported_lt := h.reported_lt
  reported_nodup := h.reported_nodup

/-- The group of a completion that is not processed is open. -/
theorem SendGood.openGroup (h : SendGood sh b0 g s) {c : Cqe} (hc : c ∈ s.pend) {id : Nat}
    (hcause : c.cause = .data id) : s.rows.OpenGroup (groupSize g) id :=
  h.pend_open c hc id hcause

/-! ## Completions move -/

/-- The completions may move between the queues and the hand of the test. -/
theorem SendGood.move (h : SendGood sh b0 g s) {sq cq : List Cqe} {call : Option TestCall}
    (hp : (sq ++ cq ++ inHand call).Perm s.pend)
    (hlive : ∀ c, call = some c → c.r < NET_IB_MAX_REQUESTS ∧
      (s.comm.base.reqs c.r).type ≠ NCCL_NET_IB_REQ_UNUSED)
    (hhand : ∀ r i t w wcs, call = some ⟨r, .completions i t w wcs⟩ → ∀ c ∈ wcs, c.dev = i) :
    SendGood sh b0 g { s with sq, cq, call } :=
  { h with
    conserved := (hp.append_right _).trans h.conserved
    pend_open := fun c hc => h.pend_open c (hp.mem_iff.mp hc)
    call_live := hlive
    hand := hhand }

theorem good_complete (h : SendGood sh b0 g s) {q : Nat} {c : Cqe} {sq : List Cqe}
    (hpop : popFirst (fun c => c.qp = q) s.sq = some (c, sq)) :
    SendGood sh b0 g { s with sq, cq := s.cq ++ [c] } := by
  refine h.move ?_ h.call_live h.hand
  have hperm := popFirst_perm hpop
  rw [List.perm_iff_count]
  intro x
  have := hperm.count_eq x
  simp only [SendState.pend, List.count_append, List.count_cons, List.count_nil] at this ⊢
  omega

theorem good_testBegin (h : SendGood sh b0 g s) {r : Nat} (hcall : s.call = none)
    (hr : r < NET_IB_MAX_REQUESTS) (hlive : (s.comm.base.reqs r).type ≠ NCCL_NET_IB_REQ_UNUSED) :
    SendGood sh b0 g { s with call := some ⟨r, .top⟩ } := by
  refine h.move ?_ ?_ ?_
  · simp only [SendState.pend, hcall, inHand]
    exact List.Perm.refl _
  · intro c hc
    cases hc
    exact ⟨hr, hlive⟩
  · intro r i t w wcs hc
    cases hc

/-- The call goes on, or ends, with no completion in hand. -/
theorem good_go (h : SendGood sh b0 g s) {call : TestCall} (hcall : s.call = some call)
    (hhand : inHand (some call) = []) (next : Option TestPc)
    (hnext : ∀ pc, next = some pc → inHand (some ⟨call.r, pc⟩) = []) :
    SendGood sh b0 g { s with call := next.map (fun pc => ⟨call.r, pc⟩) } := by
  have hempty : inHand (next.map (fun pc => (⟨call.r, pc⟩ : TestCall))) = [] := by
    cases hn : next with
    | none => rfl
    | some pc => exact hnext pc hn
  refine h.move ?_ ?_ ?_
  · rw [hempty, SendState.pend, hcall, hhand]
  · intro c hc
    cases hn : next with
    | none => rw [hn] at hc; cases hc
    | some pc =>
      rw [hn] at hc
      cases hc
      exact h.call_live call hcall
  · intro r i t w wcs hc c hmem
    rw [hc] at hempty
    have : wcs = [] := hempty
    rw [this] at hmem
    cases hmem

/-- A poll takes completions of its device out of the queue. -/
theorem good_poll (h : SendGood sh b0 g s) {r i t : Nat} (hcall : s.call = some ⟨r, .device i t⟩)
    (t' n w : Nat) (flush : Bool) :
    SendGood sh b0 g { s with
      cq := (popUpTo (fun c => c.dev = i && c.flush == flush) n s.cq).2
      call := some ⟨r, .completions i t' w
        (popUpTo (fun c => c.dev = i && c.flush == flush) n s.cq).1⟩ } := by
  have hperm := popUpTo_perm (fun c : Cqe => c.dev = i && c.flush == flush) s.cq n
  have hfits := popUpTo_fits (fun c : Cqe => c.dev = i && c.flush == flush) s.cq n
  refine h.move ?_ ?_ ?_
  · simp only [SendState.pend, hcall, inHand, List.append_nil, List.append_assoc]
    exact (List.perm_append_comm.trans hperm.symm).append_left _
  · intro c hc
    cases hc
    exact h.call_live ⟨r, .device i t⟩ hcall
  · intro r' i' t'' w' wcs hc c hmem
    cases hc
    have := hfits c hmem
    simp at this
    exact this.1

/-! ## A completion is charged -/

/-- The low bytes of the work request id of a group: the slot, once or twice. -/
theorem multiSendWrId_low (slot r : Nat) (hslot : slot < 2 ^ 8) :
    multiSendWrId slot r % 2 ^ 16 = if r = 0 then slot else slot + slot * 2 ^ 8 := by
  unfold multiSendWrId
  rw [Nat.mod_mod_of_dvd _ (by decide : 2 ^ 16 ∣ 2 ^ 64), Nat.mod_eq_of_lt hslot]
  induction r with
  | zero =>
    simp
    omega
  | succ r ih =>
    rw [List.range_succ, List.map_append, List.sum_append, Nat.add_mod, ih]
    simp only [List.map_cons, List.map_nil, List.sum_cons, List.sum_nil, Nat.add_zero]
    rcases r with _ | r
    · simp
      omega
    · have : slot * 2 ^ (8 * (r + 1 + 1)) = 2 ^ 16 * (slot * 2 ^ (8 * r)) := by
        rw [show 8 * (r + 1 + 1) = 16 + 8 * r by omega, Nat.pow_add]
        exact Nat.mul_left_comm ..
      rw [this, Nat.mul_mod_right]
      simp
      omega

theorem slotOf_lt (id : Nat) : slotOf id < 2 ^ 8 := Nat.mod_lt _ (by decide)

theorem multiSendWrId_slot (id r : Nat) : multiSendWrId (slotOf id) r % 2 ^ 8 = slotOf id := by
  have h := multiSendWrId_low (slotOf id) r (slotOf_lt id)
  have hlt := slotOf_lt id
  split at h <;> omega

theorem multiSendWrId_ne_speed (id r : Nat) :
    multiSendWrId (slotOf id) r ≠ NCCL_IB_SPEED_UPDATE_WR_ID := by
  have h := multiSendWrId_low (slotOf id) r (slotOf_lt id)
  have hlt := slotOf_lt id
  intro heq
  rw [heq, NCCL_IB_SPEED_UPDATE_WR_ID] at h
  split at h <;> omega

/-- One event less for each request of the list. -/
def chargeAll (reqs : Nat → NcclIbRequest) (group : List Nat) (d : Nat) : Nat → NcclIbRequest :=
  fun i => if i ∈ group then takeEvent (reqs i) d else reqs i

/-- When all sends of the group wait for an event of the device, each gets one. With a
resiliency context nothing is asked of the events. -/
theorem chargeSends_ok (slot d : Nat) (f : Nat → Nat) (js : List Nat) :
    ∀ comm : NcclIbSendComm, (∀ j ∈ js, comm.sendReqs slot j = some (f j)) → (js.map f).Nodup →
      (comm.base.resiliency = false → ∀ j ∈ js, 0 < (comm.base.reqs (f j)).events d) →
      chargeSends slot d js comm =
        (comm.withReqs (chargeAll comm.base.reqs (js.map f) d), .ok ()) := by
  induction js with
  | nil =>
    intro comm _ _ _
    rfl
  | cons j js ih =>
    intro comm hreq hnd hpos
    rw [List.map_cons, List.nodup_cons] at hnd
    have hj : ¬ (!comm.base.resiliency ∧ (comm.base.reqs (f j)).events d ≤ 0) := by
      rintro ⟨hres, hle⟩
      have := hpos (by simpa using hres) j (List.mem_cons_self ..)
      omega
    unfold chargeSends
    rw [hreq j (List.mem_cons_self ..)]
    simp only
    rw [if_neg hj]
    have hrest := ih (comm.withReqs (Function.update comm.base.reqs (f j)
      (takeEvent (comm.base.reqs (f j)) d)))
      (fun j' hj' => hreq j' (List.mem_cons_of_mem _ hj')) hnd.2 ?_
    · rw [hrest]
      refine congrArg (fun reqs => (comm.withReqs reqs, Except.ok ())) ?_
      funext i
      unfold chargeAll NcclIbSendComm.withReqs
      by_cases hi : i = f j
      · subst hi
        simp [hnd.1]
      · simp [hi]
    · intro hres j' hj'
      have hne : f j' ≠ f j := by
        intro he
        exact hnd.1 (he ▸ List.mem_map_of_mem hj')
      unfold NcclIbSendComm.withReqs
      simp only
      rw [Function.update_of_ne hne]
      exact hpos hres j' (List.mem_cons_of_mem _ hj')

/-- A completion finds its group: every send of the group waits for it, and gets
one event less. -/
theorem sendEventProcess_ok (h : SendGood sh b0 g s) {c : Cqe} (hc : c ∈ s.pend) :
    ∃ id group, c.cause = .data id ∧
      (∀ i < NET_IB_MAX_REQUESTS, i ∈ group ↔
        ((s.comm.base.reqs i).type ≠ NCCL_NET_IB_REQ_UNUSED ∧ (s.comm.base.reqs i).id = id)) ∧
      sendEventProcess s.comm c.wc c.dev =
        ⟨s.comm.withReqs (chargeAll s.comm.base.reqs group c.dev), [], .ok ()⟩ := by
  obtain ⟨id, hid, hcid⟩ := h.mem_group hc
  have hcause := groupCqes_cause hcid
  have hpos := h.posted_pos id hid
  obtain ⟨f, hf, hinj, hgroup⟩ := h.rows.group (h.openGroup hc hcause)
  have hevents : ∀ j ∈ List.range (g id).length, 0 < (s.comm.base.reqs (f j)).events c.dev := by
    intro j hj
    obtain ⟨hi, _, htype, hreqid, _⟩ := hf j (List.mem_range.mp hj)
    have hlive : (s.comm.base.reqs (f j)).type ≠ NCCL_NET_IB_REQ_UNUSED := fun hu => by
      cases htype.symm.trans hu
    have hreqid : (s.comm.base.reqs (f j)).id = id := hreqid
    have hev := h.events (f j) hi hlive c.dev
    have hcount := h.count_pend id c.dev
    have hone : 0 < s.pend.countP (isFor id c.dev) :=
      List.countP_pos_iff.mpr ⟨c, hc, by simp [isFor, hcause]⟩
    rw [if_pos hid] at hcount
    rw [hreqid] at hev
    omega
  obtain ⟨_, hsend0, htype0, hid0, hn0⟩ := hf 0 hpos
  have hcharge := chargeSends_ok (slotOf id) c.dev f (List.range (g id).length) s.comm
    (fun j hj => (hf j (List.mem_range.mp hj)).2.1) hinj (fun _ => hevents)
  have hwc : c.wc.success = true ∧ c.wc.wr_id = multiSendWrId (slotOf id) ((g id).length - 1) := by
    obtain ⟨q, _, rfl⟩ := List.mem_map.mp hcid
    exact ⟨rfl, rfl⟩
  have hsend0 : s.comm.sendReqs (slotOf id) 0 = some (f 0) := hsend0
  have htype0 : (s.comm.base.reqs (f 0)).type = NCCL_NET_IB_REQ_SEND := htype0
  have hid0 : (s.comm.base.reqs (f 0)).id = id := hid0
  have hn0 : (s.comm.base.reqs (f 0)).nreqs = (g id).length := hn0
  refine ⟨id, (List.range (g id).length).map f, hcause, hgroup, ?_⟩
  unfold sendEventProcess sendRetrieve
  rw [hwc.2, if_neg (multiSendWrId_ne_speed _ _), hwc.1, multiSendWrId_slot, hsend0]
  simp only [Bool.not_true, Bool.false_eq_true, if_false, htype0, ne_eq, not_true_eq_false,
    hid0, hn0, hcharge]

end

end net_ib.p2p
