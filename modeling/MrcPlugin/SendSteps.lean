-- The steps of a send comm keep its invariant: a completion is charged, a send
-- is reported done, a send takes an entry, and a full group is posted.
import MrcPlugin.SendGood

namespace net_ib.p2p

open queues counts

section
variable {sh : Shape} {b0 : NcclIbNetCommBase} {g : Nat → List NcclIbSendFifo} {s : SendState}

/-! ## A completion is charged -/

theorem good_charge (h : SendGood sh b0 g s) {r i t w : Nat} {c : Cqe} {wcs : List Cqe}
    (hcall : s.call = some ⟨r, .completions i t w (c :: wcs)⟩) {id : Nat} {group : List Nat}
    (hcause : c.cause = .data id)
    (hgroup : ∀ j < NET_IB_MAX_REQUESTS, j ∈ group ↔
      ((s.comm.base.reqs j).type ≠ NCCL_NET_IB_REQ_UNUSED ∧ (s.comm.base.reqs j).id = id)) :
    SendGood sh b0 g { s with
      comm := s.comm.withReqs (chargeAll s.comm.base.reqs group c.dev)
      call := some ⟨r, .completions i t w wcs⟩
      processed := s.processed ++ [c] } := by
  have hkeep : ∀ j, (chargeAll s.comm.base.reqs group c.dev j).type = (s.comm.base.reqs j).type ∧
      (chargeAll s.comm.base.reqs group c.dev j).id = (s.comm.base.reqs j).id ∧
      (chargeAll s.comm.base.reqs group c.dev j).nreqs = (s.comm.base.reqs j).nreqs := by
    intro j
    unfold chargeAll
    split
    · exact ⟨rfl, rfl, rfl⟩
    · exact ⟨rfl, rfl, rfl⟩
  have hpend : s.pend.Perm (c :: (s.sq ++ s.cq ++ wcs)) := by
    unfold SendState.pend
    rw [hcall]
    exact List.perm_middle
  refine { h with
    same := h.same.trans ⟨rfl, rfl, rfl, rfl, rfl, rfl, rfl, rfl, rfl, rfl⟩
    open_req := ?_, live := ?_, events := ?_, conserved := ?_, pend_open := ?_, call_live := ?_
    hand := ?_ }
  · intro slot r o ho hopen
    obtain ⟨j, hj, hsend, hserial, htype, hid, hn⟩ := h.open_req slot r o ho hopen
    obtain ⟨k1, k2, k3⟩ := hkeep j
    exact ⟨j, hj, hsend, hserial, k1.trans htype, k2.trans hid, k3.trans hn⟩
  · intro j hj hlive
    obtain ⟨k1, k2, _⟩ := hkeep j
    have := h.live j hj (fun hu => hlive (k1.trans hu))
    simp only [NcclIbSendComm.withReqs, k1, k2]
    exact this
  · intro j hj hlive d
    obtain ⟨k1, k2, _⟩ := hkeep j
    have hev := h.events j hj (fun hu => hlive (k1.trans hu)) d
    have hmem := hgroup j hj
    simp only [NcclIbSendComm.withReqs, k2, List.countP_append, List.countP_singleton]
    by_cases hin : j ∈ group
    · have hid := (hmem.mp hin).2
      by_cases hd : d = c.dev
      · subst hd
        simp only [chargeAll, hin, if_true, takeEvent, Function.update_self, hev, isFor, hid,
          hcause, decide_true, and_self]
        omega
      · have hd' : c.dev ≠ d := fun he => hd he.symm
        simp [chargeAll, hin, takeEvent, Function.update_of_ne hd, hev, isFor, hd']
    · have hid : (s.comm.base.reqs j).id ≠ id := by
        intro he
        exact hin (hmem.mpr ⟨fun hu => hlive (k1.trans hu), he⟩)
      have hid' : id ≠ (s.comm.base.reqs j).id := fun he => hid he.symm
      simp [chargeAll, hin, hev, isFor, hcause, hid']
  · refine List.Perm.trans ?_ h.conserved
    refine List.Perm.trans ?_ (hpend.append_right _).symm
    show (s.sq ++ s.cq ++ wcs ++ (s.processed ++ [c])).Perm _
    rw [← List.append_assoc]
    exact List.perm_append_comm
  · intro c' hc'
    exact h.pend_open c' (hpend.mem_iff.mpr (List.mem_cons_of_mem _ hc'))
  · intro call hc
    cases hc
    obtain ⟨hr, hlive⟩ := h.call_live _ hcall
    exact ⟨hr, fun hu => hlive ((hkeep r).1.symm.trans hu)⟩
  · intro r' i' t' w' wcs' hc c' hc'
    cases hc
    exact h.hand _ _ _ _ _ hcall c' (List.mem_cons_of_mem _ hc')

/-! ## A send is reported done -/

/-- What `ncclIbRequestComplete` changes of a send comm: the request is free, and
the slot is free when its last send is. -/
structure Released (comm comm' : NcclIbSendComm) (i slot : Nat) : Prop where
  same : SameBase comm.base comm'.base
  fifoHead : comm'.base.fifoHead = comm.base.fifoHead
  reqs : comm'.base.reqs = Function.update comm.base.reqs i (ncclIbFreeRequest (comm.base.reqs i))
  ctsFifo : comm'.ctsFifo = comm.ctsFifo
  cnt : comm'.sendReqsCnt = Function.update comm.sendReqsCnt slot (comm.sendReqsCnt slot - 1)
  row : comm'.sendReqs =
    if comm.sendReqsCnt slot - 1 = 0 then Function.update comm.sendReqs slot (fun _ => none)
    else comm.sendReqs

theorem sendRequestComplete_released (env : NetEnv) (comm : NcclIbSendComm) {i : Nat}
    (htype : (comm.base.reqs i).type = NCCL_NET_IB_REQ_SEND) :
    Released comm (sendRequestComplete env comm i).1 i (slotOf (comm.base.reqs i).id) := by
  unfold sendRequestComplete
  simp only [htype, if_true]
  by_cases hz : comm.sendReqsCnt (slotOf (comm.base.reqs i).id) - 1 = 0
  · simp only [hz, if_true]
    by_cases hlb : env.eventBasedLb = true
    · simp only [hlb, if_true, ncclIbCheckSpeedChanges]
      split
      · refine ⟨⟨rfl, rfl, rfl, rfl, rfl, rfl, rfl, rfl, rfl, rfl⟩, rfl, rfl, rfl, ?_, ?_⟩
        · rw [hz]
          rfl
        · rw [if_pos hz]
          rfl
      · refine ⟨⟨rfl, rfl, rfl, rfl, rfl, rfl, rfl, rfl, rfl, rfl⟩, rfl, rfl, rfl, ?_, ?_⟩
        · rw [hz]
          rfl
        · rw [if_pos hz]
          rfl
    · simp only [hlb]
      refine ⟨⟨rfl, rfl, rfl, rfl, rfl, rfl, rfl, rfl, rfl, rfl⟩, rfl, rfl, rfl, ?_, ?_⟩
      · rw [hz]
        rfl
      · rw [if_pos hz]
        rfl
  · simp only [hz, if_false]
    refine ⟨⟨rfl, rfl, rfl, rfl, rfl, rfl, rfl, rfl, rfl, rfl⟩, rfl, rfl, rfl, rfl, ?_⟩
    rw [if_neg hz]
    rfl

/-- The events of a live request are its completions that are not processed. -/
theorem SendGood.events_pend (h : SendGood sh b0 g s) {i : Nat} (hi : i < NET_IB_MAX_REQUESTS)
    (hlive : (s.comm.base.reqs i).type ≠ NCCL_NET_IB_REQ_UNUSED)
    (hid : (s.comm.base.reqs i).id < s.comm.base.fifoHead) (d : Nat) :
    (s.comm.base.reqs i).events d = s.pend.countP (isFor (s.comm.base.reqs i).id d) := by
  have hev := h.events i hi hlive d
  have hcount := h.count_pend (s.comm.base.reqs i).id d
  rw [if_pos hid] at hcount
  omega

/-- A request with no event left is of a posted group, and all completions of
the group are processed. -/
theorem complete_posted (h : SendGood sh b0 g s) {i : Nat} (hi : i < NET_IB_MAX_REQUESTS)
    (hlive : (s.comm.base.reqs i).type ≠ NCCL_NET_IB_REQ_UNUSED)
    (hdone : ncclIbRequestIsComplete (s.comm.base.reqs i) = true) :
    (s.comm.base.reqs i).id < s.comm.base.fifoHead ∧
      ∀ c ∈ s.pend, c.cause ≠ .data (s.comm.base.reqs i).id := by
  have hzero : ∀ d < NCCL_IB_MAX_DEVS_PER_NIC, (s.comm.base.reqs i).events d = 0 := by
    intro d hd
    have := List.all_eq_true.mp hdone d (List.mem_range.mpr hd)
    exact of_decide_eq_true this
  have hdev : ∀ id, ∀ c ∈ groupCqes sh b0 g id, c.dev < NCCL_IB_MAX_DEVS_PER_NIC := fun id c hc =>
    Nat.lt_of_lt_of_le (groupCqes_dev h.plain hc) sh.ndevs_le
  have hid : (s.comm.base.reqs i).id < s.comm.base.fifoHead := by
    by_contra hge
    -- Nothing of the group is processed, and it has a completion on some device.
    obtain ⟨c, hc⟩ := List.exists_mem_of_ne_nil _ 
      (@groupCqes_ne_nil sh b0 g (s.comm.base.reqs i).id)
    have hev := h.events i hi hlive c.dev
    have hcount := h.count_pend (s.comm.base.reqs i).id c.dev
    rw [if_neg hge] at hcount
    have hone : 0 < (groupCqes sh b0 g (s.comm.base.reqs i).id).countP
        (isFor (s.comm.base.reqs i).id c.dev) :=
      List.countP_pos_iff.mpr ⟨c, hc, by simp [isFor, groupCqes_cause hc]⟩
    rw [hzero c.dev (hdev _ c hc)] at hev
    omega
  refine ⟨hid, fun c hc hcause => ?_⟩
  obtain ⟨id, _, hcid⟩ := h.mem_group hc
  have hev := h.events_pend hi hlive hid c.dev
  rw [hzero c.dev (hdev _ c hcid)] at hev
  have hone : 0 < s.pend.countP (isFor (s.comm.base.reqs i).id c.dev) :=
    List.countP_pos_iff.mpr ⟨c, hc, by simp [isFor, hcause]⟩
  omega

theorem isOpen_iff (slot r : Nat) : s.isOpen slot r = true ↔
    ∃ o, s.owner slot r = some o ∧ o.serial ∉ s.reported :=
  rows_isOpen_iff (x := s.rows) slot r

/-- The state after the report. -/
def SendState.report (s : SendState) (i : Nat) (comm' : NcclIbSendComm) : SendState :=
  { s with
    comm := comm'
    call := none
    reported := s.reported ++ [s.serialOf i]
    owner := fun slot r => if (comm'.sendReqs slot r).isNone then none else s.owner slot r }

theorem Released.done {comm' : NcclIbSendComm} {i : Nat}
    (hrel : Released s.comm comm' i (slotOf (s.comm.base.reqs i).id)) :
    Rows.Done s.rows (s.report i comm').rows i (slotOf (s.rows.reqs i).id) :=
  ⟨hrel.fifoHead, hrel.reqs, hrel.cnt, hrel.row, rfl, rfl, rfl, rfl⟩

/-- The rows keep what they keep, and no completion of the group of the send is left. -/
theorem good_report (hg : GroupsOk g) (h : SendGood sh b0 g s) {i : Nat}
    (hi : i < NET_IB_MAX_REQUESTS) (hlive : (s.comm.base.reqs i).type ≠ NCCL_NET_IB_REQ_UNUSED)
    (hdone : ncclIbRequestIsComplete (s.comm.base.reqs i) = true) (hhand : inHand s.call = [])
    {comm' : NcclIbSendComm} (hrel : Released s.comm comm' i (slotOf (s.comm.base.reqs i).id)) :
    SendGood sh b0 g (s.report i comm') := by
  obtain ⟨hid, hnopend⟩ := complete_posted h hi hlive hdone
  have hd := hrel.done
  have hrows := h.rows.done hg.length_le hi hlive hid hd
  have howner := hd.owner_iff h.rows
  have hpend : (s.report i comm').pend = s.pend := by
    unfold SendState.pend
    rw [hhand]
    rfl
  refine
    { plain := h.plain, same := h.same.trans hrel.same, entry := hrows.entry, owner := hrows.owner
      one_entry := hrows.one_entry, open_req := hrows.open_req, live := hrows.live
      cnt := hrows.cnt, row_open := hrows.row_open, current := hrows.current
      posted_pos := hrows.posted_pos, reported_lt := hrows.reported_lt
      reported_nodup := hrows.reported_nodup
      full := fun _ _ _ ho hlt _ hr => hrows.isSome ho hlt hr
      cts := fun slot r => ?_
      one_id := fun slot r1 r2 o1 o2 h1 h2 => ?_
      events := fun j hj hlive' => ?_
      conserved := ?_
      pend_open := fun c hc id hcause => ?_
      call_live := fun call hc => nomatch hc
      hand := fun r i t w wcs hc => nomatch hc }
  · have hcts : (s.report i comm').comm.ctsFifo = s.comm.ctsFifo := hrel.ctsFifo
    rw [hcts]
    exact h.cts slot r
  · exact h.one_id _ _ _ _ _ ((howner _ _ _).mp h1).1 ((howner _ _ _).mp h2).1
  · have hreq : comm'.base.reqs j = s.comm.base.reqs j := (hd.fresh hlive').2
    simp only [SendState.report] at hlive' ⊢
    rw [hreq] at hlive' ⊢
    exact h.events j hj hlive'
  · rw [hpend]
    show (s.pend ++ s.processed).Perm
      ((List.range comm'.base.fifoHead).flatMap (groupCqes sh b0 g))
    rw [hrel.fifoHead]
    exact h.conserved
  · rw [hpend] at hc
    have hne : id ≠ (s.comm.base.reqs i).id := by
      rintro rfl
      exact hnopend c hc hcause
    exact (h.rows.openGroup_done hg.length_le hi hlive hd hne (h.openGroup hc hcause)).1

/-! ## A send takes an entry -/

/-- One entry of a row changes. -/
theorem update_row {α : Type} (f : Nat → Nat → α) (slot r : Nat) (v : α) (slot' r' : Nat) :
    Function.update f slot (Function.update (f slot) r v) slot' r' =
      if slot' = slot ∧ r' = r then v else f slot' r' := by
  by_cases hs : slot' = slot
  · subst hs
    by_cases hr : r' = r
    · subst hr
      simp
    · simp [hr]
  · simp [hs]

/-- The history of a send that takes entry `r`. -/
def SendState.bound (s : SendState) (a : IsendArgs) (r i : Nat) (req : NcclIbRequest) : SendState :=
  let id := s.comm.base.fifoHead
  let slot := slotOf id
  { s with
    comm := bindEntry s.comm slot r i req
    owner := Function.update s.owner slot
      (Function.update (s.owner slot) r (some ⟨id, s.nextSerial⟩))
    serialOf := Function.update s.serialOf i s.nextSerial
    nextSerial := s.nextSerial + 1
    log := s.log ++ [⟨id, r, s.nextSerial, a, s.reported, s.comm.base.weights⟩] }

/-- A send of the current group takes entry `r` with request `i`: what changes. -/
structure Takes (s t : SendState) (r i : Nat) (req : NcclIbRequest) : Prop where
  same : SameBase s.comm.base t.comm.base
  fifoHead : t.comm.base.fifoHead = s.comm.base.fifoHead
  ctsFifo : t.comm.ctsFifo = s.comm.ctsFifo
  req : t.comm.base.reqs i = req
  reqs : ∀ j, j ≠ i → t.comm.base.reqs j = s.comm.base.reqs j
  entry : ∀ slot' r', t.comm.sendReqs slot' r' =
    if slot' = slotOf s.comm.base.fifoHead ∧ r' = r then some i else s.comm.sendReqs slot' r'
  owner : ∀ slot' r', t.owner slot' r' =
    if slot' = slotOf s.comm.base.fifoHead ∧ r' = r then some ⟨s.comm.base.fifoHead, s.nextSerial⟩
    else s.owner slot' r'
  cnt : t.comm.sendReqsCnt = Function.update s.comm.sendReqsCnt (slotOf s.comm.base.fifoHead)
    (s.comm.sendReqsCnt (slotOf s.comm.base.fifoHead) + 1)
  serialOf : t.serialOf i = s.nextSerial
  serials : ∀ j, j ≠ i → t.serialOf j = s.serialOf j
  nextSerial : t.nextSerial = s.nextSerial + 1
  reported : t.reported = s.reported
  pend : t.pend = s.pend
  processed : t.processed = s.processed
  call : t.call = s.call

theorem takes_bound (a : IsendArgs) (r i : Nat) (req : NcclIbRequest) :
    Takes s (s.bound a r i req) r i req where
  same := ⟨rfl, rfl, rfl, rfl, rfl, rfl, rfl, rfl, rfl, rfl⟩
  fifoHead := rfl
  ctsFifo := rfl
  req := Function.update_self ..
  reqs := fun _ hj => Function.update_of_ne hj ..
  entry := fun _ _ => update_row ..
  owner := fun _ _ => update_row ..
  cnt := rfl
  serialOf := Function.update_self ..
  serials := fun _ hj => Function.update_of_ne hj ..
  nextSerial := rfl
  reported := rfl
  pend := rfl
  processed := rfl
  call := rfl

/-- The request of a send of the current group, before anything of it is posted. -/
structure FreshReq (sh : Shape) (b0 : NcclIbNetCommBase) (g : Nat → List NcclIbSendFifo) (k : Nat)
    (req : NcclIbRequest) : Prop where
  type : req.type = NCCL_NET_IB_REQ_SEND
  id : req.id = k
  nreqs : req.nreqs = (g k).length
  events : ∀ d, req.events d = (groupCqes sh b0 g k).countP (isFor k d)

/-- No entry of the current slot belongs to another group. -/
def SendState.SlotFree (s : SendState) : Prop :=
  ∀ r o, s.owner (slotOf s.comm.base.fifoHead) r = some o → o.id = s.comm.base.fifoHead

section
variable {t : SendState} {r i : Nat} {req : NcclIbRequest}

theorem Takes.rows (ht : Takes s t r i req) : Rows.Taken s.rows t.rows r i req :=
  ⟨ht.fifoHead, ht.req, ht.reqs, ht.entry, ht.owner, ht.cnt, ht.serialOf, ht.serials,
    ht.nextSerial, ht.reported⟩

theorem Takes.slotFree (ht : Takes s t r i req) (hfree : s.SlotFree) : t.SlotFree := by
  intro r' o ho
  rw [ht.fifoHead] at ho ⊢
  rcases ht.rows.owner_cases ho with ⟨_, _, rfl⟩ | ho
  · rfl
  · exact hfree r' o ho

/-- The slot has one group still, as no other group had an entry in it. -/
theorem Takes.one_id (ht : Takes s t r i req) (h : SendGood sh b0 g s) (hfree : s.SlotFree)
    {slot' r1 r2 : Nat} {o1 o2 : Owner} (h1 : t.owner slot' r1 = some o1)
    (h2 : t.owner slot' r2 = some o2) : o1.id = o2.id := by
  rcases ht.rows.owner_cases h1 with ⟨rfl, rfl, rfl⟩ | h1 <;>
    rcases ht.rows.owner_cases h2 with ⟨hs, hr2, rfl⟩ | h2
  · rfl
  · exact (hfree _ _ h2).symm
  · rw [hs] at h1
    exact hfree _ _ h1
  · exact h.one_id _ _ _ _ _ h1 h2

theorem good_bind (h : SendGood sh b0 g s) (ht : Takes s t r i req) (hcall : s.call = none)
    (hfree : s.SlotFree) (hr : r < (g s.comm.base.fifoHead).length)
    (hr8 : r < NCCL_NET_IB_MAX_RECVS)
    (hnone : s.comm.sendReqs (slotOf s.comm.base.fifoHead) r = none)
    (hi : i < NET_IB_MAX_REQUESTS) (hunused : (s.comm.base.reqs i).type = NCCL_NET_IB_REQ_UNUSED)
    (hreq : FreshReq sh b0 g s.comm.base.fifoHead req) : SendGood sh b0 g t := by
  have hrows := h.rows.taken ht.rows hr hr8 hnone hi hunused hreq.type hreq.id hreq.nreqs
  refine
    { plain := h.plain, same := h.same.trans ht.same, entry := hrows.entry, owner := hrows.owner
      one_entry := hrows.one_entry, open_req := hrows.open_req, live := hrows.live
      cnt := hrows.cnt, row_open := hrows.row_open, current := hrows.current
      posted_pos := hrows.posted_pos, reported_lt := hrows.reported_lt
      reported_nodup := hrows.reported_nodup
      full := fun _ _ _ ho hlt _ hr => hrows.isSome ho hlt hr
      cts := ?_
      one_id := fun _ _ _ _ _ h1 h2 => ht.one_id h hfree h1 h2
      events := fun j hj hlive d => ?_
      conserved := ?_
      pend_open := fun c hc id hcause => ?_
      call_live := fun call hc => ?_
      hand := ?_ }
  · rw [ht.ctsFifo]
    exact h.cts
  · rw [ht.processed]
    by_cases hji : j = i
    · subst hji
      -- Nothing of the current group is processed.
      have hcount := h.count_pend s.comm.base.fifoHead d
      rw [if_neg (Nat.lt_irrefl _)] at hcount
      rw [ht.req, hreq.id, hreq.events]
      omega
    · rw [ht.reqs j hji] at hlive ⊢
      exact h.events j hj hlive d
  · rw [ht.pend, ht.processed, ht.fifoHead]
    exact h.conserved
  · rw [ht.pend] at hc
    exact ht.rows.openGroup h.rows hnone (h.openGroup hc hcause)
  · rw [ht.call, hcall] at hc
    cases hc
  · rw [ht.call]
    exact h.hand

end

/-! ## A full group is posted -/

/-- The group of the current id goes out: what changes. -/
structure Posts (sh : Shape) (b0 : NcclIbNetCommBase) (g : Nat → List NcclIbSendFifo)
    (s t : SendState) : Prop where
  same : SameBase s.comm.base t.comm.base
  fifoHead : t.comm.base.fifoHead = s.comm.base.fifoHead + 1
  ctsFifo : t.comm.ctsFifo = s.comm.ctsFifo
  sendReqs : t.comm.sendReqs = s.comm.sendReqs
  sendReqsCnt : t.comm.sendReqsCnt = s.comm.sendReqsCnt
  reqs : ∀ i, (t.comm.base.reqs i).type = (s.comm.base.reqs i).type ∧
    (t.comm.base.reqs i).id = (s.comm.base.reqs i).id ∧
    (t.comm.base.reqs i).nreqs = (s.comm.base.reqs i).nreqs ∧
    (t.comm.base.reqs i).events = (s.comm.base.reqs i).events
  sq : t.sq = s.sq ++ groupCqes sh b0 g s.comm.base.fifoHead
  cq : t.cq = s.cq
  call : t.call = s.call
  owner : t.owner = s.owner
  serialOf : t.serialOf = s.serialOf
  nextSerial : t.nextSerial = s.nextSerial
  reported : t.reported = s.reported
  processed : t.processed = s.processed

/-- The rows move on to the next group. -/
theorem Posts.rows {t : SendState} (ht : Posts sh b0 g s t) (h : SendGood sh b0 g s)
    (hpos : 0 < (g s.comm.base.fifoHead).length)
    (hfull : ∀ r < (g s.comm.base.fifoHead).length,
      (s.owner (slotOf s.comm.base.fifoHead) r).isSome) : RowsGood (groupSize g) t.rows := by
  have hposted : RowsGood (groupSize g)
      { s.rows with fifoHead := s.rows.fifoHead + 1, reqs := t.comm.base.reqs } :=
    (h.rows.posted hpos (fun r hr => Option.isSome_iff_exists.mp (hfull r hr))).reqs_change
      (fun i => ⟨(ht.reqs i).1, (ht.reqs i).2.1, (ht.reqs i).2.2.1⟩)
  have hrows : t.rows =
      { s.rows with fifoHead := s.rows.fifoHead + 1, reqs := t.comm.base.reqs } := by
    unfold SendState.rows
    rw [ht.fifoHead, ht.sendReqs, ht.sendReqsCnt, ht.owner, ht.serialOf, ht.nextSerial, ht.reported]
  rw [hrows]
  exact hposted

theorem good_post {t : SendState} (h : SendGood sh b0 g s) (ht : Posts sh b0 g s t)
    (hfree : s.SlotFree) (hpos : 0 < (g s.comm.base.fifoHead).length)
    (hfull : ∀ r < (g s.comm.base.fifoHead).length,
      (s.owner (slotOf s.comm.base.fifoHead) r).isSome) : SendGood sh b0 g t := by
  have hrows := ht.rows h hpos hfull
  have hpend : t.pend.Perm (s.pend ++ groupCqes sh b0 g s.comm.base.fifoHead) := by
    unfold SendState.pend
    rw [ht.sq, ht.cq, ht.call]
    have := (@List.perm_append_comm _ (groupCqes sh b0 g s.comm.base.fifoHead)
      (s.cq ++ inHand s.call)).append_left s.sq
    simpa only [List.append_assoc] using this
  refine
    { plain := h.plain, same := h.same.trans ht.same, entry := hrows.entry, owner := hrows.owner
      one_entry := hrows.one_entry, open_req := hrows.open_req, live := hrows.live
      cnt := hrows.cnt, row_open := hrows.row_open, current := hrows.current
      posted_pos := hrows.posted_pos, reported_lt := hrows.reported_lt
      reported_nodup := hrows.reported_nodup
      full := fun _ _ _ ho hlt _ hr => hrows.isSome ho hlt hr
      cts := ?_, one_id := ?_
      events := fun i hi hlive d => ?_
      conserved := ?_
      pend_open := fun c hc id hcause r hr => ?_
      call_live := fun call hc => ?_
      hand := ?_ }
  · rw [ht.ctsFifo]
    exact h.cts
  · rw [ht.owner]
    exact h.one_id
  · obtain ⟨k1, k2, _, k4⟩ := ht.reqs i
    rw [k1] at hlive
    rw [k2, k4, ht.processed]
    exact h.events i hi hlive d
  · rw [ht.fifoHead, ht.processed, List.range_succ, List.flatMap_append]
    have hone : [s.comm.base.fifoHead].flatMap (groupCqes sh b0 g) =
        groupCqes sh b0 g s.comm.base.fifoHead := by simp
    rw [hone]
    refine List.Perm.trans (hpend.append_right _) ?_
    rw [List.append_assoc]
    refine List.Perm.trans (List.perm_append_comm.append_left _) ?_
    rw [← List.append_assoc]
    exact h.conserved.append_right _
  · rw [ht.owner, ht.reported]
    rcases List.mem_append.mp (hpend.mem_iff.mp hc) with hc | hc
    · exact h.pend_open c hc id hcause r hr
    · have hid : id = s.comm.base.fifoHead :=
        Cause.data.inj (hcause.symm.trans (groupCqes_cause hc))
      subst hid
      obtain ⟨o, ho⟩ := Option.isSome_iff_exists.mp (hfull r hr)
      have hoid := hfree r o ho
      exact ⟨o, ho, hoid, h.current _ _ _ ho hoid⟩
  · rw [ht.call] at hc
    rw [(ht.reqs call.r).1]
    exact h.call_live call hc
  · rw [ht.call]
    exact h.hand

/-- The completions of a list of posts, one for each QP. -/
theorem sendCqes_chain {b : NcclIbNetCommBase} {id n imm : Nat} {posts : List SendPost}
    {qps : List (Nat × Nat)}
    (hchain : List.Forall₂ (Chain (multiSendWrId (slotOf id) (n - 1)) imm) posts qps) :
    sendCqes b id posts = qps.map (groupCqe b n id) := by
  induction hchain with
  | nil => rfl
  | cons hone _ ih =>
    obtain ⟨hqp, front, last, hwrs, hfront, hsig, _, hwr, _⟩ := hone
    have hnone : front.filter (fun wr => wr.signaled) = [] :=
      List.filter_eq_nil_iff.mpr (fun wr hwr => by simp [(hfront wr hwr).1])
    unfold sendCqes at ih ⊢
    rw [List.flatMap_cons, ih, List.map_cons, hwrs, List.filter_append, hnone]
    simp [hsig, hwr, hqp, groupCqe]

end

end net_ib.p2p
