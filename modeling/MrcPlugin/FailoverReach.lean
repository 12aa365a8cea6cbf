-- Every state that a send comm with a resiliency context reaches keeps the
-- invariant, so a send is reported done only when all its parts have arrived.
import MrcPlugin.FailoverSteps

namespace net_ib.resiliency

open p2p recovery queues resends

section
variable {sh : Shape} {g : Nat → List NcclIbSendFifo} {x y : FailoverState}

/-! ## The first state -/

theorem good_failover_init (h : FailoverState.Init sh x) : FailoverGood sh g x := by
  have hpend : x.pend = [] := by
    unfold FailoverState.pend
    rw [h.sq, h.cq, h.call]
    rfl
  have hunused : ∀ i < NET_IB_MAX_REQUESTS, (x.s.comm.base.reqs i).type ≠ NCCL_NET_IB_REQ_UNUSED →
      False := fun i hi hlive => hlive (h.reqs i hi)
  have hwaiting : x.ledger.waiting = [] := by
    show x.pend.map SendCqe.part ++ x.lost = []
    rw [hpend, h.lost]
    rfl
  have hrows : RowsGood (groupSize g) x.rows :=
    Rows.Init.good ⟨h.fifoHead, h.reqs, h.sendReqs, h.sendReqsCnt, h.owner, h.reported⟩
  exact
    { context := h.context
      cts := fun slot r => .inl (h.ctsFifo slot r)
      rows := hrows
      sent := fun p hp => by
        rw [hwaiting] at hp
        cases hp
      waits := fun i hi hlive => (hunused i hi hlive).elim
      covered := fun i hi hlive => (hunused i hi hlive).elim
      whole := fun i hi hlive => (hunused i hi hlive).elim
      opened := fun id hpos => by
        obtain ⟨p, hp, _⟩ := count_pos_iff.mp hpos
        rw [hwaiting] at hp
        cases hp
      marked := fun slot _ _ ho => by
        rw [h.owner slot 0] at ho
        cases ho
      pend := fun c hc => by
        rw [hpend] at hc
        cases hc
      call_live := fun call hc => by
        rw [h.call] at hc
        cases hc
      hand := fun r i t w wcs hc => by
        rw [h.call] at hc
        cases hc
      log := fun o ho => by
        rw [h.log] at ho
        cases ho
      logged := fun i hi hlive => (hunused i hi hlive).elim
      arrived := fun o ho => by
        rw [h.log] at ho
        cases ho }

/-! ## A send takes an entry -/

/-- The state after the send has taken entry `r` with request `i`. -/
def FailoverState.bound (x : FailoverState) (r i : Nat) (req : NcclIbRequest) : FailoverState :=
  let id := x.s.comm.base.fifoHead
  let slot := slotOf id
  { x with
    s := { x.s with comm := bindEntry x.s.comm slot r i req }
    owner := Function.update x.owner slot
      (Function.update (x.owner slot) r (some ⟨id, x.nextSerial⟩))
    serialOf := Function.update x.serialOf i x.nextSerial
    nextSerial := x.nextSerial + 1
    log := x.log ++ [⟨id, x.nextSerial⟩] }

theorem taken_bound (r i : Nat) (req : NcclIbRequest) :
    Rows.Taken x.rows (x.bound r i req).rows r i req where
  fifoHead := rfl
  req := Function.update_self ..
  reqs := fun _ hj => Function.update_of_ne hj ..
  entry := fun _ _ => update_row ..
  owner := fun _ _ => update_row ..
  cnt := rfl
  serialOf := Function.update_self ..
  serials := fun _ hj => Function.update_of_ne hj ..
  nextSerial := rfl
  reported := rfl

/-- The request of a send of the current group, before anything of it is posted. -/
structure WholeReq (sh : Shape) (g : Nat → List NcclIbSendFifo) (base : NcclIbNetCommBase)
    (req : NcclIbRequest) : Prop where
  type : req.type = NCCL_NET_IB_REQ_SEND
  id : req.id = base.fifoHead
  nreqs : req.nreqs = groupSize g base.fifoHead
  events : (reqQps sh base : Int) ≤ eventSum sh req
  sentData : ∀ q, req.send.sentData q = false

theorem wholeReq_bound (h : FailoverGood sh g x) (hu : Unfailed sh x)
    (hn : (x.s.comm.ctsFifo (slotOf x.s.comm.base.fifoHead) 0).nreqs =
      groupSize g x.s.comm.base.fifoHead) (a : IsendArgs) (r i : Nat) :
    WholeReq sh g x.s.comm.base (boundReq sh x.s.comm a r i) := by
  unfold boundReq sendRequest
  refine ⟨(addEvents _ _).2.2.1, (addEvents _ _).2.2.2.1, ?_, ?_, fun q => ?_⟩
  · exact (addEvents _ _).2.2.2.2.1.trans hn
  · rw [eventSum_addEvents _ _ (fun d hd => ?_)]
    · have hzero : ∀ req : NcclIbRequest, req.events = (fun _ => 0) → eventSum sh req = 0 := by
        intro req hreq
        unfold eventSum
        rw [hreq]
        simp
      rw [hzero _ rfl, Int.zero_add, List.length_map]
      unfold qpsOf
      rw [List.length_map, List.length_range]
    · obtain ⟨q, hq, rfl⟩ := List.mem_map.mp hd
      exact hu.inUse.qpsOf_dev hq
  · rw [(addEvents _ _).2.2.2.2.2.1]
    simp only [h.context, if_true]

theorem FailoverGood.bind (h : FailoverGood sh g x) {r i : Nat} {req : NcclIbRequest}
    (hcall : x.call = none) (hr : r < groupSize g x.s.comm.base.fifoHead)
    (hr8 : r < NCCL_NET_IB_MAX_RECVS)
    (hnone : x.s.comm.sendReqs (slotOf x.s.comm.base.fifoHead) r = none)
    (hi : i < NET_IB_MAX_REQUESTS) (hunused : (x.s.comm.base.reqs i).type = NCCL_NET_IB_REQ_UNUSED)
    (hreq : WholeReq sh g x.s.comm.base req) : FailoverGood sh g (x.bound r i req) := by
  have ht := taken_bound (x := x) r i req
  have hrows := h.rows.taken ht hr hr8 hnone hi hunused hreq.type hreq.id hreq.nreqs
  have hself : (x.bound r i req).s.comm.base.reqs i = req := ht.req
  have hreqs : ∀ j, j ≠ i → (x.bound r i req).s.comm.base.reqs j = x.s.comm.base.reqs j := ht.reqs
  have hold : ∀ j, ((x.bound r i req).s.comm.base.reqs j).id < x.s.comm.base.fifoHead → j ≠ i := by
    rintro j hlt rfl
    rw [hself, hreq.id] at hlt
    exact Nat.lt_irrefl _ hlt
  refine
    { h with
      rows := hrows
      waits := fun j hj hlive hlt => ?_
      covered := fun j hj hlive hlt => ?_
      whole := fun j hj hlive hcur => ?_
      opened := fun id hpos => ht.openGroup h.rows hnone (h.opened id hpos)
      marked := fun slot j o ho hrep hlt hj q hq => ?_
      call_live := fun call hc => ?_
      log := fun o ho => ?_
      logged := fun j hj hlive o ho hser => ?_
      arrived := fun o ho hrep q hq => ?_ }
  · have hji := hold j hlt
    rw [hreqs j hji] at hlive hlt ⊢
    exact h.waits j hj hlive hlt
  · have hji := hold j hlt
    rw [hreqs j hji] at hlive hlt ⊢
    exact h.covered j hj hlive hlt
  · by_cases hji : j = i
    · subst hji
      rw [hself]
      exact ⟨hreq.events, hreq.sentData⟩
    · rw [hreqs j hji] at hlive hcur ⊢
      exact h.whole j hj hlive hcur
  · rcases ht.owner_cases ho with ⟨_, _, rfl⟩ | ho
    · exact absurd hlt (Nat.lt_irrefl _)
    · have hrow : (x.bound r i req).s.comm.sendReqs slot 0 = x.s.comm.sendReqs slot 0 :=
        (ht.owner_keep h.rows hnone ho).2
      have hj' : x.s.comm.sendReqs slot 0 = some j := hrow.symm.trans hj
      obtain ⟨j', _, hj'', _, htype, _⟩ := h.rows.open_req _ _ _ ho hrep
      have hsame : x.s.comm.sendReqs slot 0 = some j' := hj''
      rw [hj'] at hsame
      cases hsame
      have hji : j ≠ i := by
        rintro rfl
        have htype' : (x.s.comm.base.reqs j).type = NCCL_NET_IB_REQ_SEND := htype
        rw [hunused] at htype'
        cases htype'
      rw [hreqs j hji]
      exact h.marked slot j o ho hrep hlt hj' q hq
  · rw [show (x.bound r i req).call = none from hcall] at hc
    cases hc
  · rcases List.mem_append.mp ho with ho | ho
    · exact Nat.lt_succ_of_lt (h.log o ho)
    · rw [List.mem_singleton.mp ho]
      exact Nat.lt_succ_self _
  · rcases List.mem_append.mp ho with ho | ho
    · have hlt := h.log o ho
      by_cases hji : j = i
      · subst hji
        rw [show (x.bound r j req).serialOf j = x.nextSerial from ht.serialOf] at hser
        omega
      · rw [show (x.bound r i req).serialOf j = x.serialOf j from ht.serials j hji] at hser
        rw [hreqs j hji] at hlive ⊢
        exact h.logged j hj hlive o ho hser
    · rw [List.mem_singleton.mp ho] at hser ⊢
      by_cases hji : j = i
      · rw [hji, hself, hreq.id]
      · rw [show (x.bound r i req).serialOf j = x.serialOf j from ht.serials j hji] at hser
        rw [hreqs j hji] at hlive
        obtain ⟨_, _, r', _, ho'⟩ := h.rows.live j hj hlive
        have hlt : x.serialOf j < x.nextSerial := (h.rows.owner _ _ _ ho').2.2.2
        simp only at hser
        omega
  · rcases List.mem_append.mp ho with ho | ho
    · exact h.arrived o ho hrep q hq
    · rw [List.mem_singleton.mp ho] at hrep
      exact absurd (h.rows.reported_lt _ hrep) (Nat.lt_irrefl _)

/-! ## A full row is posted -/

/-- The current group goes out: the row is full, the first request of it is marked, and a
completion will come for each part of `qs`. When the row still has an earlier group,
nothing is posted. -/
structure Posting (sh : Shape) (g : Nat → List NcclIbSendFifo) (x : FailoverState)
    (reqs : Nat → NcclIbRequest) (qs : List Nat) (cqes : List SendCqe) : Prop where
  good : FailoverGood sh g x
  gen : ∀ id, x.gen id = 0
  pos : 0 < groupSize g x.s.comm.base.fifoHead
  full : ∀ r < groupSize g x.s.comm.base.fifoHead,
    ∃ o, x.owner (slotOf x.s.comm.base.fifoHead) r = some o ∧ o.serial ∉ x.reported
  frame : ∀ i, ∃ sentData, reqs i = { x.s.comm.base.reqs i with
    send := { (x.s.comm.base.reqs i).send with sentData } }
  others : ∀ i, (∀ r < groupSize g x.s.comm.base.fifoHead,
    x.s.comm.sendReqs (slotOf x.s.comm.base.fifoHead) r ≠ some i) → reqs i = x.s.comm.base.reqs i
  marks : ∀ i o, x.owner (slotOf x.s.comm.base.fifoHead) 0 = some o →
    x.s.comm.sendReqs (slotOf x.s.comm.base.fifoHead) 0 = some i →
      ∀ q ∈ partsOf sh x.s.comm.base o.id, (reqs i).send.sentData q = true
  parts : cqes.map SendCqe.part = sendings x.s.comm.base.fifoHead 0 qs
  pend : ∀ c ∈ cqes, c.dev < sh.ndevs ∧ c.wr_id % 2 ^ 8 = slotOf c.part.id ∧
    c.wr_id ≠ NCCL_IB_SPEED_UPDATE_WR_ID
  all : (x.rows.OpenGroup (groupSize g) x.s.comm.base.fifoHead ∧
      (∀ q ∈ partsOf sh x.s.comm.base x.s.comm.base.fifoHead, q ∈ qs) ∧
        qs.length ≤ reqQps sh x.s.comm.base) ∨ qs = []

/-- The state after the group went out. -/
def FailoverState.sendOut (x : FailoverState) (reqs : Nat → NcclIbRequest) (cqes : List SendCqe) :
    FailoverState :=
  { x with
    s := { x.s with comm := sentComm (x.s.comm.withReqs reqs) }
    sq := x.sq ++ cqes }

section
variable {reqs : Nat → NcclIbRequest} {qs : List Nat} {cqes : List SendCqe}

/-- A request keeps all but its marks. -/
theorem Posting.keep (h : Posting sh g x reqs qs cqes) (j : Nat) :
    (reqs j).type = (x.s.comm.base.reqs j).type ∧ (reqs j).id = (x.s.comm.base.reqs j).id ∧
      (reqs j).nreqs = (x.s.comm.base.reqs j).nreqs ∧
      (reqs j).events = (x.s.comm.base.reqs j).events := by
  obtain ⟨_, heq⟩ := h.frame j
  rw [heq]
  exact ⟨rfl, rfl, rfl, rfl⟩

theorem Posting.sum (h : Posting sh g x reqs qs cqes) (j : Nat) :
    eventSum sh (reqs j) = eventSum sh (x.s.comm.base.reqs j) := by
  unfold eventSum
  rw [(h.keep j).2.2.2]

theorem Posting.live (h : Posting sh g x reqs qs cqes) {j : Nat}
    (hlive : (reqs j).type ≠ NCCL_NET_IB_REQ_UNUSED) :
    (x.s.comm.base.reqs j).type ≠ NCCL_NET_IB_REQ_UNUSED :=
  fun hu => hlive ((h.keep j).1.trans hu)

/-- The parts of the group wait beside those before. -/
theorem Posting.waiting (h : Posting sh g x reqs qs cqes) : (x.sendOut reqs cqes).ledger.waiting.Perm
    (x.ledger.waiting ++ sendings x.s.comm.base.fifoHead 0 qs) := by
  rw [← h.parts]
  unfold FailoverState.ledger FailoverState.sendOut FailoverState.pend
  simp only [List.map_append, List.append_assoc]
  refine List.Perm.append_left _ (List.perm_append_comm.trans ?_)
  simp only [List.append_assoc]
  exact List.Perm.refl _

/-- No part of the group was sent before. -/
theorem Posting.count_current (h : Posting sh g x reqs qs cqes) :
    x.ledger.count x.s.comm.base.fifoHead = 0 := by
  by_contra hne
  obtain ⟨p, hp, hpid, _⟩ := count_pos_iff.mp (Nat.pos_of_ne_zero hne)
  have := (h.good.sent p hp).1
  omega

theorem Posting.count (h : Posting sh g x reqs qs cqes) (id : Nat) :
    (x.sendOut reqs cqes).ledger.count id =
      x.ledger.count id + if id = x.s.comm.base.fifoHead then qs.length else 0 := by
  refine (h.waiting.countP_eq _).trans ((count_send (l := x.ledger) _ 0).trans ?_)
  congr 1
  by_cases hid : id = x.s.comm.base.fifoHead
  · rw [if_pos hid, if_pos ⟨hid.symm, (h.gen id).symm⟩]
  · rw [if_neg hid, if_neg (fun hc => hid hc.1.symm)]

theorem Posting.covers (h : Posting sh g x reqs qs cqes) {id : Nat} {qs' : List Nat}
    (hc : Ledger.Covers { x.ledger with
      waiting := x.ledger.waiting ++ sendings x.s.comm.base.fifoHead 0 qs } id qs') :
    (x.sendOut reqs cqes).ledger.Covers id qs' := hc.perm h.waiting

theorem Posting.sent (h : Posting sh g x reqs qs cqes) {p : Sending}
    (hp : p ∈ (x.sendOut reqs cqes).ledger.waiting) :
    p.id < x.s.comm.base.fifoHead + 1 ∧ p.gen = x.gen p.id := by
  rcases List.mem_append.mp (h.waiting.mem_iff.mp hp) with hp | hp
  · exact ⟨Nat.lt_succ_of_lt (h.good.sent p hp).1, (h.good.sent p hp).2⟩
  · obtain ⟨hid, hpgen, _⟩ := mem_sendings.mp hp
    exact ⟨by rw [hid]; exact Nat.lt_succ_self _, hpgen.trans (h.gen _).symm⟩

theorem Posting.waits (h : Posting sh g x reqs qs cqes) {j : Nat} (hj : j < NET_IB_MAX_REQUESTS)
    (hlive : (reqs j).type ≠ NCCL_NET_IB_REQ_UNUSED)
    (hlt : (reqs j).id < x.s.comm.base.fifoHead + 1) :
    ((x.sendOut reqs cqes).ledger.count (reqs j).id : Int) ≤ eventSum sh (reqs j) := by
  rw [h.count, h.sum, (h.keep j).2.1]
  rw [(h.keep j).2.1] at hlt
  by_cases hcur : (x.s.comm.base.reqs j).id = x.s.comm.base.fifoHead
  · have hwhole := (h.good.whole j hj (h.live hlive) hcur).1
    rw [if_pos hcur, hcur, h.count_current]
    rcases h.all with ⟨_, _, hlen⟩ | rfl
    · omega
    · simp only [List.length_nil]
      omega
  · rw [if_neg hcur]
    exact h.good.waits j hj (h.live hlive) (by omega)

theorem Posting.covered (h : Posting sh g x reqs qs cqes) {j : Nat} (hj : j < NET_IB_MAX_REQUESTS)
    (hlive : (reqs j).type ≠ NCCL_NET_IB_REQ_UNUSED)
    (hlt : (reqs j).id < x.s.comm.base.fifoHead + 1) :
    (x.sendOut reqs cqes).ledger.Covers (reqs j).id (partsOf sh x.s.comm.base (reqs j).id) ∨
      (0 < eventSum sh (reqs j) ∧ (x.sendOut reqs cqes).ledger.count (reqs j).id = 0) := by
  rw [h.count, h.sum, (h.keep j).2.1]
  rw [(h.keep j).2.1] at hlt
  by_cases hcur : (x.s.comm.base.reqs j).id = x.s.comm.base.fifoHead
  · rw [if_pos hcur, hcur, h.count_current]
    rcases h.all with ⟨_, hevery, _⟩ | hnil
    · refine .inl (h.covers (fun q hq => .inl (List.mem_append_right _ ?_)))
      exact mem_sendings.mpr ⟨rfl, h.gen _, hevery q hq⟩
    · have hwhole := (h.good.whole j hj (h.live hlive) hcur).1
      have := reqQps_pos sh x.s.comm.base
      rw [hnil]
      exact .inr ⟨by omega, rfl⟩
  · rw [if_neg hcur]
    refine (h.good.covered j hj (h.live hlive) (by omega)).imp_left (fun hc => ?_)
    exact h.covers (hc.send _)

/-- No request is of a later group. -/
theorem Posting.not_later (h : Posting sh g x reqs qs cqes) {j : Nat}
    (hj : j < NET_IB_MAX_REQUESTS) (hlive : (reqs j).type ≠ NCCL_NET_IB_REQ_UNUSED) :
    (reqs j).id ≠ x.s.comm.base.fifoHead + 1 := by
  obtain ⟨_, _, r, _, ho⟩ := h.good.rows.live j hj (h.live hlive)
  have hle : (x.s.comm.base.reqs j).id ≤ x.s.comm.base.fifoHead := (h.good.rows.owner _ _ _ ho).2.1
  rw [(h.keep j).2.1]
  omega

theorem Posting.opened (h : Posting sh g x reqs qs cqes) {id : Nat}
    (hpos : 0 < (x.sendOut reqs cqes).ledger.count id) : x.rows.OpenGroup (groupSize g) id := by
  rw [h.count] at hpos
  by_cases hcur : id = x.s.comm.base.fifoHead
  · rw [hcur, h.count_current, if_pos rfl] at hpos
    rcases h.all with ⟨hopen, _⟩ | hnil
    · rw [hcur]
      exact hopen
    · rw [hnil] at hpos
      exact absurd hpos (Nat.lt_irrefl _)
  · rw [if_neg hcur] at hpos
    exact h.good.opened id hpos

/-- The first request of another row is in no entry of this one. -/
theorem Posting.first_kept (h : Posting sh g x reqs qs cqes) {slot j : Nat} {o : Owner}
    (ho : x.owner slot 0 = some o) (hrep : o.serial ∉ x.reported)
    (hj : x.s.comm.sendReqs slot 0 = some j) (hslot : slot ≠ slotOf x.s.comm.base.fifoHead) :
    reqs j = x.s.comm.base.reqs j := by
  refine h.others j fun r hr hrow => ?_
  obtain ⟨o', ho', hrep'⟩ := h.full r hr
  obtain ⟨k, _, hk, hser, _⟩ := h.good.rows.open_req _ _ _ ho' hrep'
  obtain ⟨k', _, hk', hser', _⟩ := h.good.rows.open_req _ _ _ ho hrep
  have hkj : x.s.comm.sendReqs (slotOf x.s.comm.base.fifoHead) r = some k := hk
  have hkj' : x.s.comm.sendReqs slot 0 = some k' := hk'
  rw [hrow] at hkj
  rw [hj] at hkj'
  cases hkj
  cases hkj'
  exact hslot (h.good.rows.one_entry _ _ _ _ _ _ ho ho' (hser'.symm.trans hser)).1

theorem Posting.marked (h : Posting sh g x reqs qs cqes) {slot j : Nat} {o : Owner}
    (ho : x.owner slot 0 = some o) (hrep : o.serial ∉ x.reported)
    (hlt : o.id < x.s.comm.base.fifoHead + 1) (hj : x.s.comm.sendReqs slot 0 = some j) :
    ∀ q ∈ partsOf sh x.s.comm.base o.id, (reqs j).send.sentData q = true := by
  by_cases hsame : slot = slotOf x.s.comm.base.fifoHead
  · subst hsame
    exact h.marks j o ho hj
  · have hne : o.id ≠ x.s.comm.base.fifoHead := by
      rintro heq
      exact hsame ((h.good.rows.owner _ _ _ ho).1.symm.trans (congrArg slotOf heq))
    rw [h.first_kept ho hrep hj hsame]
    exact h.good.marked slot j o ho hrep (by omega) hj

/-- The invariant holds when the group is out. -/
theorem Posting.failoverGood (h : Posting sh g x reqs qs cqes) :
    FailoverGood sh g (x.sendOut reqs cqes) :=
  { h.good with
    rows := (h.good.rows.reqs_change
        (fun j => ⟨(h.keep j).1, (h.keep j).2.1, (h.keep j).2.2.1⟩)).posted h.pos
      (fun r hr => (h.full r hr).imp (fun _ ho => ho.1))
    sent := fun _ hp => h.sent hp
    waits := fun _ hj hlive hlt => h.waits hj hlive hlt
    covered := fun _ hj hlive hlt => h.covered hj hlive hlt
    whole := fun _ hj hlive hcur => absurd hcur (h.not_later hj hlive)
    opened := fun _ hpos => h.opened hpos
    marked := fun _ _ _ ho hrep hlt hj => h.marked ho hrep hlt hj
    pend := fun c hc => by
      have hc' : c ∈ x.pend ∨ c ∈ cqes := by
        unfold FailoverState.pend FailoverState.sendOut at hc
        unfold FailoverState.pend
        simp only [List.mem_append] at hc ⊢
        tauto
      exact hc'.elim (h.good.pend c) (h.pend c)
    call_live := fun call hc => by
      obtain ⟨hr, hlive⟩ := h.good.call_live call hc
      exact ⟨hr, fun hu => hlive ((h.keep call.r).1.symm.trans hu)⟩
    logged := fun j hj hlive o ho hser =>
      (h.good.logged j hj (h.live hlive) o ho hser).trans (h.keep j).2.1.symm
    arrived := h.good.arrived }

end

/-! ## A call of ncclIbIsend -/

theorem FailoverGood.cts_nreqs (hg : GroupsOk g) (h : FailoverGood sh g x)
    (hthere : CtsThere x.s.comm) :
    (x.s.comm.ctsFifo (slotOf x.s.comm.base.fifoHead) 0).nreqs =
      groupSize g x.s.comm.base.fifoHead := by
  rcases h.cts (slotOf x.s.comm.base.fifoHead) 0 with h0 | ⟨k, _, helem⟩
  · have := hthere.1
    omega
  · have hidx := hg.idx k 0 _ helem
    have hk : k = x.s.comm.base.fifoHead := by
      have := hthere.1
      omega
    rw [hk] at helem
    exact hg.nreqs _ _ _ helem

/-- What `ncclIbMultiSend` does with a full row. -/
theorem FailoverGood.multiSend (hg : GroupsOk g) (h : FailoverGood sh g x)
    (huse : AllInUse sh x.s.comm.base x.s.res.base) (hgen : ∀ id, x.gen id = 0)
    (hn : (x.s.comm.ctsFifo (slotOf x.s.comm.base.fifoHead) 0).nreqs =
      groupSize g x.s.comm.base.fifoHead)
    (hpos : 0 < groupSize g x.s.comm.base.fifoHead)
    (hfull : ∀ r < groupSize g x.s.comm.base.fifoHead,
      ∃ o, x.owner (slotOf x.s.comm.base.fifoHead) r = some o ∧ o.serial ∉ x.reported)
    {env : NetEnv} {comm' : NcclIbSendComm} {posts : List SendPost}
    (hsend : ncclIbMultiSend env x.s.comm (slotOf x.s.comm.base.fifoHead) = .ok (comm', posts)) :
    FailoverGood sh g { x with
      s := { x.s with comm := sentComm comm' }
      sq := x.sq ++ partCqes x.s.comm.base x.s.comm.base.fifoHead 0 posts
        (postedIndexes (fun _ => false) (partsOf sh x.s.comm.base x.s.comm.base.fifoHead)) } := by
  have hentry : ∀ r < groupSize g x.s.comm.base.fifoHead,
      (x.s.comm.sendReqs (slotOf x.s.comm.base.fifoHead) r).isSome := by
    intro r hr
    obtain ⟨o, ho, hrep⟩ := hfull r hr
    obtain ⟨j, _, hj, _⟩ := h.rows.open_req _ _ _ ho hrep
    have hj' : x.s.comm.sendReqs (slotOf x.s.comm.base.fifoHead) r = some j := hj
    rw [hj']
    rfl
  obtain ⟨call, imm, reqs, posts', hok, hslot, hfor, hframe, hothers, hmarks⟩ :=
    multiSend_parts env huse.striped h.context huse.isSome (hn ▸ hpos) (hn ▸ hg.length_le _) (hn ▸ hentry)
  obtain ⟨rfl, rfl⟩ := Prod.mk.inj (Except.ok.inj (hsend.symm.trans hok))
  obtain ⟨o, ho, hrep⟩ := hfull 0 hpos
  obtain ⟨i, hi, hsend0, _, htype, hid, _⟩ := h.rows.open_req _ _ _ ho hrep
  have hsend0' : x.s.comm.sendReqs (slotOf x.s.comm.base.fifoHead) 0 = some i := hsend0
  have hid' : (x.s.comm.base.reqs i).id = o.id := hid
  have hlive : (x.s.comm.base.reqs i).type ≠ NCCL_NET_IB_REQ_UNUSED := by
    rw [show (x.s.comm.base.reqs i).type = _ from htype]
    simp
  have hat : reqAt x.s.comm (slotOf x.s.comm.base.fifoHead) 0 = x.s.comm.base.reqs i := by
    unfold reqAt
    rw [hsend0']
    rfl
  rw [hat, hid'] at hfor hmarks
  rw [hsend0', Option.getD_some] at hmarks
  have hmarks' : ∀ j o', x.owner (slotOf x.s.comm.base.fifoHead) 0 = some o' →
      x.s.comm.sendReqs (slotOf x.s.comm.base.fifoHead) 0 = some j →
        ∀ q ∈ partsOf sh x.s.comm.base o'.id, (reqs j).send.sentData q = true := by
    intro j o' ho' hj
    have ho'' : x.owner (slotOf x.s.comm.base.fifoHead) 0 = some o := ho
    rw [ho''] at ho'
    rw [hsend0'] at hj
    cases ho'
    cases hj
    exact hmarks
  rw [hn] at hothers
  rcases Nat.lt_or_eq_of_le (h.rows.owner _ _ _ ho).2.1 with hlt | hcur
  · -- The row has an earlier group, whose parts have all been sent.
    rw [postedIndexes_nil (h.marked _ i o ho hrep hlt hsend0')] at hfor
    cases hfor
    exact Posting.failoverGood ⟨h, hgen, hpos, hfull, hframe, hothers, hmarks', rfl,
      fun c hc => (by cases hc), .inr rfl⟩
  · have hcur' : o.id = x.s.comm.base.fifoHead := hcur
    have hopen := h.rows.openGroup_full hfull ho hcur
    have hfresh := (h.whole i hi hlive (hid'.trans hcur')).2
    rw [show (x.s.comm.base.reqs i).send.sentData = fun _ => false from funext hfresh, hcur'] at hfor
    obtain ⟨hparts, hcqes⟩ := partCqes_eq x.s.comm.base x.s.comm.base.fifoHead 0 hfor
    refine Posting.failoverGood ⟨h, hgen, hpos, hfull, hframe, hothers, hmarks', hparts,
      fun c hc => ?_, .inl ⟨hopen, fun q hq => (mem_postedIndexes _ _).mpr ⟨hq, rfl⟩, ?_⟩⟩
    · obtain ⟨q, hq, hcid, hdevc, hwr⟩ := hcqes c hc
      rw [hwr, hslot, hcid, hdevc]
      exact ⟨huse.qpsOf_dev hq, multiSendWrId_slot _ _, multiSendWrId_ne_speed _ _⟩
    · refine Nat.le_trans (length_postedIndexes_le _ _) ?_
      unfold partsOf
      rw [List.length_map, List.length_range]

theorem failover_isend (hg : GroupsOk g) (h : FailoverGood sh g x) (hu : Unfailed sh x)
    {env : NetEnv} {a : IsendArgs} (hn : x.next g (.isend env a) = some y) : FailoverGood sh g y := by
  have hcall : x.call = none := by
    by_contra hsome
    simp only [FailoverState.next] at hn
    rw [if_pos (Option.isSome_iff_ne_none.mpr hsome)] at hn
    cases hn
  simp only [FailoverState.next, hcall] at hn
  rcases isend_cases hu.inUse.striped hu.inUse.isSome env a with
    ⟨hcomm, _, hret⟩ | ⟨r, i, hthere, hm, hi, hunused, hends⟩
  · simp only [hcomm] at hn
    split at hn
    · cases hn
    split at hn
    · cases hn
      rw [← hcall]
      exact h
    · cases hn
    · cases hn
      rw [← hcall]
      exact h
    · rename_i hsome
      exact absurd hsome (hret _)
  have hsize := h.cts_nreqs hg hthere
  obtain ⟨hr, hnone, _⟩ := matchEntry_cases hm
  have hentry : entryOf x.s.comm a = r := by
    unfold entryOf
    simp only [hm]
    rfl
  rw [hsize] at hr hends
  have hbound := h.bind hcall hr (Nat.lt_of_lt_of_le hr (hg.length_le _)) hnone hi hunused
    (wholeReq_bound h hu hsize a r i)
  have huse : AllInUse sh (x.bound r i (boundReq sh x.s.comm a r i)).s.comm.base x.s.res.base :=
    hu.inUse.same ⟨rfl, rfl, rfl, rfl, rfl, rfl, fun _ => rfl⟩
  generalize hreq : boundReq sh x.s.comm a r i = req at hends hbound huse
  generalize hout : ncclIbIsend env x.s.comm a = out at hn hends
  cases hends with
  | waits hcnt =>
    have hy : y = x.bound r i req := by
      rw [← Option.some.inj hn]
      unfold FailoverState.accept FailoverState.bound
      simp [hentry, partCqes]
    rw [hy]
    exact hbound
  | fails hcnt hsend =>
    have hle : ((bindEntry x.s.comm (slotOf x.s.comm.base.fifoHead) r i req).ctsFifo
        (slotOf x.s.comm.base.fifoHead) 0).nreqs ≤ NCCL_NET_IB_MAX_RECVS :=
      Nat.le_trans (Nat.le_of_eq hsize) (hg.length_le _)
    have hbad := multiSend_error huse.striped huse.isSome hle hsend
    rw [hbad] at hn
    cases hn
  | @posts comm' sent hcnt hsend =>
    have hpos : 0 < groupSize g x.s.comm.base.fifoHead := Nat.lt_of_le_of_lt (Nat.zero_le _) hr
    have hnew : (x.bound r i req).rows.owner (slotOf x.s.comm.base.fifoHead) r =
        some ⟨x.s.comm.base.fifoHead, x.nextSerial⟩ :=
      ((taken_bound r i req).owner _ _).trans (if_pos ⟨rfl, rfl⟩)
    have hfull := hbound.rows.row_open_of_full hg.length_le hnew rfl hcnt
    have hindexes : requestIndexes x.s.comm.base x.s.comm.base.fifoHead =
        partsOf sh x.s.comm.base x.s.comm.base.fifoHead := requestIndexes_eq hu.inUse _
    have hsent := hbound.multiSend hg huse hu.gen hsize hpos hfull hsend
    rw [← Option.some.inj hn]
    unfold FailoverState.accept
    simp only [hentry, hindexes]
    exact hsent

/-! ## The steps -/

/-- A CTS element arrives, or the speeds of the receiver do. -/
theorem FailoverGood.arrives (h : FailoverGood sh g x) {ctsFifo : Nat → Nat → NcclIbSendFifo}
    {buf : NcclIbRemoteSpeedBuf} (hcts : ∀ slot r, (ctsFifo slot r).idx = 0 ∨
      ∃ k, slotOf k = slot ∧ (g k)[r]? = some (ctsFifo slot r)) :
    FailoverGood sh g { x with s := { x.s with comm := { x.s.comm with
      ctsFifo, remoteSpeedBuf := buf } } } :=
  { h with cts := hcts }

theorem failover_cts (h : FailoverGood sh g x) {k r : Nat} {e : NcclIbSendFifo}
    (he : (g k)[r]? = some e) :
    FailoverGood sh g { x with s := { x.s with comm := { x.s.comm with
      ctsFifo := Function.update x.s.comm.ctsFifo (slotOf k)
        (Function.update (x.s.comm.ctsFifo (slotOf k)) r e) } } } := by
  refine h.arrives (fun slot r' => ?_)
  rw [update_row]
  split
  · rename_i hat
    exact .inr ⟨k, hat.1.symm, by rw [hat.2, he]⟩
  · exact h.cts slot r'

theorem failover_next (hg : GroupsOk g) (h : FailoverGood sh g x) (hu : Unfailed sh x)
    {act : FailoverAct} (hn : x.next g act = some y) : FailoverGood sh g y := by
  cases act with
  | isend env a => exact failover_isend hg h hu hn
  | cts k r =>
    simp only [FailoverState.next] at hn
    split at hn
    · cases hn
    rename_i e he
    split at hn
    · cases hn
      exact failover_cts h he
    · cases hn
  | testBegin r =>
    simp only [FailoverState.next] at hn
    split at hn
    · rename_i hbegin
      cases hn
      refine h.goOn ?_ rfl (fun c hc => by cases hc; exact hbegin.2)
      rw [hbegin.1]
      rfl
    · cases hn
  | test env n => exact failover_test hg h hu hn
  | complete q status =>
    simp only [FailoverState.next] at hn
    split at hn
    · cases hn
    rename_i c sq hpop
    cases hn
    exact failover_complete h hpop status
  | probeRead j flags =>
    simp only [FailoverState.next, hu.noProbes.1] at hn
    cases hn
  | probeDone j status =>
    simp only [FailoverState.next, hu.noProbes.1] at hn
    cases hn
  | thread d st =>
    simp only [FailoverState.next] at hn
    split at hn
    · cases hn
      exact { h with }
    · cases hn
  | speed buf =>
    cases hn
    exact h.arrives h.cts

end

/-! ## The law -/

/-- A send is reported done only when each part of its group was acknowledged, or was
found in the completion record by a probe. -/
theorem reported_sends_have_arrived (sh : Shape) (g : Nat → List NcclIbSendFifo)
    (x : FailoverState) (hg : GroupsOk g) (hr : runs.Reachable (failoverSystem sh g) x) :
    SendsArrived x := by
  have hkept : Unfailed sh x ∧ FailoverGood sh g x := by
    refine hr.invariant (P := fun x => Unfailed sh x ∧ FailoverGood sh g x) ?_ ?_
    · exact fun s h0 => ⟨h0.unfailed, good_failover_init h0⟩
    · rintro s t _ ⟨hu, h⟩ ⟨act, hn⟩
      exact ⟨unfailed_next hu hn, failover_next hg h hu hn⟩
  exact hkept.2.sendsArrived hkept.1

/-! ## Two sends over two devices -/

/-- Receives of one buffer each, one group after the other. -/
def oneBuffer (k : Nat) : List NcclIbSendFifo :=
  [{ addr := 0x2000, size := 2 ^ 31, rkeys := fun _ => 7, nreqs := 1, tag := 0, idx := k + 1 }]

theorem groupsOk_oneBuffer : GroupsOk oneBuffer := by
  refine ⟨fun k => by simp [oneBuffer, NCCL_NET_IB_MAX_RECVS], fun k r e he => ?_,
    fun k r e he => ?_⟩
  · rcases r with _ | r
    · cases he
      rfl
    · cases he
  · rcases r with _ | r
    · cases he
      rfl
    · cases he

/-- A send comm on two devices before its first call. -/
def startFailover : FailoverState :=
  { s :=
      { comm := { freshSend pairShape with
          base := { freshBase pairShape true with resiliency := true } }
        res := freshSendRes 2 }
    call := none, sq := [], cq := [], probeSq := [], probeCq := [], owner := fun _ _ => none
    serialOf := fun _ => 0, nextSerial := 0, reported := [], log := [], gen := fun _ => 0
    acked := [], lost := [], answered := [] }

theorem init_startFailover : FailoverState.Init pairShape startFailover where
  striped := { striped_freshBase pairShape true with }
  context := rfl
  ndevs := rfl
  active := fun _ _ => rfl
  ok := fun _ _ => rfl
  failedRequests := fun _ => rfl
  fifoHead := rfl
  reqs := fun _ _ => rfl
  ctsFifo := fun _ _ => rfl
  sendReqs := fun _ _ => rfl
  sendReqsCnt := fun _ => rfl
  call := rfl
  sq := rfl
  cq := rfl
  probeSq := rfl
  probeCq := rfl
  owner := fun _ _ => rfl
  nextSerial := rfl
  reported := rfl
  log := rfl
  gen := fun _ => rfl
  acked := rfl
  lost := rfl
  answered := rfl

/-- `k` pieces of a call at time `now`, whose polls return nothing. -/
def pieces (now k : Nat) : List FailoverAct :=
  List.replicate k (.test ⟨plainEnv, { now }⟩ 0)

/-- A send of 1024 bytes is posted on both devices. -/
def postOnBoth : FailoverAct :=
  .isend plainEnv { data := 0x1000, size := 1024, tag := 0, lkeys := fun _ => 1 }

/-- A piece whose poll returns up to `n` completions. -/
def polls (now n : Nat) : FailoverAct := .test ⟨plainEnv, { now }⟩ n

/-- Both sends are posted on both devices. The first arrives, and a test reports it. The
part of the second on device 1 fails, and the test of it returns an error. -/
def doneAndFailed : List FailoverAct :=
  [.cts 0 0, postOnBoth, .cts 1 0, postOnBoth,
    .complete 1 .IBV_WC_SUCCESS, .complete 0 .IBV_WC_SUCCESS, .testBegin 0] ++ pieces 0 2 ++
    [polls 0 4] ++ pieces 0 2 ++ [polls 0 4] ++ pieces 0 4 ++
    [.complete 0 .IBV_WC_SUCCESS, .complete 1 .other, .testBegin 1] ++ pieces 0 2 ++
    [polls 0 4] ++ pieces 0 2 ++ [polls 0 4] ++ pieces 0 1

/-- The first send has arrived, and the second is never reported. -/
theorem a_send_arrives_and_another_fails :
    ∃ x, runs.Reachable (failoverSystem pairShape oneBuffer) x ∧ x.reported = [0] ∧
      x.log = [⟨0, 0⟩, ⟨1, 1⟩] ∧ x.acked.length = 3 ∧ x.lost = [⟨1, 0, 1⟩] ∧ SendsArrived x := by
  have hrun : (runs.follow (FailoverState.next oneBuffer) doneAndFailed startFailover).any
      (fun x => x.reported == [0] && x.log == [⟨0, 0⟩, ⟨1, 1⟩] && x.acked.length == 3 &&
        x.lost == [⟨1, 0, 1⟩]) = true := by
    decide +kernel
  obtain ⟨x, hx, hend⟩ := (Option.any_eq_true _ _).mp hrun
  simp only [Bool.and_eq_true, beq_iff_eq] at hend
  obtain ⟨⟨⟨hrep, hlog⟩, hacked⟩, hlost⟩ := hend
  have hstep : ∀ a s t, FailoverState.next oneBuffer a s = some t →
      (failoverSystem pairShape oneBuffer).step s t := fun a _ _ ha => ⟨a, ha⟩
  have hinit : (failoverSystem pairShape oneBuffer).init startFailover := init_startFailover
  have hreach := (runs.Reachable.init hinit).follow hstep hx
  exact ⟨x, hreach, hrep, hlog, hacked, hlost,
    reported_sends_have_arrived pairShape oneBuffer x groupsOk_oneBuffer hreach⟩

end net_ib.resiliency
