-- The pieces of ncclIbTest keep the invariant of a send comm with a resiliency
-- context: the loop over the devices, a completion that is acknowledged or lost, and a
-- send that is reported done.
import MrcPlugin.FailoverGood
import MrcPlugin.IsendSteps

namespace net_ib.resiliency

open p2p recovery queues resends

section
variable {sh : Shape} {g : Nat → List NcclIbSendFifo} {x y : FailoverState}

/-! ## The loop over the devices -/

theorem good_device (h : FailoverGood sh g x) (hu : Unfailed sh x) {r i t n : Nat}
    (hcall : x.call = some ⟨r, .device i t⟩)
    (hn : x.afterTest ⟨r, .device i t⟩ (failoverDevice x.s ⟨x.cq, x.probeCq⟩ r i t n) = some y) :
    FailoverGood sh g y := by
  have hhand : handOf x.call = [] := by
    rw [hcall]
    rfl
  unfold failoverDevice at hn
  split at hn
  · split at hn
    · exact h.plain hu hcall hhand (fun _ he => by cases he; rfl) (fun _ he => by cases he) hn
    · exact h.plain hu hcall hhand (fun _ he => by cases he) (fun _ he => by cases he) hn
  split at hn
  · exact h.plain hu hcall hhand (fun _ he => by cases he; rfl) (fun _ he => by cases he) hn
  have hperm := popUpTo_perm (fun c : SendCqe => c.dev = i) x.cq (min n 4)
  have hfits := popUpTo_fits (fun c : SendCqe => c.dev = i) x.cq (min n 4)
  generalize popUpTo (fun c : SendCqe => decide (c.dev = i)) (min n 4) x.cq = popped
    at hn hperm hfits
  obtain ⟨wcs, rest⟩ := popped
  simp only at hn hperm hfits
  unfold FailoverState.afterTest FailoverState.after at hn
  simp only [probedGroup] at hn
  cases hn
  have hpend : x.pend = x.sq ++ x.cq := by
    unfold FailoverState.pend
    rw [hhand, List.append_nil]
  have hall : (x.sq ++ rest ++ wcs).Perm x.pend := by
    rw [hpend, List.append_assoc]
    exact (List.perm_append_comm.trans hperm.symm).append_left _
  refine h.move ((hall.map SendCqe.part).append_right _) (fun c hc => ⟨c.status, hall.mem_iff.mp hc⟩)
    (fun c hc => ?_) (fun r' i' t' w' wcs' hc c hmem => ?_)
  · cases hc
    exact h.call_live ⟨r, .device i t⟩ hcall
  · cases hc
    have := hfits c hmem
    simpa using this

/-! ## A completion with error -/

/-- A completion with error is charged to no counter. The call ends, and the other
completions in the hand are gone with it. -/
theorem good_error (h : FailoverGood sh g x) (hu : Unfailed sh x) {r i t w n : Nat}
    {env : FailoverEnv} {c : SendCqe} {wcs : List SendCqe}
    (hcall : x.call = some ⟨r, .completions i t w (c :: wcs)⟩) (hfailed : c.status ≠ .IBV_WC_SUCCESS)
    (hn : x.afterTest ⟨r, .completions i t w (c :: wcs)⟩
      (failoverTest env x.s ⟨x.cq, x.probeCq⟩ ⟨r, .completions i t w (c :: wcs)⟩ n) = some y) :
    FailoverGood sh g y := by
  have hpend : x.pend = x.sq ++ x.cq ++ c :: wcs := by
    unfold FailoverState.pend
    rw [hcall]
    rfl
  have hspeed := (h.pend c (by rw [hpend]; simp)).2.2
  simp only [failoverTest, failoverCompletions, sendCompletion, if_neg hfailed, if_neg hspeed] at hn
  rcases hu.error env.res c.status c.wr_id (hu.place _ hcall) with hfatal | hbad
  · rw [hfatal] at hn
    unfold FailoverState.afterTest FailoverState.after at hn
    simp only [probedGroup, if_neg hfailed, hcall, handOf, List.drop_succ_cons,
      List.drop_zero] at hn
    cases hn
    refine h.move ?_ (fun c' hc' => ?_) (fun c' hc' => by cases hc')
      (fun r' i' t' w' wcs' hc' => by cases hc')
    · show List.Perm _ (x.pend.map SendCqe.part ++ x.lost)
      rw [hpend]
      simp only [handOf, List.map_append, List.map_cons, List.append_assoc, List.map_nil,
        List.nil_append, List.cons_append]
      refine List.Perm.append_left _ (List.Perm.append_left _ ?_)
      exact List.perm_append_comm.trans (by simp)
    · refine ⟨c'.status, ?_⟩
      rw [hpend]
      rw [show handOf (none : Option FailoverCall) = [] from rfl, List.append_nil] at hc'
      exact List.mem_append_left _ hc'
  · generalize sendCompletionError env.res x.s c.status c.wr_id i = out at hn hbad
    obtain ⟨s, ret⟩ := out
    obtain rfl : ret = .error .badPointer := hbad
    cases hn

/-! ## A completion is acknowledged -/

theorem chargeAll_keeps (reqs : Nat → NcclIbRequest) (group : List Nat) (d j : Nat) :
    (chargeAll reqs group d j).type = (reqs j).type ∧ (chargeAll reqs group d j).id = (reqs j).id ∧
      (chargeAll reqs group d j).nreqs = (reqs j).nreqs ∧
      (chargeAll reqs group d j).send = (reqs j).send := by
  unfold chargeAll
  split <;> exact ⟨rfl, rfl, rfl, rfl⟩

/-- A completion finds the sends of its own group in the row, and charges each once. -/
theorem FailoverGood.charges (h : FailoverGood sh g x) {c : SendCqe} (hc : c ∈ x.pend) (d : Nat) :
    ∃ group : List Nat, (∀ i < NET_IB_MAX_REQUESTS, i ∈ group ↔
        (x.s.comm.base.reqs i).type ≠ NCCL_NET_IB_REQ_UNUSED ∧
          (x.s.comm.base.reqs i).id = c.part.id) ∧
      sendEventProcess x.s.comm (wcOf x.s.comm.base c) d =
        ⟨x.s.comm.withReqs (chargeAll x.s.comm.base.reqs group d), [], .ok ()⟩ := by
  obtain ⟨_, hwr, hspeed⟩ := h.pend c hc
  have hin : c.part ∈ x.ledger.waiting := List.mem_append_left _ (List.mem_map_of_mem hc)
  have hopen := h.opened c.part.id (count_pos_iff.mpr ⟨c.part, hin, rfl, (h.sent _ hin).2⟩)
  have hpos := h.rows.posted_pos c.part.id (h.sent _ hin).1
  obtain ⟨f, hf, hnd, hgroup⟩ := h.rows.group hopen
  obtain ⟨_, hsend0, htype0, hid0, hn0⟩ := hf 0 hpos
  have hcharge := chargeSends_ok (slotOf c.part.id) d f (List.range (groupSize g c.part.id))
    x.s.comm (fun j hj => (hf j (List.mem_range.mp hj)).2.1) hnd
    (fun hres => absurd (hres.symm.trans h.context) (by simp))
  refine ⟨(List.range (groupSize g c.part.id)).map f, hgroup, ?_⟩
  have hsend0' : x.s.comm.sendReqs (slotOf c.part.id) 0 = some (f 0) := hsend0
  have htype0' : (x.s.comm.base.reqs (f 0)).type = NCCL_NET_IB_REQ_SEND := htype0
  have hid0' : (x.s.comm.base.reqs (f 0)).id = c.part.id := hid0
  have hn0' : (x.s.comm.base.reqs (f 0)).nreqs = groupSize g c.part.id := hn0
  unfold sendEventProcess sendRetrieve wcOf
  simp only [if_neg hspeed, Bool.not_true, Bool.false_eq_true, if_false, hwr, hsend0', htype0',
    ne_eq, not_true_eq_false, hid0', hn0', hcharge]

/-- A test has completion `c` in hand, which charges the sends in `group`. -/
structure Acking (sh : Shape) (g : Nat → List NcclIbSendFifo) (x : FailoverState) (i : Nat)
    (c : SendCqe) (wcs : List SendCqe) (group : List Nat) : Prop where
  good : FailoverGood sh g x
  dev : i < sh.ndevs
  pend : x.pend.Perm (c :: (x.sq ++ x.cq ++ wcs))
  group : ∀ j < NET_IB_MAX_REQUESTS, j ∈ group ↔
    (x.s.comm.base.reqs j).type ≠ NCCL_NET_IB_REQ_UNUSED ∧ (x.s.comm.base.reqs j).id = c.part.id

/-- The ledger after the completion. -/
def FailoverState.ackLedger (x : FailoverState) (c : SendCqe) (wcs : List SendCqe) : Ledger :=
  { x.ledger with
    waiting := (x.sq ++ x.cq ++ wcs).map SendCqe.part ++ x.lost
    acked := x.acked ++ [c.part] }

section
variable {i : Nat} {c : SendCqe} {wcs : List SendCqe} {group : List Nat}

theorem Acking.waiting (h : Acking sh g x i c wcs group) : x.ledger.waiting.Perm
    (c.part :: ((x.sq ++ x.cq ++ wcs).map SendCqe.part ++ x.lost)) := by
  show (x.pend.map SendCqe.part ++ x.lost).Perm _
  exact (h.pend.map SendCqe.part).append_right _

theorem Acking.part_waits (h : Acking sh g x i c wcs group) : c.part ∈ x.ledger.waiting :=
  h.waiting.mem_iff.mpr (List.mem_cons_self ..)

theorem Acking.posted (h : Acking sh g x i c wcs group) : c.part.id < x.s.comm.base.fifoHead :=
  (h.good.sent _ h.part_waits).1

theorem Acking.pos (h : Acking sh g x i c wcs group) : 0 < x.ledger.count c.part.id :=
  count_pos_iff.mpr ⟨c.part, h.part_waits, rfl, (h.good.sent _ h.part_waits).2⟩

/-- One part less of the group of the completion waits. -/
theorem Acking.count (h : Acking sh g x i c wcs group) (id : Nat) :
    x.ledger.count id = (x.ackLedger c wcs).count id + if id = c.part.id then 1 else 0 := by
  have hlatest := (h.good.sent _ h.part_waits).2
  unfold FailoverState.ackLedger
  rw [count_ack h.waiting]
  congr 1
  by_cases hsame : id = c.part.id
  · rw [if_pos hsame, if_pos (latest_iff.mpr ⟨hsame.symm, by rw [hsame]; exact hlatest⟩)]
  · rw [if_neg hsame, if_neg (fun hc => hsame (latest_iff.mp hc).1.symm)]

theorem chargeAll_other {reqs : Nat → NcclIbRequest} {j : Nat} (hj : j ∉ group) :
    chargeAll reqs group i j = reqs j := if_neg hj

theorem Acking.eventSum_charged (h : Acking sh g x i c wcs group) {j : Nat} (hj : j ∈ group) :
    eventSum sh (chargeAll x.s.comm.base.reqs group i j) =
      eventSum sh (x.s.comm.base.reqs j) - 1 := by
  unfold chargeAll
  rw [if_pos hj, eventSum_takeEvent h.dev]

/-- A request waits for the parts of its group that are left. -/
theorem Acking.waits (h : Acking sh g x i c wcs group) {j : Nat} (hj : j < NET_IB_MAX_REQUESTS)
    (hlive : (x.s.comm.base.reqs j).type ≠ NCCL_NET_IB_REQ_UNUSED)
    (hposted : (x.s.comm.base.reqs j).id < x.s.comm.base.fifoHead) :
    ((x.ackLedger c wcs).count (x.s.comm.base.reqs j).id : Int) ≤
      eventSum sh (chargeAll x.s.comm.base.reqs group i j) := by
  have hold := h.good.waits j hj hlive hposted
  rw [h.count] at hold
  by_cases hsame : (x.s.comm.base.reqs j).id = c.part.id
  · rw [if_pos hsame, Nat.cast_add, Nat.cast_one] at hold
    rw [h.eventSum_charged ((h.group j hj).mpr ⟨hlive, hsame⟩)]
    exact Int.le_sub_one_of_lt hold
  · rw [if_neg hsame] at hold
    rw [chargeAll_other (fun hm => hsame ((h.group j hj).mp hm).2)]
    exact hold

theorem Acking.covered (h : Acking sh g x i c wcs group) {j : Nat} (hj : j < NET_IB_MAX_REQUESTS)
    (hlive : (x.s.comm.base.reqs j).type ≠ NCCL_NET_IB_REQ_UNUSED)
    (hposted : (x.s.comm.base.reqs j).id < x.s.comm.base.fifoHead) :
    (x.ackLedger c wcs).Covers (x.s.comm.base.reqs j).id
        (partsOf sh x.s.comm.base (x.s.comm.base.reqs j).id) ∨
      (0 < eventSum sh (chargeAll x.s.comm.base.reqs group i j) ∧
        (x.ackLedger c wcs).count (x.s.comm.base.reqs j).id = 0) := by
  rcases h.good.covered j hj hlive hposted with hcov | ⟨hsum, hzero⟩
  · exact .inl (hcov.ack h.waiting)
  · -- A group without parts in flight is not the one of the completion.
    have hne : (x.s.comm.base.reqs j).id ≠ c.part.id := by
      intro heq
      have hpos := h.pos
      rw [heq] at hzero
      omega
    rw [h.count, if_neg hne] at hzero
    rw [chargeAll_other (fun hm => hne ((h.group j hj).mp hm).2)]
    exact .inr ⟨hsum, hzero⟩

/-- A request of the current group has no part in flight, so it is not charged. -/
theorem Acking.current (h : Acking sh g x i c wcs group) {j : Nat} (hj : j < NET_IB_MAX_REQUESTS)
    (hcur : (x.s.comm.base.reqs j).id = x.s.comm.base.fifoHead) :
    chargeAll x.s.comm.base.reqs group i j = x.s.comm.base.reqs j := by
  refine chargeAll_other (fun hm => ?_)
  have heq := ((h.group j hj).mp hm).2
  have hposted := h.posted
  omega

end

/-- Each send of the group of the completion waits for one event less. -/
theorem good_ack (h : FailoverGood sh g x) (hu : Unfailed sh x) {r i t w n : Nat}
    {env : FailoverEnv} {c : SendCqe} {wcs : List SendCqe}
    (hcall : x.call = some ⟨r, .completions i t w (c :: wcs)⟩) (hsucc : c.status = .IBV_WC_SUCCESS)
    (hn : x.afterTest ⟨r, .completions i t w (c :: wcs)⟩
      (failoverTest env x.s ⟨x.cq, x.probeCq⟩ ⟨r, .completions i t w (c :: wcs)⟩ n) = some y) :
    FailoverGood sh g y := by
  have hpend : x.pend.Perm (c :: (x.sq ++ x.cq ++ wcs)) := by
    unfold FailoverState.pend
    rw [hcall]
    exact List.perm_middle
  obtain ⟨group, hgroup, hevent⟩ := h.charges (hpend.mem_iff.mpr (List.mem_cons_self ..)) i
  have hack : Acking sh g x i c wcs group := ⟨h, hu.place _ hcall, hpend, hgroup⟩
  have hkeep := chargeAll_keeps x.s.comm.base.reqs group i
  have hlive : ∀ {j}, (chargeAll x.s.comm.base.reqs group i j).type ≠ NCCL_NET_IB_REQ_UNUSED →
      (x.s.comm.base.reqs j).type ≠ NCCL_NET_IB_REQ_UNUSED :=
    fun {j} hl hu => hl ((hkeep j).1.trans hu)
  simp only [failoverTest, failoverCompletions, sendCompletion, if_pos hsucc, hevent] at hn
  unfold FailoverState.afterTest FailoverState.after at hn
  simp only [probedGroup, if_pos hsucc] at hn
  cases hn
  refine
    { h with
      rows := h.rows.reqs_change (fun j => ⟨(hkeep j).1, (hkeep j).2.1, (hkeep j).2.2.1⟩)
      sent := fun p hp => h.sent p (hack.waiting.mem_iff.mpr (List.mem_cons_of_mem _ hp))
      waits := fun j hj hl hposted => ?_
      covered := fun j hj hl hposted => ?_
      whole := fun j hj hl hcur => ?_
      opened := fun id hpos => h.opened id (by
        rw [hack.count]
        exact Nat.lt_of_lt_of_le hpos (Nat.le_add_right _ _))
      marked := fun slot j o ho hrep hlt hj q hq => ?_
      pend := fun c' hc' => h.pend c' (hpend.mem_iff.mpr (List.mem_cons_of_mem _ hc'))
      call_live := fun call hc => ?_
      hand := fun r' i' t' w' wcs' hc c' hc' => ?_
      logged := fun j hj hl o ho hser => ?_
      arrived := fun o ho hrep q hq => ?_ }
  · have hwaits := hack.waits hj (hlive hl) ((hkeep j).2.1.symm ▸ hposted)
    rw [← (hkeep j).2.1] at hwaits
    exact hwaits
  · have hcovered := hack.covered hj (hlive hl) ((hkeep j).2.1.symm ▸ hposted)
    rw [← (hkeep j).2.1] at hcovered
    exact hcovered
  · have hcur' : (x.s.comm.base.reqs j).id = x.s.comm.base.fifoHead := (hkeep j).2.1.symm.trans hcur
    rw [show (x.s.comm.withReqs (chargeAll x.s.comm.base.reqs group i)).base.reqs j =
      x.s.comm.base.reqs j from hack.current hj hcur']
    exact h.whole j hj (hlive hl) hcur'
  · show (chargeAll x.s.comm.base.reqs group i j).send.sentData q = true
    rw [(hkeep j).2.2.2]
    exact h.marked slot j o ho hrep hlt hj q hq
  · cases hc
    obtain ⟨hr, hl⟩ := h.call_live _ hcall
    exact ⟨hr, fun hu => hl ((hkeep r).1.symm.trans hu)⟩
  · cases hc
    exact h.hand _ _ _ _ _ hcall c' (List.mem_cons_of_mem _ hc')
  · exact (h.logged j hj (hlive hl) o ho hser).trans (hkeep j).2.1.symm
  · rcases h.arrived o ho hrep q hq with ⟨p, hp, hpart⟩ | hknown
    · exact .inl ⟨p, List.mem_append_left _ hp, hpart⟩
    · exact .inr hknown

/-! ## A send is reported done -/

theorem partsOf_same {b0 b : NcclIbNetCommBase} (hb : SameBase b0 b) (id : Nat) :
    partsOf sh b id = partsOf sh b0 id := by
  unfold partsOf reqQpIndex
  rw [hb.reqQps]

/-- A request that is complete is of a group of the past, and all parts of the group
have arrived. -/
theorem complete_arrived (h : FailoverGood sh g x) (hu : Unfailed sh x) {i : Nat}
    (hi : i < NET_IB_MAX_REQUESTS) (hlive : (x.s.comm.base.reqs i).type ≠ NCCL_NET_IB_REQ_UNUSED)
    (hdone : requestIsComplete x.s.res.base (x.s.comm.base.reqs i) = true) :
    (x.s.comm.base.reqs i).id < x.s.comm.base.fifoHead ∧
      x.ledger.count (x.s.comm.base.reqs i).id = 0 ∧
      ∀ q ∈ partsOf sh x.s.comm.base (x.s.comm.base.reqs i).id,
        x.ledger.Arrived (x.s.comm.base.reqs i).id q := by
  obtain ⟨_, _, r, _, ho⟩ := h.rows.live i hi hlive
  have hle : (x.s.comm.base.reqs i).id ≤ x.s.comm.base.fifoHead := (h.rows.owner _ _ _ ho).2.1
  have hid : (x.s.comm.base.reqs i).id < x.s.comm.base.fifoHead := by
    refine Nat.lt_of_le_of_ne hle (fun heq => ?_)
    have hwhole := (h.whole i hi hlive heq).1
    have hpos := reqQps_pos sh x.s.comm.base
    have hzero := eventSum_complete hu.inUse.ndevs (by omega) hdone
    omega
  have hwaits := h.waits i hi hlive hid
  have hzero := eventSum_complete hu.inUse.ndevs (by omega) hdone
  have hcount : x.ledger.count (x.s.comm.base.reqs i).id = 0 := by omega
  refine ⟨hid, hcount, ?_⟩
  rcases h.covered i hi hlive hid with hcov | ⟨hsum, _⟩
  · exact hcov.all_arrived hcount
  · omega

/-- The state after send `i` has been reported. -/
def FailoverState.report (x : FailoverState) (i : Nat) (s : ResSendComm) : FailoverState :=
  { x with
    s
    call := none
    reported := x.reported ++ [x.serialOf i]
    owner := fun slot r => if (s.comm.sendReqs slot r).isNone then none else x.owner slot r }

theorem done_report {i : Nat} {s : ResSendComm}
    (hrel : Released x.s.comm s.comm i (slotOf (x.s.comm.base.reqs i).id)) :
    Rows.Done x.rows (x.report i s).rows i (slotOf (x.rows.reqs i).id) :=
  ⟨hrel.fifoHead, hrel.reqs, hrel.cnt, hrel.row, rfl, rfl, rfl, rfl⟩

theorem FailoverGood.report (hg : GroupsOk g) (h : FailoverGood sh g x) (hu : Unfailed sh x) {i : Nat}
    (hi : i < NET_IB_MAX_REQUESTS) (hlive : (x.s.comm.base.reqs i).type ≠ NCCL_NET_IB_REQ_UNUSED)
    (hdone : requestIsComplete x.s.res.base (x.s.comm.base.reqs i) = true)
    (hhand : handOf x.call = []) {s : ResSendComm}
    (hrel : Released x.s.comm s.comm i (slotOf (x.s.comm.base.reqs i).id)) :
    FailoverGood sh g (x.report i s) := by
  obtain ⟨hid, hzero, harrived⟩ := complete_arrived h hu hi hlive hdone
  have hd := done_report hrel
  have hsize : ∀ id, groupSize g id ≤ NCCL_NET_IB_MAX_RECVS := hg.length_le
  have hreqs : ∀ j, j ≠ i → s.comm.base.reqs j = x.s.comm.base.reqs j := by
    intro j hj
    rw [hrel.reqs, Function.update_of_ne hj]
  have hfree : ∀ j, (s.comm.base.reqs j).type ≠ NCCL_NET_IB_REQ_UNUSED → j ≠ i := by
    rintro j hj rfl
    rw [hrel.reqs, Function.update_self] at hj
    exact hj rfl
  have hpend : (x.report i s).pend = x.pend := by
    unfold FailoverState.pend
    rw [hhand]
    rfl
  have hledger : (x.report i s).ledger = x.ledger := by
    show (⟨x.gen, (x.report i s).pend.map SendCqe.part ++ x.lost, x.acked, x.answered⟩ : Ledger) = _
    rw [hpend]
    rfl
  have hparts : ∀ id, partsOf sh s.comm.base id = partsOf sh x.s.comm.base id :=
    partsOf_same hrel.same
  refine
    { context := hrel.same.resiliency.trans h.context
      cts := fun slot r => by
        show (s.comm.ctsFifo slot r).idx = 0 ∨ ∃ k, _ ∧ _ = some (s.comm.ctsFifo slot r)
        rw [hrel.ctsFifo]
        exact h.cts slot r
      rows := h.rows.done hsize hi hlive hid hd
      sent := fun p hp => ?_
      waits := fun j hj hlive' hlt => ?_
      covered := fun j hj hlive' hlt => ?_
      whole := fun j hj hlive' hcur => ?_
      opened := fun id' hpos => ?_
      marked := fun slot j o ho hrep hlt hj q hq => ?_
      pend := fun c hc => h.pend c (hpend ▸ hc)
      call_live := fun call hc => by cases hc
      hand := fun r i t w wcs hc => by cases hc
      log := h.log
      logged := fun j hj hlive' o ho hser => ?_
      arrived := fun o ho hrep q hq => ?_ }
  · rw [hledger] at hp
    show p.id < s.comm.base.fifoHead ∧ _
    rw [hrel.fifoHead]
    exact h.sent p hp
  · have hji := hfree j hlive'
    simp only [FailoverState.report, hreqs j hji, hrel.fifoHead] at hlive' hlt ⊢
    have hsame := h.waits j hj hlive' hlt
    rw [← hledger] at hsame
    exact hsame
  · have hji := hfree j hlive'
    rw [hledger]
    simp only [FailoverState.report, hreqs j hji, hrel.fifoHead, hparts] at hlive' hlt ⊢
    exact h.covered j hj hlive' hlt
  · have hji := hfree j hlive'
    simp only [FailoverState.report, hreqs j hji, hrel.fifoHead, hrel.same.reqQps] at hlive' hcur ⊢
    exact h.whole j hj hlive' hcur
  · rw [hledger] at hpos
    have hne : id' ≠ (x.s.comm.base.reqs i).id := by
      rintro rfl
      omega
    exact (h.rows.openGroup_done hsize hi hlive hd hne (h.opened id' hpos)).1
  · obtain ⟨ho', hkept⟩ := (hd.owner_iff h.rows _ _ _).mp ho
    have hrow := hd.row_eq slot 0
    rw [if_neg hkept] at hrow
    have hrow' : s.comm.sendReqs slot 0 = x.s.comm.sendReqs slot 0 := hrow
    have hj' : x.s.comm.sendReqs slot 0 = some j := hrow'.symm.trans hj
    have hrep' : o.serial ∉ x.reported ++ [x.serialOf i] := hrep
    rw [List.mem_append, List.mem_singleton, not_or] at hrep'
    have hji : j ≠ i := by
      rintro rfl
      obtain ⟨j', _, hj'', hser, _⟩ := h.rows.open_req _ _ _ ho' hrep'.1
      have hsame : x.s.comm.sendReqs slot 0 = some j' := hj''
      rw [hj'] at hsame
      cases hsame
      exact hrep'.2 hser.symm
    have hq' : q ∈ partsOf sh x.s.comm.base o.id := by
      rw [← hparts]
      exact hq
    have hlt' : o.id < x.s.comm.base.fifoHead := by
      rw [← hrel.fifoHead]
      exact hlt
    show (s.comm.base.reqs j).send.sentData q = true
    rw [hreqs j hji]
    exact h.marked slot j o ho' hrep'.1 hlt' hj' q hq'
  · have hji := hfree j hlive'
    simp only [FailoverState.report, hreqs j hji] at hlive' ⊢
    exact h.logged j hj hlive' o ho hser
  · rw [hledger]
    have hq' : q ∈ partsOf sh x.s.comm.base o.id := by
      rw [← hparts]
      exact hq
    rcases List.mem_append.mp hrep with hrep | hser
    · exact h.arrived o ho hrep q hq'
    · have hoid := h.logged i hi hlive o ho (List.mem_singleton.mp hser)
      rw [hoid] at hq' ⊢
      exact harrived q hq'

theorem good_top (hg : GroupsOk g) (h : FailoverGood sh g x) (hu : Unfailed sh x) {r n : Nat}
    {env : FailoverEnv} (hcall : x.call = some ⟨r, .top⟩)
    (hn : x.afterTest ⟨r, .top⟩ (failoverTest env x.s ⟨x.cq, x.probeCq⟩ ⟨r, .top⟩ n) = some y) :
    FailoverGood sh g y := by
  have hhand : handOf x.call = [] := by
    rw [hcall]
    rfl
  simp only [failoverTest, failoverTop] at hn
  split at hn
  · exact h.plain hu hcall hhand (fun _ he => by cases he) (fun _ he => by cases he) hn
  split at hn
  · rename_i hdone
    obtain ⟨hr, hlive⟩ := h.call_live _ hcall
    have hrel := sendRequestComplete_released env.net x.s.comm (h.rows.live r hr hlive).1
    generalize sendRequestComplete env.net x.s.comm r = out at hn hrel
    obtain ⟨comm', sizes⟩ := out
    unfold FailoverState.afterTest FailoverState.after at hn
    simp only [probedGroup, List.filterMap_nil, List.map_nil, List.append_nil] at hn
    cases hn
    exact h.report hg hu hr hlive hdone hhand (s := { x.s with comm := comm' }) hrel
  · exact h.plain hu hcall hhand (fun _ he => by cases he; rfl) (fun _ he => by cases he) hn

/-! ## Each piece -/

/-- Each piece of `ncclIbTest` keeps the invariant. -/
theorem failover_test (hg : GroupsOk g) (h : FailoverGood sh g x) (hu : Unfailed sh x)
    {env : FailoverEnv} {n : Nat} (hn : x.next g (.test env n) = some y) : FailoverGood sh g y := by
  simp only [FailoverState.next] at hn
  split at hn
  · cases hn
  rename_i call hcall
  obtain ⟨r, pc⟩ := call
  by_cases hpc : pc.inProgress
  · obtain ⟨base, pc', hout, _, hidle⟩ := hu.progress env n hcall hpc
    have hhand : handOf x.call = [] := by
      rw [hcall]
      cases pc <;> first | rfl | cases hpc
    rw [hout] at hn
    refine h.plain hu hcall hhand (fun _ he => ?_) (fun _ he => by cases he) hn
    cases he
    cases pc' <;> first | rfl | cases hidle
  cases pc with
  | top => exact good_top hg h hu hcall hn
  | device i t => exact good_device h hu hcall hn
  | completions i t w wcs =>
    cases wcs with
    | nil =>
      have hhand : handOf x.call = [] := by
        rw [hcall]
        rfl
      simp only [failoverTest, failoverCompletions] at hn
      split at hn
      · exact h.plain hu hcall hhand (fun _ he => by cases he; rfl) (fun _ he => by cases he) hn
      split at hn
      · exact h.plain hu hcall hhand (fun _ he => by cases he) (fun _ he => by cases he) hn
      · exact h.plain hu hcall hhand (fun _ he => by cases he; rfl) (fun _ he => by cases he) hn
    | cons c wcs =>
      by_cases hsucc : c.status = .IBV_WC_SUCCESS
      · exact good_ack h hu hcall hsucc hn
      · exact good_error h hu hcall hsucc hn
  | _ => exact absurd trivial hpc

end

end net_ib.resiliency
