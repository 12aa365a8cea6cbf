-- Slot reuse on the send side. A slot of sendReqs is shared by the groups whose
-- ids differ by a multiple of 256. The code has no test that the earlier group is
-- done: it only looks whether the entry of the send is NULL. That is enough
-- unless the later group has more entries than the earlier one.
import MrcPlugin.SendProgress

namespace net_ib.p2p

open queues counts runs

/-! ## The property -/

/-- A step within the guard. -/
def SendState.guarded (g : Nat → List NcclIbSendFifo) (act : SendAct) (s : SendState) :
    Option SendState :=
  if NoLateEntry g act s then s.next g act else none

/-- The rule of slot reuse. -/
structure SlotRule (g : Nat → List NcclIbSendFifo) (s : SendState) : Prop where
  /-- When a send is accepted, every entry of every earlier group of the slot had
  been taken by a send. -/
  complete : ∀ b ∈ s.log, ∀ k < b.id, slotOf k = slotOf b.id → ∀ r < (g k).length,
    ∃ a ∈ s.log, a.id = k ∧ a.r = r ∧ a.serial ∈ b.before
  /-- When a send is accepted, every send of an earlier group of the slot had been
  reported done. -/
  done : ∀ a ∈ s.log, ∀ b ∈ s.log, slotOf a.id = slotOf b.id → a.id < b.id →
    a.serial ∈ b.before
  /-- The entries of a slot belong to one id. -/
  one_id : ∀ slot, ∃ id, ∀ r i, s.comm.sendReqs slot r = some i →
    ∃ a ∈ s.log, s.owner slot r = some ⟨id, a.serial⟩ ∧ a.id = id ∧ a.r = r ∧
      (a.serial ∉ s.reported → (s.comm.base.reqs i).id = id ∧
        (s.comm.base.reqs i).type = NCCL_NET_IB_REQ_SEND)
  /-- The counter of a slot is the number of its sends that are not reported done. -/
  cnt : ∀ slot, s.comm.sendReqsCnt slot =
    (List.range NCCL_NET_IB_MAX_RECVS).countP (s.isOpen slot)
  /-- Only entries of the current group are posted. -/
  sent : ∀ x ∈ s.sent, ∀ o ∈ x.owners, ∃ serial, o = some ⟨x.id, serial⟩

/-! ## The law -/

section
variable {sh : Shape} {b0 : NcclIbNetCommBase} {g : Nat → List NcclIbSendFifo} {s t : SendState}

/-- The guard is enough for a free slot: an earlier group in the slot holds all
its entries, so the send can only find a later one, and it has no such tag. -/
theorem slotFree_of_guard (h : SendGood sh b0 g s) (hh : SendHistory g s) {env : NetEnv}
    {a : IsendArgs} {r : Nat} (hguard : NoLateEntry g (.isend env a) s) (hthere : CtsThere s.comm)
    (hmatch : matchEntry s.comm (slotOf s.comm.base.fifoHead) (g s.comm.base.fifoHead).length
      a.tag = some r) : s.SlotFree := by
  intro r0 o ho
  obtain ⟨hr, hnone, htag⟩ := matchEntry_cases hmatch
  obtain ⟨r1, o1, ho1, hrep⟩ := h.row_open _ _ _ ho
  obtain ⟨e, he, hid, _, hserial⟩ := hh.owner _ _ _ ho1
  have hsame := h.one_id _ _ _ _ _ ho ho1
  obtain ⟨hslot, hle, _, _⟩ := h.owner _ _ _ ho
  by_contra hne
  have hlt : o.id < s.comm.base.fifoHead := Nat.lt_of_le_of_ne hle hne
  have heid : e.id = o.id := hid.trans hsame.symm
  by_cases hin : r < (g o.id).length
  · have hsome := h.full _ _ _ ho hlt r hin
    rw [(h.entry _ _).mpr hnone] at hsome
    cases hsome
  · refine hguard e he (by rw [heid, hslot]) (heid ▸ hlt) (hserial ▸ hrep) hthere.1 r ?_ hr htag
    rw [heid]
    omega

theorem slots_reachable (hg : GroupsOk g)
    (hr : Reachable (sendSystem sh g (NoLateEntry g)) s) :
    ∃ b0, SendGood sh b0 g s ∧ SendHistory g s := by
  refine hr.invariant (P := fun s => ∃ b0, SendGood sh b0 g s ∧ SendHistory g s) ?_ ?_
  · intro s h0
    exact ⟨_, good_init h0, history_init h0⟩
  · rintro s t _ ⟨b0, h, hh⟩ ⟨act, hguard, hnext⟩
    obtain ⟨h', hdoes⟩ := send_step hg h
      (fun env a r hact hthere hm => by
        subst hact
        exact slotFree_of_guard h hh hguard hthere hm) hnext
    exact ⟨b0, h', history_step h h' hh hdoes⟩

theorem slotRule_of_good (h : SendGood sh b0 g s) (hh : SendHistory g s) : SlotRule g s := by
  refine ⟨?_, hh.done, ?_, h.cnt, hh.sent⟩
  · intro b hb k hk hslot r hr
    obtain ⟨a, ha, rfl, har⟩ := hh.covered k (Nat.lt_of_lt_of_le hk (hh.id_le b hb)) r hr
    exact ⟨a, ha, rfl, har, hh.done a ha b hb hslot hk⟩
  · intro slot
    by_cases hrow : ∃ r o, s.owner slot r = some o
    · obtain ⟨r0, o0, ho0⟩ := hrow
      refine ⟨o0.id, fun r i hsend => ?_⟩
      cases ho : s.owner slot r with
      | none =>
        rw [(h.entry slot r).mp ho] at hsend
        cases hsend
      | some o =>
        have hid := h.one_id _ _ _ _ _ ho ho0
        obtain ⟨a, ha, haid, har, hserial⟩ := hh.owner _ _ _ ho
        refine ⟨a, ha, ?_, haid.trans hid, har, fun hrep => ?_⟩
        · rw [hserial, ← hid]
        · obtain ⟨j, _, hj, _, htype, hjid, _⟩ := h.open_req _ _ _ ho (hserial ▸ hrep)
          rw [hsend] at hj
          cases hj
          exact ⟨hjid.trans hid, htype⟩
    · refine ⟨0, fun r i hsend => ?_⟩
      cases ho : s.owner slot r with
      | none =>
        rw [(h.entry slot r).mp ho] at hsend
        cases hsend
      | some o => exact absurd ⟨r, o, ho⟩ hrow

/-- In every run in which no send asks for a late entry of an unfinished slot, a
slot is only used again when its earlier group is done. -/
theorem a_slot_waits_for_its_earlier_group (sh : Shape) (g : Nat → List NcclIbSendFifo)
    (hg : GroupsOk g) (s : SendState) (hr : Reachable (sendSystem sh g (NoLateEntry g)) s) :
    SlotRule g s := by
  obtain ⟨_, h, hh⟩ := slots_reachable hg hr
  exact slotRule_of_good h hh

end

/-! ## Runs within the guard -/

theorem guarded_reachable {sh : Shape} {g : Nat → List NcclIbSendFifo} {acts : List SendAct}
    {t : SendState} (hrun : follow (SendState.guarded g) acts (startSend sh) = some t) :
    Reachable (sendSystem sh g (NoLateEntry g)) t := by
  have hsteps : ∀ act s t, SendState.guarded g act s = some t →
      (sendSystem sh g (NoLateEntry g)).step s t := by
    intro act s t hnext
    unfold SendState.guarded at hnext
    split at hnext
    · rename_i hguard
      exact ⟨act, hguard, hnext⟩
    · cases hnext
  exact (Reachable.init (init_startSend sh)).follow hsteps hrun

/-- A CTS element of group `k`. -/
def elemOf (k n tag : Nat) : NcclIbSendFifo :=
  { addr := 1, size := 8, rkeys := fun _ => 1, nreqs := n, tag, idx := k + 1 }

/-- Groups of two. -/
def pairGroups (k : Nat) : List NcclIbSendFifo := [elemOf k 2 0, elemOf k 2 1]

theorem groupsOk_pairGroups : GroupsOk pairGroups := by
  have helems : ∀ (k r : Nat) (e : NcclIbSendFifo), (pairGroups k)[r]? = some e →
      e.idx = k + 1 ∧ e.nreqs = 2 := by
    intro k r e he
    rcases r with _ | _ | r
    · cases he
      exact ⟨rfl, rfl⟩
    · cases he
      exact ⟨rfl, rfl⟩
    · cases he
  exact ⟨fun _ => (by decide : 2 ≤ 8), fun k r e he => (helems k r e he).1,
    fun k r e he => (helems k r e he).2⟩

/-- Two groups of two sends are posted, the first one with the second tag ahead. One of
its work requests is complete and waits in a queue. -/
def twoPairs : List SendAct :=
  let isend := fun tag => SendAct.isend plainEnv (sendOf tag)
  [.cts 0 0, .cts 0 1, isend 1, isend 0, .complete 0, .cts 1 0, .cts 1 1, isend 0, isend 1]

/-! ## Runs on one device -/

/-- Groups of one, but group 256 has a second entry. -/
def lateGroups (k : Nat) : List NcclIbSendFifo :=
  if k = 256 then [elemOf k 2 0, elemOf k 2 1] else [elemOf k 1 0]

theorem groupsOk_lateGroups : GroupsOk lateGroups := by
  have helems : ∀ (k r : Nat) (e : NcclIbSendFifo), (lateGroups k)[r]? = some e →
      e.idx = k + 1 ∧ e.nreqs = (lateGroups k).length := by
    intro k r e he
    unfold lateGroups at he ⊢
    split at he
    · rename_i hk
      rw [if_pos hk]
      rcases r with _ | _ | r
      · cases he
        exact ⟨rfl, rfl⟩
      · cases he
        exact ⟨rfl, rfl⟩
      · cases he
    · rename_i hk
      rw [if_neg hk]
      rcases r with _ | r
      · cases he
        exact ⟨rfl, rfl⟩
      · cases he
  refine ⟨fun k => ?_, fun k r e he => (helems k r e he).1, fun k r e he => (helems k r e he).2⟩
  unfold lateGroups NCCL_NET_IB_MAX_RECVS
  split <;> simp

/-- The send of group 0 waits to be tested. All later sends are done. -/
structure Waiting (k : Nat) (s : SendState) : Prop where
  ok : SendOk Shape.one (freshBase Shape.one true) lateGroups s
  call : s.call = none
  fifoHead : s.comm.base.fifoHead = k
  sq : s.sq.length ≤ 1
  cq : s.cq = []
  first : ∃ x ∈ s.log, x.id = 0 ∧ x.r = 0 ∧ x.serial = 0
  first_open : 0 ∉ s.reported
  others : ∀ n < s.nextSerial, n ≠ 0 → n ∈ s.reported

section
variable {k : Nat} {s : SendState}

theorem Waiting.owner (h : Waiting k s) : s.owner 0 0 = some ⟨0, 0⟩ := by
  obtain ⟨x, hx, hid, hr, hserial⟩ := h.first
  have := h.ok.history.unreported x hx (hserial ▸ h.first_open)
  rwa [hid, hr, hserial] at this

/-- The send of group 0 is the only one that is not reported. -/
theorem Waiting.only (h : Waiting k s) {slot r : Nat} {o : Owner} (ho : s.owner slot r = some o)
    (hrep : o.serial ∉ s.reported) : slot = 0 ∧ r = 0 := by
  have hlt := (h.ok.good.owner _ _ _ ho).2.2.2
  have hserial : o.serial = 0 := by
    by_contra hne
    exact hrep (h.others _ hlt hne)
  exact h.ok.good.one_entry _ _ _ _ _ _ ho h.owner hserial

/-- At most one request is in use. -/
theorem Waiting.unused (h : Waiting k s) :
    ∃ j < NET_IB_MAX_REQUESTS, (s.comm.base.reqs j).type = NCCL_NET_IB_REQ_UNUSED := by
  by_contra hall
  have hentry : ∀ j < NET_IB_MAX_REQUESTS, s.comm.sendReqs 0 0 = some j := by
    intro j hj
    obtain ⟨_, hrep, r, hsend, ho⟩ := h.ok.good.live j hj (fun hu => hall ⟨j, hj, hu⟩)
    obtain ⟨hslot, rfl⟩ := h.only ho hrep
    rwa [hslot] at hsend
  have h0 := hentry 0 (by decide)
  have h1 := hentry 1 (by decide)
  rw [h0] at h1
  cases h1

/-- A slot other than the first is empty. -/
theorem Waiting.empty (h : Waiting k s) {slot : Nat} (hslot : slot ≠ 0) (r : Nat) :
    s.owner slot r = none := by
  cases ho : s.owner slot r with
  | none => rfl
  | some o =>
    obtain ⟨r', o', ho', hrep⟩ := h.ok.good.row_open _ _ _ ho
    exact absurd (h.only ho' hrep).1 hslot

/-- A group of one after the first: its send is posted, tested and reported, and
the send of group 0 still waits. -/
theorem waiting_step (h : Waiting k s) (hk0 : 0 < k) (hk : k < 256) :
    ∃ t, GuardedPath Shape.one lateGroups s t ∧ Waiting (k + 1) t ∧ t.sq = [] := by
  have hg := groupsOk_lateGroups
  have hge : lateGroups s.comm.base.fifoHead = [elemOf k 1 0] := by
    rw [h.fifoHead, lateGroups, if_neg (by omega)]
  have hslot : slotOf s.comm.base.fifoHead ≠ 0 := by
    rw [h.fifoHead, slotOf, NET_IB_MAX_REQUESTS]
    omega
  obtain ⟨j, hj, hunused⟩ := h.unused
  obtain ⟨t, i, hsend, ht⟩ := send_path (a := sendOf 0) hg rfl h.ok rfl rfl h.call hge
    (by simp [elemOf]) (h.empty hslot) hj hunused rfl
  have hmem : ∀ c ∈ t.sq, c ∈ t.pend := fun c hc =>
    List.mem_append_left _ (List.mem_append_left _ hc)
  -- The only QP completes what was posted on it.
  have hqp : ∀ c ∈ t.sq, c.qp = 0 := by
    intro c hc
    obtain ⟨id, _, hcid⟩ := ht.ok.good.mem_group (hmem c hc)
    obtain ⟨q, hq, rfl⟩ := List.mem_map.mp hcid
    have hlt : q.1 < 1 := (ht.ok.good.plain.qpsOf_fst hq).2
    show q.1 = 0
    omega
  have hcomplete : GuardedPath Shape.one lateGroups t { t with sq := [], cq := t.cq ++ t.sq } :=
    complete_all t.sq t.cq hqp
  have hlen : (groupCqes Shape.one (freshBase Shape.one true) lateGroups
      s.comm.base.fifoHead).length = 1 := by
    unfold groupCqes qpsOf
    rw [List.length_map, List.length_map, List.length_range]
    rfl
  have hcq : (t.cq ++ t.sq).length ≤ 4 := by
    have := h.sq
    rw [ht.cq, h.cq, List.nil_append, ht.sq, List.length_append, hlen]
    omega
  have hlive : (t.comm.base.reqs i).type ≠ NCCL_NET_IB_REQ_UNUSED := by
    rw [ht.type]
    simp
  have hid : (t.comm.base.reqs i).id < t.comm.base.fifoHead := by
    rw [ht.id, ht.fifoHead]
    exact Nat.lt_succ_self _
  have hev : (t.comm.base.reqs i).events 0 ≠ 0 := by
    obtain ⟨c, hc⟩ := List.exists_mem_of_ne_nil _ (@groupCqes_ne_nil Shape.one
      (freshBase Shape.one true) lateGroups s.comm.base.fifoHead)
    have hdev : c.dev < 1 := groupCqes_dev ht.ok.good.plain hc
    have hpos : 0 < t.pend.countP (isFor (t.comm.base.reqs i).id 0) := by
      refine List.countP_pos_iff.mpr ⟨c, hmem c (ht.sq ▸ List.mem_append_right _ hc), ?_⟩
      rw [isFor, decide_eq_true_iff, groupCqes_cause hc, ht.id]
      exact ⟨rfl, by omega⟩
    rw [ht.ok.good.events_pend ht.index hlive hid 0]
    omega
  obtain ⟨u, hreport, hu, hcall, hsq, hcq', hfifo, hnext, hreported, hlog⟩ :=
    report_path hg rfl ht.ok.completed rfl ht.call rfl hcq ht.index hlive hid ht.devBases hev
  obtain ⟨a, hlog'⟩ := ht.log
  have hpos : s.nextSerial ≠ 0 := by
    have := (h.ok.good.owner _ _ _ h.owner).2.2.2
    simp only at this
    omega
  have hreported : u.reported = s.reported ++ [s.nextSerial] := by
    rw [hreported, ← ht.serialOf, ← ht.reported]
  refine ⟨u, hsend.trans (hcomplete.trans hreport), ⟨hu, hcall, ?_, ?_, hcq', ?_, ?_, ?_⟩, hsq⟩
  · exact hfifo.trans (ht.fifoHead.trans (congrArg (· + 1) h.fifoHead))
  · rw [hsq]
    exact Nat.zero_le _
  · obtain ⟨x, hx, hrest⟩ := h.first
    refine ⟨x, ?_, hrest⟩
    rw [hlog]
    exact hlog' ▸ List.mem_append_left _ hx
  · rw [hreported, List.mem_append, List.mem_singleton, not_or]
    exact ⟨h.first_open, hpos.symm⟩
  · intro n hn hn0
    rw [hnext] at hn
    have hn : n < s.nextSerial + 1 := ht.nextSerial ▸ hn
    rw [hreported, List.mem_append, List.mem_singleton]
    by_cases hlast : n = s.nextSerial
    · exact .inr hlast
    · exact .inl (h.others n (by omega) hn0)

end

/-- The send of group 0 is posted. -/
theorem waiting_one : ∃ s, GuardedPath Shape.one lateGroups (startSend Shape.one) s ∧ Waiting 1 s := by
  have hok : SendOk Shape.one (freshBase Shape.one true) lateGroups (startSend Shape.one) :=
    ⟨good_init (init_startSend _), history_init (init_startSend _)⟩
  obtain ⟨t, i, hsend, ht⟩ := send_path (a := sendOf 0) (e := elemOf 0 1 0) (j := 0)
    groupsOk_lateGroups rfl hok rfl rfl rfl rfl (by simp [elemOf]) (fun _ => rfl) (by decide) rfl rfl
  refine ⟨t, hsend, ht.ok, ht.call, ht.fifoHead, ?_, ht.cq, ?_, ?_, ?_⟩
  · rw [ht.sq]
    exact Nat.le_refl 1
  · obtain ⟨a, hlog⟩ := ht.log
    exact ⟨_, hlog ▸ List.mem_append_right _ (List.mem_singleton_self _), rfl, rfl, rfl⟩
  · rw [ht.reported]
    exact List.not_mem_nil
  · intro n hn hn0
    have : n < 1 := Nat.lt_of_lt_of_eq hn ht.nextSerial
    omega

theorem waiting_run (n : Nat) (hn : n < 256) :
    ∃ s, GuardedPath Shape.one lateGroups (startSend Shape.one) s ∧ Waiting (n + 1) s := by
  induction n with
  | zero => exact waiting_one
  | succ n ih =>
    obtain ⟨s, hpath, h⟩ := ih (by omega)
    obtain ⟨t, hstep, ht, -⟩ := waiting_step h (by omega) hn
    exact ⟨t, hpath.trans hstep, ht⟩

/-- The two elements of group 256 arrive. -/
theorem late_elems {s : SendState} (h : Waiting 256 s) :
    ∃ t, GuardedPath Shape.one lateGroups s t ∧ Waiting 256 t ∧ t.sq = s.sq ∧
      t.comm.ctsFifo 0 0 = elemOf 256 2 0 ∧ t.comm.ctsFifo 0 1 = elemOf 256 2 1 := by
  have hnear : s.comm.base.fifoHead ≤ 256 ∧ 256 < s.comm.base.fifoHead + NET_IB_MAX_REQUESTS := by
    rw [h.fifoHead]
    decide
  have h0 : s.next lateGroups (.cts 256 0) = some { s with comm := { s.comm with
      ctsFifo := Function.update s.comm.ctsFifo 0
        (Function.update (s.comm.ctsFifo 0) 0 (elemOf 256 2 0)) } } := by
    simp only [SendState.next, show (lateGroups 256)[0]? = some (elemOf 256 2 0) from rfl, if_pos hnear]
    rfl
  have hok0 := h.ok.next groupsOk_lateGroups (fun _ _ he => by cases he) h0
  generalize hs0 : ({ s with comm := { s.comm with
      ctsFifo := Function.update s.comm.ctsFifo 0
        (Function.update (s.comm.ctsFifo 0) 0 (elemOf 256 2 0)) } } : SendState) = s0 at h0 hok0
  have hw0 : Waiting 256 s0 := by
    subst hs0
    exact ⟨hok0, h.2, h.3, h.4, h.5, h.6, h.7, h.8⟩
  have hnear0 : s0.comm.base.fifoHead ≤ 256 ∧ 256 < s0.comm.base.fifoHead + NET_IB_MAX_REQUESTS := by
    rw [hw0.fifoHead]
    decide
  have h1 : s0.next lateGroups (.cts 256 1) = some { s0 with comm := { s0.comm with
      ctsFifo := Function.update s0.comm.ctsFifo 0
        (Function.update (s0.comm.ctsFifo 0) 1 (elemOf 256 2 1)) } } := by
    simp only [SendState.next, show (lateGroups 256)[1]? = some (elemOf 256 2 1) from rfl,
      if_pos hnear0]
    rfl
  have hok1 := hw0.ok.next groupsOk_lateGroups (fun _ _ he => by cases he) h1
  refine ⟨_, (GuardedPath.next h0 trivial).trans (GuardedPath.next h1 trivial),
    ⟨hok1, hw0.2, hw0.3, hw0.4, hw0.5, hw0.6, hw0.7, hw0.8⟩, ?_, ?_, ?_⟩
  · subst hs0
    rfl
  · subst hs0
    simp
  · simp

/-- All groups before 256 are posted, their sends are done and reported, and the two
elements of group 256 are there. -/
structure AllDone (s : SendState) : Prop where
  ok : SendOk Shape.one (freshBase Shape.one true) lateGroups s
  call : s.call = none
  fifoHead : s.comm.base.fifoHead = 256
  first : s.comm.ctsFifo 0 0 = elemOf 256 2 0
  second : s.comm.ctsFifo 0 1 = elemOf 256 2 1
  reported : ∀ n < s.nextSerial, n ∈ s.reported

section
variable {s : SendState}

theorem AllDone.empty (h : AllDone s) (slot r : Nat) : s.owner slot r = none := by
  cases ho : s.owner slot r with
  | none => rfl
  | some o =>
    obtain ⟨r', o', ho', hrep⟩ := h.ok.good.row_open _ _ _ ho
    exact absurd (h.reported _ (h.ok.good.owner _ _ _ ho').2.2.2) hrep

theorem AllDone.unused (h : AllDone s) {j : Nat} (hj : j < NET_IB_MAX_REQUESTS) :
    (s.comm.base.reqs j).type = NCCL_NET_IB_REQ_UNUSED := by
  by_contra hlive
  obtain ⟨_, _, r, _, ho⟩ := h.ok.good.live j hj hlive
  rw [h.empty] at ho
  cases ho

theorem AllDone.slot (h : AllDone s) : slotOf s.comm.base.fifoHead = 0 := by
  rw [h.fifoHead]
  rfl

theorem AllDone.ctsThere (h : AllDone s) : CtsThere s.comm := by
  unfold CtsThere
  simp only [h.fifoHead, show slotOf 256 = 0 from rfl, h.first]
  refine ⟨rfl, fun r hr => ?_⟩
  have hr : r < 2 := hr
  rcases r with _ | _ | r
  · rw [h.first]
    rfl
  · rw [h.second]
    rfl
  · omega

/-- The test of the send of group 0 finds its completion processed. -/
theorem first_is_tested (h : Waiting 256 s) (hsq : s.sq = [])
    (h0 : s.comm.ctsFifo 0 0 = elemOf 256 2 0) (h1 : s.comm.ctsFifo 0 1 = elemOf 256 2 1) :
    ∃ t, GuardedPath Shape.one lateGroups s t ∧ AllDone t := by
  obtain ⟨i, hi, hsend, hserial, htype, hid, _⟩ :=
    h.ok.good.open_req 0 0 _ h.owner h.first_open
  have hlive : (s.comm.base.reqs i).type ≠ NCCL_NET_IB_REQ_UNUSED := by
    rw [htype]
    simp
  have hdone : ncclIbRequestIsComplete (s.comm.base.reqs i) = true := by
    have hpend : s.pend = [] := by
      unfold SendState.pend
      rw [hsq, h.cq, h.call]
      rfl
    rw [ncclIbRequestIsComplete, List.all_eq_true]
    intro d _
    have hevents := h.ok.good.events_pend hi hlive
      (by rw [hid, h.fifoHead]; decide) d
    rw [hpend] at hevents
    exact decide_eq_true hevents
  have hbegin : s.next lateGroups (.testBegin i) = some { s with call := some ⟨i, .top⟩ } := by
    simp [SendState.next, h.call, hi, hlive]
  have hok := h.ok.next groupsOk_lateGroups (fun _ _ he => by cases he) hbegin
  obtain ⟨t, hnext, hcall, _, _, hserials, hreported, _, hfifo, hcts⟩ := test_done (g := lateGroups)
    (hok.good.same.fatalErrorCount.trans rfl) rfl htype hdone
  have hok' := hok.next groupsOk_lateGroups (fun _ _ he => by cases he) hnext
  refine ⟨t, (GuardedPath.next hbegin trivial).trans (GuardedPath.next hnext trivial), hok', hcall,
    hfifo.trans h.fifoHead, ?_, ?_, ?_⟩
  · rw [hcts]
    exact h0
  · rw [hcts]
    exact h1
  · intro n hn
    rw [hreported]
    by_cases hn0 : n = 0
    · exact List.mem_append_right _ (List.mem_singleton.mpr (hn0.trans hserial.symm))
    · exact List.mem_append_left _ (h.others n (Nat.lt_of_lt_of_eq hn hserials) hn0)

end

/-- Group 256 has an entry that group 0 did not have. Once the send of group 0 is
reported, both of its sends are accepted, and it goes out. -/
theorem a_larger_group_follows_a_done_one :
    ∃ s, Reachable (sendSystem Shape.one lateGroups (NoLateEntry lateGroups)) s ∧
      s.comm.base.fifoHead = 257 ∧ (∃ a ∈ s.log, a.id = 256 ∧ a.r = 1) ∧ SlotRule lateGroups s := by
  have hg := groupsOk_lateGroups
  obtain ⟨s0, hpath0, hw0⟩ := waiting_run 254 (by decide)
  obtain ⟨s1, hpath1, hw1, hsq1⟩ := waiting_step hw0 (by decide) (by decide)
  obtain ⟨s2, hpath2, hw2, hsq2, he0, he1⟩ := late_elems hw1
  obtain ⟨s, hpath3, h⟩ := first_is_tested hw2 (hsq2.trans hsq1) he0 he1
  have hfifo := h.fifoHead
  have hslot := h.slot
  have hlen : (lateGroups s.comm.base.fifoHead).length = 2 := by
    rw [hfifo]
    rfl
  have hnone : ∀ r, s.comm.sendReqs 0 r = none := fun r =>
    (h.ok.good.entry 0 r).mp (h.empty 0 r)
  have hfree : s.SlotFree := fun r o ho => by
    rw [h.empty] at ho
    cases ho
  -- The send with tag 1 takes the second entry and waits for the other one.
  have hmatch1 : matchEntry s.comm (slotOf s.comm.base.fifoHead)
      (lateGroups s.comm.base.fifoHead).length (sendOf 1).tag = some 1 := by
    rw [hslot, hlen]
    simp [matchEntry, List.range_succ, hnone, h.first, h.second, elemOf, sendOf, u32]
  obtain ⟨i, hi, hok1, t1, hnext1, hacc1⟩ := send_entry hg h.ok rfl rfl h.call hfree h.ctsThere
    hmatch1 (by rw [hslot, h.second]; simp [elemOf]) (j := 0) (by decide) (h.unused (by decide))
  have htakes := takes_bound (s := s) (sendOf 1) 1 i (boundReq Shape.one s.comm (sendOf 1) 1 i)
  have hwaits : t1 = s.bound (sendOf 1) 1 i (boundReq Shape.one s.comm (sendOf 1) 1 i) := by
    cases hacc1 with
    | waits => rfl
    | posts hfull =>
      have hzero := hfull 0 (by rw [hlen]; decide)
      rw [htakes.fifoHead, htakes.owner, hslot, h.empty] at hzero
      simp at hzero
  subst hwaits
  -- The send with tag 0 takes the first entry, and the group goes out.
  generalize hs1 : s.bound (sendOf 1) 1 i (boundReq Shape.one s.comm (sendOf 1) 1 i) = t1
    at hnext1 hok1 htakes
  have hthere : CtsThere t1.comm := by
    unfold CtsThere
    rw [htakes.fifoHead, htakes.ctsFifo]
    exact h.ctsThere
  have hmatch0 : matchEntry t1.comm (slotOf t1.comm.base.fifoHead)
      (lateGroups t1.comm.base.fifoHead).length (sendOf 0).tag = some 0 := by
    rw [htakes.fifoHead, hslot, hlen]
    simp [matchEntry, List.range_succ, htakes.entry, htakes.ctsFifo, hslot, hnone, h.first,
      elemOf, sendOf, u32]
  obtain ⟨j, hj, hne⟩ : ∃ j < NET_IB_MAX_REQUESTS, j ≠ i := by
    by_cases hi0 : i = 0
    · exact ⟨1, by decide, by omega⟩
    · exact ⟨0, by decide, fun he => hi0 he.symm⟩
  obtain ⟨i', hi', hok0, t0, hnext0, hacc0⟩ := send_entry hg hok1 rfl rfl
    (htakes.call.trans h.call) (htakes.slotFree hfree) hthere hmatch0
    (by rw [htakes.fifoHead, htakes.ctsFifo, hslot, h.first]; simp [elemOf]) hj
    (by rw [htakes.reqs j hne]; exact h.unused hj)
  have hguard : NoLateEntry lateGroups (.isend plainEnv (sendOf 0)) t1 := by
    intro e he _ hlt hrep
    rw [htakes.fifoHead, hfifo] at hlt
    rw [htakes.reported] at hrep
    subst hs1
    rcases List.mem_append.mp he with he | he
    · exact absurd (h.reported _ (h.ok.history.serial_lt e he)) hrep
    · rw [List.mem_singleton.mp he] at hlt
      have hlt : s.comm.base.fifoHead < 256 := hlt
      omega
  have hreach : Reachable (sendSystem Shape.one lateGroups (NoLateEntry lateGroups)) s :=
    (Reachable.init (init_startSend _)).path
      (hpath0.trans (hpath1.trans (hpath2.trans hpath3)))
  have hreach0 := (hreach.step ⟨_, h.ok.guard (fun r => h.empty _ r) _ _, hnext1⟩).step
    ⟨_, hguard, hnext0⟩
  have htakes0 := takes_bound (s := t1) (sendOf 0) 0 i'
    (boundReq Shape.one t1.comm (sendOf 0) 0 i')
  cases hacc0 with
  | waits hcnt =>
    -- Both entries are counted.
    rw [htakes0.fifoHead, htakes.fifoHead, htakes0.cnt, htakes.fifoHead, hslot,
      Function.update_self, htakes.cnt, hslot, Function.update_self, h.ok.good.cnt, hlen] at hcnt
    omega
  | posts =>
    refine ⟨_, hreach0, ?_, ⟨⟨s.comm.base.fifoHead, 1, s.nextSerial, sendOf 1, s.reported,
      s.comm.base.weights⟩, ?_, hfifo, rfl⟩, a_slot_waits_for_its_earlier_group _ _ hg _ hreach0⟩
    · show t1.comm.base.fifoHead + 1 = 257
      rw [htakes.fifoHead, hfifo]
    · show _ ∈ t1.log ++ [_]
      rw [← hs1]
      exact List.mem_append_left _ (List.mem_append_right _ (List.mem_singleton_self _))

/-! ## A run that breaks the rule -/

/-- The run goes wrong: the second entry of group 256 is accepted in slot 0, where
the send of group 0 still waits to be tested. -/
theorem a_late_entry_is_accepted_too_early : GroupsOk lateGroups ∧
    ∃ s, Reachable (sendSystem Shape.one lateGroups (fun _ _ => True)) s ∧
      ¬ SlotRule lateGroups s := by
  refine ⟨groupsOk_lateGroups, ?_⟩
  obtain ⟨s', hpath', hw'⟩ := waiting_run 255 (by decide)
  obtain ⟨s, hpath, h, -, he0, he1⟩ := late_elems hw'
  have hslot : slotOf s.comm.base.fifoHead = 0 := by
    rw [h.fifoHead]
    rfl
  have hthere : CtsThere s.comm := by
    unfold CtsThere
    simp only [h.fifoHead, show slotOf 256 = 0 from rfl, he0]
    refine ⟨rfl, fun r hr => ?_⟩
    have hr : r < 2 := hr
    rcases r with _ | _ | r
    · rw [he0]
      rfl
    · rw [he1]
      rfl
    · omega
  have hfirst : (s.comm.sendReqs 0 0).isSome := by
    rw [Option.isSome_iff_ne_none]
    intro hnone
    have := (h.ok.good.entry 0 0).mpr hnone
    rw [h.owner] at this
    cases this
  have hsecond : s.comm.sendReqs 0 1 = none := by
    apply (h.ok.good.entry 0 1).mp
    cases ho : s.owner 0 1 with
    | none => rfl
    | some o =>
      -- Group 0 has one entry only.
      have hid := h.ok.good.one_id _ _ _ _ _ ho h.owner
      have hlt := (h.ok.good.owner _ _ _ ho).2.2.1
      rw [hid] at hlt
      exact absurd hlt (by decide)
  have hmatch : matchEntry s.comm 0 2 1 = some 1 := by
    obtain ⟨i, hi⟩ := Option.isSome_iff_exists.mp hfirst
    simp only [matchEntry, List.range_succ, List.range_zero, List.nil_append, List.cons_append,
      List.find?_cons, hi, hsecond, he1, elemOf]
    rfl
  obtain ⟨j, hj, hunused⟩ := h.unused
  have hplain := h.ok.good.plain.same h.ok.good.same
  obtain ⟨i, hi, hu, hends⟩ := isend_takes (a := sendOf 1) (r := 1) hplain
    (h.ok.good.same.ready.trans rfl) (h.ok.good.same.fatalErrorCount.trans rfl) hthere plainEnv
    (by rw [hslot, he0]; exact hmatch) (by rw [hslot, he1]; simp [elemOf]) hj hunused
  rw [hslot, he0] at hends
  -- The counter still has the send of group 0, so the group counts as full.
  have hcnt : ¬ (bindEntry s.comm 0 1 i (boundReq Shape.one s.comm (sendOf 1) 1 i)).sendReqsCnt 0 <
      ((elemOf 256 2 0).nreqs : Int) := by
    have hopen : 0 < (List.range NCCL_NET_IB_MAX_RECVS).countP (s.isOpen 0) :=
      List.countP_pos_iff.mpr ⟨0, List.mem_range.mpr (by decide),
        (isOpen_iff 0 0).mpr ⟨_, h.owner, h.first_open⟩⟩
    have hbound : (bindEntry s.comm 0 1 i
        (boundReq Shape.one s.comm (sendOf 1) 1 i)).sendReqsCnt 0 = s.comm.sendReqsCnt 0 + 1 :=
      by simp [bindEntry]
    rw [hbound, h.ok.good.cnt, show (elemOf 256 2 0).nreqs = 2 from rfl]
    omega
  have hret : (ncclIbIsend plainEnv s.comm (sendOf 1)).ret = .ok (some i) := by
    generalize ncclIbIsend plainEnv s.comm (sendOf 1) = out at hends
    cases hends with
    | waits hlt => exact absurd hlt hcnt
    | fails _ hsend =>
      have hmatched : ∀ r < 2, ((bindEntry s.comm 0 1 i
          (boundReq Shape.one s.comm (sendOf 1) 1 i)).sendReqs 0 r).isSome := by
        intro r hr
        rcases r with _ | _ | r
        · simpa [bindEntry] using hfirst
        · simp [bindEntry]
        · omega
      have hplain' : PlainBase Shape.one (bindEntry s.comm 0 1 i
          (boundReq Shape.one s.comm (sendOf 1) 1 i)).base :=
        hplain.same ⟨rfl, rfl, rfl, rfl, rfl, rfl, rfl, rfl, rfl, rfl⟩
      have hn : ((bindEntry s.comm 0 1 i
          (boundReq Shape.one s.comm (sendOf 1) 1 i)).ctsFifo 0 0).nreqs = 2 :=
        congrArg NcclIbSendFifo.nreqs he0
      have hok := multiSend_eq plainEnv hplain'.striped hplain'.isSome (by rw [hn]; decide)
        (by rw [hn]; decide) (by rw [hn]; exact hmatched)
      rw [hsend] at hok
      cases hok
    | posts => rfl
  have hnext : s.next lateGroups (.isend plainEnv (sendOf 1)) =
      some (s.accept (sendOf 1) (ncclIbIsend plainEnv s.comm (sendOf 1)) i) := by
    simp only [SendState.next, h.call, hret]
    rfl
  have hreach : Reachable (sendSystem Shape.one lateGroups (fun _ _ => True)) s :=
    (Reachable.init (init_startSend _)).path (GuardedPath.path (hpath'.trans hpath))
  refine ⟨_, hreach.step ⟨_, trivial, hnext⟩, fun hrule => ?_⟩
  obtain ⟨x, hx, hid, _, hserial⟩ := h.first
  have hdone := hrule.done x (List.mem_append_left _ hx) _
    (List.mem_append_right _ (List.mem_singleton_self _)) (by rw [hid]; exact hslot.symm)
    (by rw [hid]; exact Nat.lt_of_lt_of_eq (by decide) h.fifoHead.symm)
  rw [hserial] at hdone
  exact h.first_open hdone

end net_ib.p2p
