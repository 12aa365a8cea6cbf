-- The history of a send comm: the accepted sends, the entries that they own, and
-- the groups that went out. Every step that accepts sends only on free slots
-- keeps the history in order.
import MrcPlugin.SendReach

namespace net_ib.p2p

open queues counts

/-- What the history says about the slots. -/
structure SendHistory (g : Nat → List NcclIbSendFifo) (s : SendState) : Prop where
  serial_lt : ∀ a ∈ s.log, a.serial < s.nextSerial
  id_le : ∀ a ∈ s.log, a.id ≤ s.comm.base.fifoHead
  unreported : ∀ a ∈ s.log, a.serial ∉ s.reported →
    s.owner (slotOf a.id) a.r = some ⟨a.id, a.serial⟩
  owner : ∀ slot r o, s.owner slot r = some o →
    ∃ a ∈ s.log, a.id = o.id ∧ a.r = r ∧ a.serial = o.serial
  covered : ∀ k < s.comm.base.fifoHead, ∀ r < (g k).length, ∃ a ∈ s.log, a.id = k ∧ a.r = r
  done : ∀ a ∈ s.log, ∀ b ∈ s.log, slotOf a.id = slotOf b.id → a.id < b.id → a.serial ∈ b.before
  sent : ∀ x ∈ s.sent, ∀ o ∈ x.owners, ∃ serial, o = some ⟨x.id, serial⟩

section
variable {sh : Shape} {b0 : NcclIbNetCommBase} {g : Nat → List NcclIbSendFifo} {s t : SendState}

theorem history_init (h : SendState.Init sh s) : SendHistory g s := by
  refine ⟨?_, ?_, ?_, ?_, ?_, ?_, ?_⟩
  · rw [h.log]
    simp
  · rw [h.log]
    simp
  · rw [h.log]
    simp
  · intro slot r o ho
    rw [h.owner] at ho
    cases ho
  · intro k hk
    rw [h.fifoHead] at hk
    omega
  · rw [h.log]
    simp
  · rw [h.sent]
    simp

/-- A send of the current group is accepted on a free slot. -/
theorem history_bound (h : SendGood sh b0 g s) (hh : SendHistory g s) (hfree : s.SlotFree)
    {a : IsendArgs} {r i : Nat} {req : NcclIbRequest}
    (hnone : s.comm.sendReqs (slotOf s.comm.base.fifoHead) r = none) :
    SendHistory g (s.bound a r i req) := by
  have ht := takes_bound (s := s) a r i req
  have hlog : ∀ x, x ∈ (s.bound a r i req).log ↔ x ∈ s.log ∨
      x = ⟨s.comm.base.fifoHead, r, s.nextSerial, a, s.reported, s.comm.base.weights⟩ := by
    intro x
    show x ∈ s.log ++ [_] ↔ _
    rw [List.mem_append, List.mem_singleton]
  refine ⟨?_, ?_, ?_, ?_, ?_, ?_, hh.sent⟩
  · intro x hx
    rw [ht.nextSerial]
    rcases (hlog x).mp hx with hx | rfl
    · exact Nat.lt_succ_of_lt (hh.serial_lt x hx)
    · exact Nat.lt_succ_self _
  · intro x hx
    rw [ht.fifoHead]
    rcases (hlog x).mp hx with hx | rfl
    · exact hh.id_le x hx
    · exact Nat.le_refl _
  · intro x hx hrep
    rw [ht.reported] at hrep
    rcases (hlog x).mp hx with hx | rfl
    · exact (ht.rows.owner_keep h.rows hnone (hh.unreported x hx hrep)).1
    · rw [ht.owner, if_pos ⟨rfl, rfl⟩]
  · intro slot' r' o ho
    rcases ht.rows.owner_cases ho with ⟨rfl, rfl, rfl⟩ | ho
    · exact ⟨_, (hlog _).mpr (.inr rfl), rfl, rfl, rfl⟩
    · obtain ⟨x, hx, hrest⟩ := hh.owner _ _ _ ho
      exact ⟨x, (hlog x).mpr (.inl hx), hrest⟩
  · intro k hk r' hr'
    obtain ⟨x, hx, hrest⟩ := hh.covered k hk r' hr'
    exact ⟨x, (hlog x).mpr (.inl hx), hrest⟩
  · intro x hx y hy hslot hlt
    rcases (hlog x).mp hx with hx | rfl
    · rcases (hlog y).mp hy with hy | rfl
      · exact hh.done x hx y hy hslot hlt
      · -- An earlier send of the slot that is not done would own an entry.
        by_contra hrep
        have ho := hh.unreported x hx hrep
        rw [hslot] at ho
        have := hfree _ _ ho
        simp only at this hlt
        omega
    · rcases (hlog y).mp hy with hy | rfl
      · have := hh.id_le y hy
        simp only at hlt
        omega
      · exact absurd hlt (Nat.lt_irrefl _)

theorem history_accepts {env : NetEnv} (hh : SendHistory g s)
    (hfree : s.SlotFree) (ht : Accepts sh env (g s.comm.base.fifoHead).length s t) :
    SendHistory g t := by
  cases ht with
  | waits => exact hh
  | posts hfull _ =>
    refine ⟨hh.serial_lt, ?_, hh.unreported, hh.owner, ?_, hh.done, ?_⟩
    · intro a ha
      exact Nat.le_succ_of_le (hh.id_le a ha)
    · intro k hk r hr
      have hk : k < s.comm.base.fifoHead + 1 := hk
      by_cases hcur : k = s.comm.base.fifoHead
      · subst hcur
        obtain ⟨o, ho⟩ := Option.isSome_iff_exists.mp (hfull r hr)
        obtain ⟨a, ha, hid, hr', _⟩ := hh.owner _ _ _ ho
        exact ⟨a, ha, hid.trans (hfree r o ho), hr'⟩
      · exact hh.covered k (by omega) r hr
    · intro x hx o ho
      rcases List.mem_append.mp hx with hx | hx
      · exact hh.sent x hx o ho
      · rw [List.mem_singleton.mp hx] at ho ⊢
        obtain ⟨r, hr, rfl⟩ := List.mem_map.mp ho
        obtain ⟨o, ho⟩ := Option.isSome_iff_exists.mp (hfull r (List.mem_range.mp hr))
        refine ⟨o.serial, ?_⟩
        rw [ho, ← hfree r o ho]

/-- A report takes away only what it reports. -/
theorem report_keeps (h : SendGood sh b0 g s) (h' : SendGood sh b0 g t) (ht : TestDoes s t)
    {slot r : Nat} {o : Owner} (ho : s.owner slot r = some o) (hrep : o.serial ∉ t.reported) :
    t.owner slot r = some o := by
  cases ht with
  | moves => exact ho
  | charges => exact ho
  | @reports i comm' hcall hdone hrel =>
    have hrep : o.serial ∉ s.reported ++ [s.serialOf i] := hrep
    rw [List.mem_append, List.mem_singleton, not_or] at hrep
    obtain ⟨j, hj, _, hserial, htype, hid, _⟩ := h.open_req _ _ _ ho hrep.1
    have hji : j ≠ i := by
      rintro rfl
      exact hrep.2 hserial.symm
    have hreq : comm'.base.reqs j = s.comm.base.reqs j := by
      rw [hrel.reqs, Function.update_of_ne hji]
    obtain ⟨_, _, r', _, ho'⟩ := h'.live j hj (by
      show (comm'.base.reqs j).type ≠ _
      rw [hreq, htype]
      simp)
    -- The request that stays has an entry, and this can only be the one of before.
    simp only [hreq, hid, hserial] at ho'
    split at ho'
    · cases ho'
    · rename_i hkept
      obtain ⟨rfl, rfl⟩ := h.one_entry _ _ _ _ _ _ ho' ho rfl
      simp only [hkept]
      exact ho

theorem history_test (h : SendGood sh b0 g s) (h' : SendGood sh b0 g t) (hh : SendHistory g s)
    (ht : TestDoes s t) : SendHistory g t := by
  have hkeep : ∀ a ∈ s.log, a.serial ∉ t.reported → a.serial ∉ s.reported →
      t.owner (slotOf a.id) a.r = some ⟨a.id, a.serial⟩ := fun a ha hrep hrep' =>
    report_keeps h h' ht (hh.unreported a ha hrep') hrep
  cases ht with
  | moves => exact ⟨hh.1, hh.2, hh.3, hh.4, hh.5, hh.6, hh.7⟩
  | charges => exact ⟨hh.1, hh.2, hh.3, hh.4, hh.5, hh.6, hh.7⟩
  | @reports i comm' hcall hdone hrel =>
    refine ⟨hh.serial_lt, ?_, ?_, ?_, ?_, hh.done, hh.sent⟩
    · intro a ha
      show a.id ≤ comm'.base.fifoHead
      rw [hrel.fifoHead]
      exact hh.id_le a ha
    · intro a ha hrep
      exact hkeep a ha hrep (fun hm => hrep (List.mem_append_left _ hm))
    · intro slot r o ho
      simp only at ho
      split at ho
      · cases ho
      · exact hh.owner slot r o ho
    · intro k hk
      have hk : k < comm'.base.fifoHead := hk
      rw [hrel.fifoHead] at hk
      exact hh.covered k hk

theorem history_step (h : SendGood sh b0 g s) (h' : SendGood sh b0 g t) (hh : SendHistory g s)
    (ht : SendDoes sh b0 g s t) : SendHistory g t := by
  cases ht with
  | none => exact hh
  | @accepts env a r i t hthere hmatch hi hunused hfree hbound ht =>
    have hnone := (matchEntry_cases hmatch).2.1
    exact history_accepts (history_bound h hh hfree hnone)
      ((takes_bound a r i _).slotFree hfree) ht
  | arrives => exact ⟨hh.1, hh.2, hh.3, hh.4, hh.5, hh.6, hh.7⟩
  | moves => exact ⟨hh.1, hh.2, hh.3, hh.4, hh.5, hh.6, hh.7⟩
  | tests ht => exact history_test h h' hh ht
  | speed => exact ⟨hh.1, hh.2, hh.3, hh.4, hh.5, hh.6, hh.7⟩

end

end net_ib.p2p
