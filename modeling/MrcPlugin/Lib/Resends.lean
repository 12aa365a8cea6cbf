-- Groups of parts that are sent, and sent again in later generations. A part of a
-- group waits until it is acknowledged; it may also be known from elsewhere that it
-- has arrived. The rules below say when all parts of a group have arrived.
import MrcPlugin.Lib.Counts

namespace resends

/-- One part of a group, in one generation of the group. -/
structure Sending where
  id : Nat
  gen : Nat
  index : Nat
deriving DecidableEq, Repr

/-- What became of the parts, where `gen` is the latest generation of each group. -/
structure Ledger where
  gen : Nat → Nat
  waiting : List Sending
  acked : List Sending
  known : List (Nat × Nat)

/-- Part `q` of group `id` was acknowledged, or is known to have arrived. -/
def Ledger.Arrived (l : Ledger) (id q : Nat) : Prop :=
  (∃ p ∈ l.acked, p.id = id ∧ p.index = q) ∨ (id, q) ∈ l.known

/-- Whether a part is one of the latest generation of group `id`. -/
def latest (gen : Nat → Nat) (id : Nat) (p : Sending) : Bool := p.id = id ∧ p.gen = gen id

/-- The number of parts of the latest generation that still wait. -/
def Ledger.count (l : Ledger) (id : Nat) : Nat := l.waiting.countP (latest l.gen id)

/-- Each of the parts `qs` of group `id` still waits or has arrived. -/
def Ledger.Covers (l : Ledger) (id : Nat) (qs : List Nat) : Prop :=
  ∀ q ∈ qs, ⟨id, l.gen id, q⟩ ∈ l.waiting ∨ l.Arrived id q

/-- One generation of a group. -/
def sendings (id gen : Nat) (parts : List Nat) : List Sending := parts.map (fun q => ⟨id, gen, q⟩)

section
variable {l : Ledger} {id : Nat} {qs : List Nat}

theorem latest_iff {gen : Nat → Nat} {p : Sending} :
    latest gen id p = true ↔ p.id = id ∧ p.gen = gen id := decide_eq_true_iff

theorem count_pos_iff : 0 < l.count id ↔ ∃ p ∈ l.waiting, p.id = id ∧ p.gen = l.gen id := by
  unfold Ledger.count
  rw [List.countP_pos_iff]
  simp only [latest_iff]

theorem mem_sendings {gen : Nat} {p : Sending} :
    p ∈ sendings id gen qs ↔ p.id = id ∧ p.gen = gen ∧ p.index ∈ qs := by
  unfold sendings
  rw [List.mem_map]
  constructor
  · rintro ⟨q, hq, rfl⟩
    exact ⟨rfl, rfl, hq⟩
  · obtain ⟨i, n, q⟩ := p
    rintro ⟨rfl, rfl, hq⟩
    exact ⟨q, hq, rfl⟩

theorem countP_sendings (gen : Nat → Nat) (id' n : Nat) :
    (sendings id' n qs).countP (latest gen id) = if id' = id ∧ n = gen id then qs.length else 0 := by
  unfold sendings latest
  rw [List.countP_map]
  by_cases h : id' = id ∧ n = gen id
  · rw [if_pos h, List.countP_eq_length.mpr (fun q _ => by simp [h])]
  · rw [if_neg h, List.countP_eq_zero.mpr (fun q _ => by simpa using h)]

/-- When no part of the latest generation waits, all parts have arrived. -/
theorem Ledger.Covers.all_arrived (h : l.Covers id qs) (hzero : l.count id = 0) :
    ∀ q ∈ qs, l.Arrived id q := by
  intro q hq
  rcases h q hq with hwait | harr
  · have : 0 < l.count id := count_pos_iff.mpr ⟨_, hwait, rfl, rfl⟩
    omega
  · exact harr

/-! ## The order in which the parts wait -/

theorem Ledger.Covers.perm (h : l.Covers id qs) {waiting : List Sending}
    (hp : waiting.Perm l.waiting) : Ledger.Covers { l with waiting } id qs :=
  fun q hq => (h q hq).imp_left hp.mem_iff.mpr

theorem count_perm {waiting : List Sending} (hp : waiting.Perm l.waiting) :
    Ledger.count { l with waiting } id = l.count id := hp.countP_eq _

/-! ## A part is acknowledged -/

theorem Ledger.Covers.ack (h : l.Covers id qs) {p : Sending} {waiting : List Sending}
    (hp : l.waiting.Perm (p :: waiting)) :
    Ledger.Covers { l with waiting, acked := l.acked ++ [p] } id qs := by
  intro q hq
  rcases h q hq with hwait | ⟨p', hp', hpart⟩ | hknown
  · rcases List.mem_cons.mp (hp.mem_iff.mp hwait) with rfl | hwait
    · exact .inr (.inl ⟨_, List.mem_append_right _ (List.mem_singleton_self _), rfl, rfl⟩)
    · exact .inl hwait
  · exact .inr (.inl ⟨p', List.mem_append_left _ hp', hpart⟩)
  · exact .inr (.inr hknown)

theorem count_ack {p : Sending} {waiting : List Sending} (hp : l.waiting.Perm (p :: waiting))
    (acked : List Sending) : l.count id =
      Ledger.count { l with waiting, acked } id + if latest l.gen id p then 1 else 0 := by
  unfold Ledger.count
  rw [hp.countP_eq, List.countP_cons]

/-! ## Parts are sent -/

theorem Ledger.Covers.send (h : l.Covers id qs) (more : List Sending) :
    Ledger.Covers { l with waiting := l.waiting ++ more } id qs :=
  fun q hq => (h q hq).imp_left (List.mem_append_left _)

theorem count_send (id' n : Nat) :
    Ledger.count { l with waiting := l.waiting ++ sendings id' n qs } id =
      l.count id + if id' = id ∧ n = l.gen id then qs.length else 0 := by
  unfold Ledger.count
  rw [List.countP_append, countP_sendings]

end

end resends
