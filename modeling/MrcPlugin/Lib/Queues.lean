-- Queues that share one list. The elements that fit a test are one queue, in
-- the order of the list. Taking the head of a queue leaves the other queues as
-- they were.
import Mathlib.Tactic
import Mathlib.Data.List.Perm.Basic

namespace queues

universe u

variable {α : Type u}

/-- The first element that fits, and the list without it. -/
def popFirst (p : α → Bool) : List α → Option (α × List α)
  | [] => none
  | a :: l =>
    if p a then some (a, l)
    else
      match popFirst p l with
      | none => none
      | some (b, rest) => some (b, a :: rest)

/-- The first elements that fit, at most `n` of them, and the list without them. -/
def popUpTo (p : α → Bool) : Nat → List α → List α × List α
  | _, [] => ([], [])
  | 0, l => ([], l)
  | n + 1, a :: l =>
    if p a then
      let (taken, rest) := popUpTo p n l
      (a :: taken, rest)
    else
      let (taken, rest) := popUpTo p (n + 1) l
      (taken, a :: rest)

/-- What is taken stood behind elements that do not fit. -/
theorem popFirst_split {p : α → Bool} {l : List α} {a : α} {rest : List α}
    (h : popFirst p l = some (a, rest)) :
    p a = true ∧ ∃ front back, l = front ++ a :: back ∧ rest = front ++ back ∧
      ∀ b ∈ front, p b = false := by
  induction l generalizing rest with
  | nil => cases h
  | cons x xs ih =>
    unfold popFirst at h
    by_cases hx : p x = true
    · rw [if_pos hx] at h
      cases h
      exact ⟨hx, [], xs, rfl, rfl, by simp⟩
    · rw [if_neg hx] at h
      cases hpop : popFirst p xs with
      | none =>
        rw [hpop] at h
        cases h
      | some pair =>
        rw [hpop] at h
        cases h
        obtain ⟨ha, front, back, hxs, hrest, hfront⟩ := ih hpop
        refine ⟨ha, x :: front, back, by rw [hxs]; rfl, by rw [hrest]; rfl, ?_⟩
        intro b hb
        rcases List.mem_cons.mp hb with rfl | hb
        · simpa using hx
        · exact hfront b hb

/-- The only element that fits is the last one. -/
theorem popFirst_last {p : α → Bool} {a : α} (ha : p a = true) {l : List α}
    (hl : ∀ b ∈ l, p b = false) : popFirst p (l ++ [a]) = some (a, l) := by
  induction l with
  | nil => simp [popFirst, ha]
  | cons b l ih =>
    have hrest := ih (fun x hx => hl x (List.mem_cons_of_mem _ hx))
    simp [popFirst, hl b (List.mem_cons_self ..), hrest]

theorem popFirst_perm {p : α → Bool} {l : List α} {a : α} {rest : List α}
    (h : popFirst p l = some (a, rest)) : l.Perm (a :: rest) := by
  obtain ⟨_, front, back, rfl, rfl, _⟩ := popFirst_split h
  exact List.perm_middle

/-- The queue loses its head. -/
theorem popFirst_filter {p : α → Bool} {l : List α} {a : α} {rest : List α}
    (h : popFirst p l = some (a, rest)) : l.filter p = a :: rest.filter p := by
  obtain ⟨ha, front, back, rfl, rfl, hfront⟩ := popFirst_split h
  have hnone : front.filter p = [] :=
    List.filter_eq_nil_iff.mpr (fun b hb => by simp [hfront b hb])
  simp [List.filter_append, hnone, ha]

/-- A queue that the element is not in stays as it is. -/
theorem popFirst_filter_other {p q : α → Bool} {l : List α} {a : α} {rest : List α}
    (h : popFirst p l = some (a, rest)) (hq : q a = false) : l.filter q = rest.filter q := by
  obtain ⟨_, front, back, rfl, rfl, _⟩ := popFirst_split h
  simp [List.filter_append, hq]

theorem popUpTo_perm (p : α → Bool) (l : List α) :
    ∀ n, l.Perm ((popUpTo p n l).1 ++ (popUpTo p n l).2) := by
  induction l with
  | nil => intro n; cases n <;> exact List.Perm.refl _
  | cons a l ih =>
    intro n
    cases n with
    | zero => exact List.Perm.refl _
    | succ n =>
      unfold popUpTo
      split
      · exact (ih n).cons a
      · exact ((ih (n + 1)).cons a).trans List.perm_middle.symm

/-- A queue of which nothing fits stays as it is. -/
theorem popUpTo_filter_none {p q : α → Bool} {l : List α}
    (hq : ∀ a ∈ l, q a = true → p a = false) : ∀ n, (popUpTo p n l).2.filter q = l.filter q := by
  induction l with
  | nil => intro n; cases n <;> rfl
  | cons a l ih =>
    intro n
    have hrest := ih (fun b hb => hq b (List.mem_cons_of_mem _ hb))
    cases n with
    | zero => rfl
    | succ n =>
      unfold popUpTo
      by_cases hp : p a = true
      · have hqa : ¬ q a = true := by
          intro hqa
          rw [hq a (List.mem_cons_self ..) hqa] at hp
          cases hp
        rw [if_pos hp, List.filter_cons_of_neg hqa]
        exact hrest n
      · rw [if_neg hp]
        simp only [List.filter_cons, hrest]

/-- What fits is taken from the front, so the queue keeps its end. -/
theorem popUpTo_suffix {p q : α → Bool} {l : List α}
    (hq : ∀ a ∈ l, ∀ b ∈ l, q a = true → q b = true → p a = p b) :
    ∀ n, (popUpTo p n l).2.filter q <:+ l.filter q := by
  induction l with
  | nil => intro n; cases n <;> exact List.suffix_refl _
  | cons a l ih =>
    intro n
    cases n with
    | zero => exact List.suffix_refl _
    | succ n =>
      have hrest := ih (fun b hb c hc =>
        hq b (List.mem_cons_of_mem _ hb) c (List.mem_cons_of_mem _ hc))
      unfold popUpTo
      by_cases hp : p a = true
      · rw [if_pos hp]
        exact (hrest n).trans ((List.suffix_cons a l).filter q)
      · rw [if_neg hp]
        simp only
        by_cases hqa : q a = true
        · -- No element of the queue fits, so all of them stay.
          have hnone : ∀ b ∈ l, q b = true → p b = false := by
            intro b hb hqb
            have hab := hq a (List.mem_cons_self ..) b (List.mem_cons_of_mem _ hb) hqa hqb
            rw [← hab]
            simpa using hp
          simp only [List.filter_cons_of_pos hqa, popUpTo_filter_none hnone, List.suffix_refl]
        · rw [List.filter_cons_of_neg hqa, List.filter_cons_of_neg hqa]
          exact hrest (n + 1)

/-- What is taken fits. -/
theorem popUpTo_fits (p : α → Bool) (l : List α) :
    ∀ n, ∀ a ∈ (popUpTo p n l).1, p a = true := by
  induction l with
  | nil => intro n a ha; cases n <;> cases ha
  | cons b l ih =>
    intro n a ha
    cases n with
    | zero => cases ha
    | succ n =>
      unfold popUpTo at ha
      split at ha
      · rename_i hb
        rcases List.mem_cons.mp ha with rfl | ha
        · exact hb
        · exact ih n a ha
      · exact ih (n + 1) a ha

/-- A short queue is taken whole. -/
theorem popUpTo_all {p : α → Bool} {l : List α} :
    ∀ {n : Nat}, (∀ a ∈ l, p a = true) → l.length ≤ n → popUpTo p n l = (l, []) := by
  induction l with
  | nil => intro n _ _; cases n <;> rfl
  | cons a l ih =>
    intro n hp hlen
    cases n with
    | zero => cases hlen
    | succ n =>
      have hrest := ih (fun b hb => hp b (List.mem_cons_of_mem _ hb)) (Nat.le_of_succ_le_succ hlen)
      unfold popUpTo
      rw [if_pos (hp a (List.mem_cons_self ..)), hrest]

end queues
