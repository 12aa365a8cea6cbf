-- Marks in a sequence. A sequence is spaced by `w` when there is a mark among any
-- `w` items in a row. The number of items since the last mark says whether one
-- more item keeps the spacing.
import Mathlib.Tactic

namespace spacing

variable {α : Type}

/-- The number of items after the last mark. -/
def trail (mark : α → Bool) (l : List α) : Nat :=
  l.foldl (fun n x => if mark x then 0 else n + 1) 0

/-- There is a mark among any `w` items in a row. -/
def Spaced (w : Nat) (mark : α → Bool) (l : List α) : Prop :=
  ∀ before row after, l = before ++ row ++ after → row.length = w → ∃ x ∈ row, mark x = true

theorem trail_snoc (mark : α → Bool) (l : List α) (x : α) :
    trail mark (l ++ [x]) = if mark x then 0 else trail mark l + 1 := by
  unfold trail
  rw [List.foldl_append]
  rfl

/-- A row with no mark lengthens the trail by its length. -/
theorem trail_append {mark : α → Bool} (l row : List α) (h : ∀ x ∈ row, mark x = false) :
    trail mark (l ++ row) = trail mark l + row.length := by
  induction row generalizing l with
  | nil => simp
  | cons x xs ih =>
    rw [← List.singleton_append, ← List.append_assoc,
      ih (l ++ [x]) (fun y hy => h y (List.mem_cons_of_mem _ hy)), trail_snoc,
      h x (List.mem_cons_self ..)]
    simp only [Bool.false_eq_true, if_false, List.length_append, List.length_singleton]
    omega

theorem spaced_nil {w : Nat} (hw : 0 < w) (mark : α → Bool) : Spaced w mark [] := by
  intro before row after h hlen
  have := congrArg List.length h
  simp only [List.length_nil, List.length_append] at this
  omega

/-- One more item keeps the spacing while the trail is shorter than `w`. -/
theorem Spaced.snoc {w : Nat} {mark : α → Bool} {l : List α} (h : Spaced w mark l) (x : α)
    (ht : trail mark (l ++ [x]) < w) : Spaced w mark (l ++ [x]) := by
  intro before row after heq hlen
  rcases List.eq_nil_or_concat after with rfl | ⟨after, y, rfl⟩
  · -- The row is at the end, so without a mark the trail would be too long.
    by_contra hnone
    have hno : ∀ z ∈ row, mark z = false := by
      intro z hz
      by_contra hmark
      exact hnone ⟨z, hz, by simpa using hmark⟩
    rw [heq, List.append_nil, trail_append before row hno] at ht
    omega
  · rw [List.concat_eq_append, ← List.append_assoc] at heq
    exact h before row after (List.append_inj' heq rfl).1 hlen

end spacing
