-- Sets of small numbers as the bits of a word. Numbers are put into the word one after the
-- other, and the word tells which ones they were.
import Mathlib.Tactic

namespace masks

/-- The word with the bits of the numbers set. -/
def setBits (m : Nat) (l : List Nat) : Nat := l.foldl (fun m i => m ||| 1 <<< i) m

section
variable {m : Nat} {l a b : List Nat}

theorem setBits_cons (m i : Nat) (l : List Nat) :
    setBits m (i :: l) = setBits (m ||| 1 <<< i) l := rfl

theorem testBit_setBits (m : Nat) (l : List Nat) (k : Nat) :
    (setBits m l).testBit k = (m.testBit k || decide (k ∈ l)) := by
  induction l generalizing m with
  | nil => simp [setBits]
  | cons i l ih =>
    rw [setBits_cons, ih, Nat.testBit_or, Nat.one_shiftLeft, Nat.testBit_two_pow]
    by_cases hk : i = k
    · simp [hk]
    · simp [hk, Ne.symm hk]

/-- Two words that start with the same bits, and get others, are the same just when they get
the same ones. -/
theorem setBits_eq_iff (ha : ∀ i ∈ a, m.testBit i = false) (hb : ∀ i ∈ b, m.testBit i = false) :
    setBits m a = setBits m b ↔ ∀ i, i ∈ a ↔ i ∈ b := by
  constructor
  · intro h i
    have hbit := congrArg (fun w => w.testBit i) h
    simp only [testBit_setBits] at hbit
    cases hm : m.testBit i with
    | false =>
      rw [hm] at hbit
      simpa using hbit
    | true =>
      refine iff_of_false (fun hi => ?_) (fun hi => ?_)
      · rw [ha i hi] at hm
        cases hm
      · rw [hb i hi] at hm
        cases hm
  · intro h
    apply Nat.eq_of_testBit_eq
    intro k
    rw [testBit_setBits, testBit_setBits, decide_eq_decide.mpr (h k)]

/-- The bits stay below a bound. -/
theorem setBits_lt {w : Nat} (hm : m < 2 ^ w) (h : ∀ i ∈ l, i < w) : setBits m l < 2 ^ w := by
  apply Nat.lt_pow_two_of_testBit
  intro k hk
  have hmk : m < 2 ^ k := Nat.lt_of_lt_of_le hm (Nat.pow_le_pow_right (by decide) hk)
  rw [testBit_setBits, Nat.testBit_lt_two_pow hmk, Bool.false_or]
  exact decide_eq_false fun hmem => absurd (h k hmem) (by omega)

end

end masks
