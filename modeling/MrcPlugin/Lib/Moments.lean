-- Mean and variance of a growing list of numbers. A running state has a count,
-- a mean and the sum of the squares around that mean. It takes one number at a
-- time and keeps none of them.
import Mathlib.Algebra.Order.BigOperators.Group.List
import Mathlib.Data.List.Induction
import Mathlib.Tactic.FieldSimp
import Mathlib.Tactic.Linarith
import Mathlib.Tactic.Ring

namespace moments

variable {K : Type*} [Field K]

/-- The sum of the squared distances from `c`. -/
def squares (c : K) (xs : List K) : K := (xs.map fun x => (x - c) ^ 2).sum

@[simp]
theorem squares_nil (c : K) : squares c [] = 0 := rfl

@[simp]
theorem squares_append (c : K) (xs ys : List K) :
    squares c (xs ++ ys) = squares c xs + squares c ys := by
  simp [squares]

@[simp]
theorem squares_singleton (c x : K) : squares c [x] = (x - c) ^ 2 := by
  simp [squares]

/-- The squares around another center. -/
theorem squares_shift (c d : K) (xs : List K) : squares c xs =
    squares d xs + 2 * (d - c) * (xs.sum - xs.length * d) + xs.length * (d - c) ^ 2 := by
  induction xs using List.reverseRecOn with
  | nil => simp
  | append_singleton xs x ih =>
    rw [squares_append, squares_append, ih]
    simp only [squares_singleton, List.sum_append, List.sum_singleton, List.length_append,
      List.length_singleton]
    push_cast
    ring

/-- The running state of the numbers `xs`. -/
structure Moments (count : Nat) (mean m2 : K) (xs : List K) : Prop where
  counted : count = xs.length
  averaged : mean * xs.length = xs.sum
  squared : m2 = squares mean xs

theorem Moments.nil : Moments 0 (0 : K) 0 [] := ⟨rfl, by simp, rfl⟩

/-- The mean goes a part of the way to the next number, and the squares grow by
the product of the distances before and after. -/
theorem Moments.snoc [CharZero K] {count : Nat} {mean m2 : K} {xs : List K}
    (h : Moments count mean m2 xs) (x : K) :
    Moments (count + 1) (mean + (x - mean) / (count + 1 : Nat))
      (m2 + (x - mean) * (x - (mean + (x - mean) / (count + 1 : Nat)))) (xs ++ [x]) := by
  obtain ⟨rfl, hmean, rfl⟩ := h
  have hn : (xs.length : K) + 1 ≠ 0 := Nat.cast_add_one_ne_zero xs.length
  refine ⟨by simp, ?_, ?_⟩
  · simp only [List.sum_append, List.sum_singleton, List.length_append, List.length_singleton]
    rw [← hmean]
    push_cast
    field_simp
    ring
  · rw [squares_append, squares_singleton,
      squares_shift (mean + (x - mean) / (xs.length + 1 : Nat)) mean xs, ← hmean]
    push_cast
    field_simp
    ring

variable [LinearOrder K] [IsStrictOrderedRing K]

theorem squares_nonneg (c : K) (xs : List K) : 0 ≤ squares c xs := by
  unfold squares
  refine List.sum_nonneg fun y hy => ?_
  obtain ⟨x, -, rfl⟩ := List.mem_map.mp hy
  exact sq_nonneg _

end moments
