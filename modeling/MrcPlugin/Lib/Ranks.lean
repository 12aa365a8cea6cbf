-- The place of a value among others. A sorted list has at index `i` a value with
-- at most `i` values below it and more than `i` values up to it.
import Mathlib.Algebra.Order.Floor.Defs
import Mathlib.Algebra.Order.Floor.Ring
import Mathlib.Data.List.Sort

namespace ranks

section
variable {α : Type*} [LinearOrder α]

/-- The values before index `i` of a sorted list are the only ones below its value. -/
theorem countP_lt_le {ys : List α} (h : ys.Pairwise (· ≤ ·)) {i : Nat} {v : α}
    (hv : ys[i]? = some v) : ys.countP (· < v) ≤ i := by
  induction ys generalizing i with
  | nil => cases hv
  | cons y ys ih =>
    obtain ⟨hfirst, hrest⟩ := List.pairwise_cons.mp h
    cases i with
    | zero =>
      obtain rfl : y = v := by simpa using hv
      rw [List.countP_eq_zero.mpr]
      intro x hx
      rcases List.mem_cons.mp hx with rfl | hx
      · simp
      · simpa using hfirst x hx
    | succ i =>
      have hcount := ih hrest (by simpa using hv)
      rw [List.countP_cons]
      split <;> omega

/-- The values up to index `i` of a sorted list are not above its value. -/
theorem lt_countP_le {ys : List α} (h : ys.Pairwise (· ≤ ·)) {i : Nat} {v : α}
    (hv : ys[i]? = some v) : i < ys.countP (· ≤ v) := by
  induction ys generalizing i with
  | nil => cases hv
  | cons y ys ih =>
    obtain ⟨hfirst, hrest⟩ := List.pairwise_cons.mp h
    cases i with
    | zero =>
      obtain rfl : y = v := by simpa using hv
      rw [List.countP_cons_of_pos (by simp)]
      omega
    | succ i =>
      have hv' : ys[i]? = some v := by simpa using hv
      have hle : y ≤ v := hfirst v (List.mem_of_getElem? hv')
      have hcount := ih hrest hv'
      rw [List.countP_cons_of_pos (by simpa using hle)]
      omega

end

variable {α : Type*} [LinearOrder α]
variable {K : Type*} [Field K] [LinearOrder K] [IsStrictOrderedRing K]

/-- `v` is the quantile `p` of `xs` by the nearest rank: it is one of them, less than the
part `p` of them is below it, and at least that part is not above it. -/
structure NearestRank (p : K) (xs : List α) (v : α) : Prop where
  mem : v ∈ xs
  below : (xs.countP (· < v) : K) < p * xs.length
  upto : p * xs.length ≤ (xs.countP (· ≤ v) : K)

/-- There is one nearest rank. -/
theorem NearestRank.unique {p : K} {xs : List α} {v w : α} (hv : NearestRank p xs v)
    (hw : NearestRank p xs w) : v = w := by
  have hle : ∀ {a b : α}, NearestRank p xs a → NearestRank p xs b → a ≤ b := by
    intro a b ha hb
    by_contra hlt
    have hsub : xs.countP (· ≤ b) ≤ xs.countP (· < a) := by
      refine List.countP_mono_left fun x _ hx => ?_
      simp only [decide_eq_true_eq] at hx ⊢
      exact hx.trans_lt (not_le.mp hlt)
    have hcast : (xs.countP (· ≤ b) : K) ≤ (xs.countP (· < a) : K) := Nat.cast_le.mpr hsub
    exact absurd ha.below (not_lt.mpr (hb.upto.trans hcast))
  exact le_antisymm (hle hv hw) (hle hw hv)

/-- The value at index `⌈p n⌉ - 1` of the sorted values. -/
theorem NearestRank.of_sorted [FloorRing K] {p : K} {xs ys : List α} (hperm : ys.Perm xs)
    (hsorted : ys.Pairwise (· ≤ ·)) {i : Nat} {v : α} (hv : ys[i]? = some v)
    (hi : ((i : Int) + 1) = ⌈p * xs.length⌉) : NearestRank p xs v := by
  refine ⟨hperm.subset (List.mem_of_getElem? hv), ?_, ?_⟩
  · have hcount := countP_lt_le hsorted hv
    rw [hperm.countP_eq] at hcount
    have hbelow : ((i : Int) : K) < p * xs.length := Int.lt_ceil.mp (by omega)
    refine lt_of_le_of_lt ?_ hbelow
    exact_mod_cast hcount
  · have hcount := lt_countP_le hsorted hv
    rw [hperm.countP_eq] at hcount
    have hceil : p * (xs.length : K) ≤ ((⌈p * (xs.length : K)⌉ : Int) : K) := Int.le_ceil _
    rw [← hi] at hceil
    refine hceil.trans ?_
    exact_mod_cast hcount

omit [IsStrictOrderedRing K] in
/-- A rank among images is one among the values themselves. -/
theorem NearestRank.of_map {β : Type*} [LinearOrder β] {f : α → β} (hf : StrictMono f) {p : K}
    {xs : List α} {v : α} (h : NearestRank p (xs.map f) (f v)) : NearestRank p xs v := by
  obtain ⟨hmem, hbelow, hupto⟩ := h
  simp only [List.countP_map, List.length_map, Function.comp_def, hf.lt_iff_lt, hf.le_iff_le]
    at hbelow hupto
  exact ⟨(List.mem_map_of_injective hf.injective).mp hmem, hbelow, hupto⟩

end ranks
