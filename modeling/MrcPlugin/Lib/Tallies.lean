-- Signed tallies over places. Each place starts with what it is to bring. When one place
-- brings what another one owes, the first tally goes below zero, and only the total
-- tells whether anything is still owed.
import Mathlib.Algebra.BigOperators.Ring.Finset
import Mathlib.Algebra.Order.BigOperators.Group.Finset
import Mathlib.Data.List.Perm.Subperm
import Mathlib.Data.Multiset.Count
import Mathlib.Tactic.Linarith

namespace tallies

open Finset

variable {n d : Nat} {f g : Nat → Int}

/-- What the first `n` places owe together. -/
def total (n : Nat) (f : Nat → Int) : Int := ∑ d ∈ range n, f d

theorem total_congr (h : ∀ d < n, f d = g d) : total n f = total n g :=
  sum_congr rfl fun d hd => h d (mem_range.mp hd)

/-- One place brings one. -/
theorem total_take (hd : d < n) (h : ∀ k, g k = f k - if k = d then 1 else 0) :
    total n g = total n f - 1 := by
  unfold total
  rw [sum_congr rfl fun k _ => h k, sum_sub_distrib, sum_ite_eq' (range n) d,
    if_pos (mem_range.mpr hd)]

/-- At the start the tally of a place is how often it is named. -/
theorem total_count {ds : List Nat} (h : ∀ d ∈ ds, d < n) :
    total n (fun d => (ds.count d : Int)) = ds.length := by
  have hcard := Multiset.sum_count_eq_card (s := range n) (m := (ds : Multiset Nat))
    fun d hd => mem_range.mpr (h d hd)
  simp only [Multiset.coe_count, Multiset.coe_card] at hcard
  unfold total
  rw [← Nat.cast_sum, hcard]

theorem total_eq_zero_iff (h : ∀ d < n, 0 ≤ f d) : total n f = 0 ↔ ∀ d < n, f d = 0 := by
  unfold total
  rw [sum_eq_zero_iff_of_nonneg fun d hd => h d (mem_range.mp hd)]
  simp only [mem_range]

/-- What is owed and what is too much, apart. -/
theorem owed_add_excess (n : Nat) (f : Nat → Int) :
    total n (fun d => if f d < 0 then 0 else f d) + total n (fun d => if f d < 0 then f d else 0) =
      total n f := by
  unfold total
  rw [← sum_add_distrib]
  refine sum_congr rfl fun d _ => ?_
  split <;> omega

/-- No place owes anything, or what is too much is as much as what is owed: as long as the
places together have not brought too much, this is so when they have brought all. -/
theorem settled_iff (h : 0 ≤ total n f) :
    (total n (fun d => if f d < 0 then 0 else f d) = 0 ∨
      -total n (fun d => if f d < 0 then f d else 0) =
        total n (fun d => if f d < 0 then 0 else f d)) ↔ total n f = 0 := by
  have hsplit := owed_add_excess n f
  have hexcess : total n (fun d => if f d < 0 then f d else 0) ≤ 0 :=
    sum_nonpos fun d _ => by split <;> omega
  constructor
  · rintro (hnone | hequal) <;> omega
  · intro hzero
    right
    omega

/-- Distinct numbers below `n` are all of them when there are `n`. -/
theorem all_below {l : List Nat} (hl : l.Nodup) (hlt : ∀ a ∈ l, a < n) (hn : n ≤ l.length) :
    ∀ a < n, a ∈ l := by
  have hsub : l.Subperm (List.range n) :=
    List.subperm_of_subset hl fun a ha => List.mem_range.mpr (hlt a ha)
  have hperm := hsub.perm_of_length_le (by rw [List.length_range]; exact hn)
  intro a ha
  exact hperm.symm.subset (List.mem_range.mpr ha)

theorem length_le_of_below {l : List Nat} (hl : l.Nodup) (hlt : ∀ a ∈ l, a < n) : l.length ≤ n := by
  have hsub : l.Subperm (List.range n) :=
    List.subperm_of_subset hl fun a ha => List.mem_range.mpr (hlt a ha)
  have hle := hsub.length_le
  rwa [List.length_range] at hle

end tallies
