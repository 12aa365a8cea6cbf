-- A limiter of messages. It knows only the time of the last message that went
-- out, zero for none, and lets the next one out when an interval has passed.
import Mathlib.Data.List.Basic
import Mathlib.Order.Nat
import Mathlib.Tactic.Cases

namespace limiter

/-- What the limiter has done until `now`: the times at which it was asked, and those at
which a message went out. -/
structure Limited (interval last now : Nat) (asked passed : List Nat) : Prop where
  latest : last = passed.getLast?.getD 0
  past : ∀ t ∈ asked, t ≤ now
  among : passed.Sublist asked
  until_last : ∀ t ∈ passed, t ≤ last
  spaced : passed.Pairwise fun t u => t = 0 ∨ t + interval ≤ u
  answered : ∀ t ∈ asked, ∃ u ∈ passed, u ≤ t ∧ t < u + interval

theorem Limited.start (interval : Nat) : Limited interval 0 0 [] [] :=
  ⟨rfl, nofun, List.Sublist.refl _, nofun, List.Pairwise.nil, nofun⟩

variable {interval last now t : Nat} {asked passed : List Nat}

/-- Time goes by. -/
theorem Limited.wait (h : Limited interval last now asked passed) (hclock : now ≤ t) :
    Limited interval last t asked passed :=
  { h with past := fun u hu => (h.past u hu).trans hclock }

theorem Limited.last_mem (h : Limited interval last now asked passed) (hlast : last ≠ 0) :
    last ∈ passed := by
  have hlast' := h.latest
  cases hget : passed.getLast? with
  | none =>
    rw [hget] at hlast'
    exact absurd hlast' hlast
  | some u =>
    rw [hget, Option.getD_some] at hlast'
    rw [hlast']
    exact List.mem_of_getLast? hget

theorem Limited.last_le (h : Limited interval last now asked passed) : last ≤ now := by
  by_cases hlast : last = 0
  · omega
  · exact h.past last (h.among.subset (h.last_mem hlast))

/-- A message does not go out, the one before it is too close. -/
theorem Limited.refuse (h : Limited interval last now asked passed) (hclock : now ≤ t)
    (hlast : last ≠ 0) (hclose : t - last < interval) :
    Limited interval last t (asked ++ [t]) passed := by
  refine { h with past := ?_, among := ?_, answered := ?_ }
  · intro u hu
    rcases List.mem_append.mp hu with hu | hu
    · exact (h.past u hu).trans hclock
    · exact (List.mem_singleton.mp hu).le
  · exact h.among.trans (List.sublist_append_left asked [t])
  · intro u hu
    rcases List.mem_append.mp hu with hu | hu
    · exact h.answered u hu
    · obtain rfl := List.mem_singleton.mp hu
      have hle := h.last_le.trans hclock
      exact ⟨last, h.last_mem hlast, hle, by omega⟩

/-- A message goes out. -/
theorem Limited.pass (h : Limited interval last now asked passed) (hclock : now ≤ t)
    (hsome : 0 < interval) (hfar : last = 0 ∨ interval ≤ t - last) :
    Limited interval t t (asked ++ [t]) (passed ++ [t]) := by
  have hbefore : ∀ u ∈ passed, u ≤ t := fun u hu =>
    (h.past u (h.among.subset hu)).trans hclock
  refine ⟨by simp, ?_, h.among.append (List.Sublist.refl _), ?_, ?_, ?_⟩
  · intro u hu
    rcases List.mem_append.mp hu with hu | hu
    · exact (h.past u hu).trans hclock
    · exact (List.mem_singleton.mp hu).le
  · intro u hu
    rcases List.mem_append.mp hu with hu | hu
    · exact hbefore u hu
    · exact (List.mem_singleton.mp hu).le
  · refine List.pairwise_append.mpr ⟨h.spaced, List.pairwise_singleton _ _, ?_⟩
    intro u hu v hv
    obtain rfl := List.mem_singleton.mp hv
    have hle := h.until_last u hu
    omega
  · intro u hu
    rcases List.mem_append.mp hu with hu | hu
    · obtain ⟨v, hv, hbetween⟩ := h.answered u hu
      exact ⟨v, List.mem_append_left _ hv, hbetween⟩
    · obtain rfl := List.mem_singleton.mp hu
      exact ⟨u, by simp, le_refl u, by omega⟩

/-- After time zero, no window as long as the interval has two messages. -/
theorem Limited.one_in_window (h : Limited interval last now asked passed) {a : Nat}
    (ha : 0 < a) : (passed.filter fun u => a ≤ u ∧ u < a + interval).length ≤ 1 := by
  have hspaced := h.spaced.filter fun u => a ≤ u ∧ u < a + interval
  match hwindow : passed.filter fun u => a ≤ u ∧ u < a + interval with
  | [] => exact Nat.zero_le 1
  | [u] => exact le_refl 1
  | u :: v :: rest =>
    rw [hwindow] at hspaced
    have hu : u ∈ passed.filter fun u => a ≤ u ∧ u < a + interval := by
      rw [hwindow]
      exact List.mem_cons_self
    have hv : v ∈ passed.filter fun u => a ≤ u ∧ u < a + interval := by
      rw [hwindow]
      exact List.mem_cons_of_mem u List.mem_cons_self
    have huv := (List.pairwise_cons.mp hspaced).1 v List.mem_cons_self
    simp only [List.mem_filter, decide_eq_true_eq] at hu hv
    omega

end limiter
