-- Counting in lists: what one change adds to a count, and counts over a list
-- that is made of one part for each number.
import Mathlib.Tactic
import Mathlib.Data.List.Count
import Mathlib.Data.List.Nodup
import Mathlib.Data.List.Perm.Basic
import Mathlib.Data.Nat.ModEq

namespace counts

universe u

variable {α : Type u}

/-- One member of the list begins to fit. -/
theorem countP_flip [DecidableEq α] {f g : α → Bool} {l : List α} (hl : l.Nodup) {a : α}
    (ha : a ∈ l) (hf : f a = false) (hg : g a = true) (hother : ∀ x, x ≠ a → g x = f x) :
    l.countP g = l.countP f + 1 := by
  induction l with
  | nil => cases ha
  | cons x xs ih =>
    obtain ⟨hx, hxs⟩ := List.nodup_cons.mp hl
    rw [List.countP_cons, List.countP_cons]
    by_cases hxa : x = a
    · subst hxa
      have hsame : xs.countP g = xs.countP f := by
        apply List.countP_congr
        intro y hy
        have hne : y ≠ x := fun h => hx (h ▸ hy)
        rw [hother y hne]
      simp [hf, hg, hsame]
    · have hmem : a ∈ xs := by
        rcases List.mem_cons.mp ha with h | h
        · exact absurd h.symm hxa
        · exact h
      rw [ih hxs hmem, hother x hxa]
      omega

/-- One entry of a table changes. -/
theorem countP_update (f : Nat → α) (p : α → Bool) {n k : Nat} (hk : k < n) (v : α) :
    ((List.range n).countP (fun j => p (Function.update f k v j)) : Int) =
      (List.range n).countP (fun j => p (f j)) + (if p v then 1 else 0) -
        (if p (f k) then 1 else 0) := by
  have hsame : ∀ m ≤ k, (List.range m).countP (fun j => p (Function.update f k v j)) =
      (List.range m).countP (fun j => p (f j)) := by
    intro m hm
    apply List.countP_congr
    intro j hj
    have hlt := List.mem_range.mp hj
    rw [Function.update_of_ne (by omega)]
  obtain ⟨m, rfl⟩ : ∃ m, n = k + 1 + m := ⟨n - (k + 1), by omega⟩
  induction m with
  | zero =>
    rw [Nat.add_zero, List.range_succ, List.countP_append, List.countP_append,
      hsame k (Nat.le_refl k), List.countP_singleton, List.countP_singleton, Function.update_self]
    split <;> split <;> push_cast <;> omega
  | succ m ih =>
    have hne : k + 1 + m ≠ k := by omega
    rw [← Nat.add_assoc, List.range_succ, List.countP_append, List.countP_append,
      List.countP_singleton, List.countP_singleton, Function.update_of_ne hne]
    have := ih (by omega)
    push_cast at this ⊢
    omega

/-- When every member of the list fits, the count is the length. -/
theorem all_of_countP_ge {f : α → Bool} {l : List α} (h : l.length ≤ l.countP f) :
    ∀ a ∈ l, f a = true := by
  have : l.countP f = l.length := Nat.le_antisymm List.countP_le_length h
  exact List.countP_eq_length.mp this

/-- What fits only below `n` is counted below `n`. -/
theorem countP_range_of_lt {f : Nat → Bool} {n m : Nat} (hnm : n ≤ m)
    (h : ∀ x, f x = true → x < n) : (List.range m).countP f = (List.range n).countP f := by
  obtain ⟨k, rfl⟩ := Nat.exists_eq_add_of_le hnm
  rw [List.range_add, List.countP_append]
  have hzero : ((List.range k).map (n + ·)).countP f = 0 := by
    apply List.countP_eq_zero.mpr
    intro x hx hf
    obtain ⟨y, _, rfl⟩ := List.mem_map.mp hx
    have := h _ hf
    omega
  rw [hzero, Nat.add_zero]

/-- In a list made of parts, what fits only in part `k` is counted in part `k`. -/
theorem countP_parts {f : Nat → List α} {p : α → Bool} {k : Nat}
    (h : ∀ j, ∀ x ∈ f j, p x = true → j = k) (n : Nat) :
    ((List.range n).flatMap f).countP p = if k < n then (f k).countP p else 0 := by
  induction n with
  | zero => simp
  | succ n ih =>
    rw [List.range_succ, List.flatMap_append, List.countP_append, ih]
    have hone : ([n].flatMap f) = f n := by simp
    rw [hone]
    by_cases hk : k = n
    · subst hk
      simp
    · have hzero : (f n).countP p = 0 := by
        apply List.countP_eq_zero.mpr
        intro x hx hp
        exact hk (h n x hx hp).symm
      rw [hzero]
      by_cases hlt : k < n
      · rw [if_pos hlt, if_pos (by omega), Nat.add_zero]
      · rw [if_neg hlt, if_neg (by omega)]

/-- What is left of a list when some of its members are taken away. -/
theorem countP_diff [DecidableEq α] {l m : List α} (h : ∀ x, m.count x ≤ l.count x)
    (p : α → Bool) : (l.diff m).countP p + m.countP p = l.countP p := by
  have hperm := List.subperm_append_diff_self_of_count_le (fun x _ => h x)
  rw [← hperm.countP_eq, List.countP_append]
  omega

/-- What fits one member at most is counted once at most. -/
theorem countP_le_one {p : α → Bool} {l : List α} (hl : l.Nodup)
    (h : ∀ x ∈ l, ∀ y ∈ l, p x = true → p y = true → x = y) : l.countP p ≤ 1 := by
  induction l with
  | nil => exact Nat.zero_le 1
  | cons x xs ih =>
    obtain ⟨hx, hxs⟩ := List.nodup_cons.mp hl
    rw [List.countP_cons]
    by_cases hpx : p x = true
    · have hzero : xs.countP p = 0 := by
        apply List.countP_eq_zero.mpr
        intro y hy hpy
        have heq := h x (List.mem_cons_self ..) y (List.mem_cons_of_mem _ hy) hpx hpy
        exact hx (heq ▸ hy)
      rw [hzero, if_pos hpx]
    · have hrest := ih hxs (fun y hy z hz =>
        h y (List.mem_cons_of_mem _ hy) z (List.mem_cons_of_mem _ hz))
      rw [if_neg hpx]
      omega

/-- What fits fits one of two others. -/
theorem countP_le_add {p q r : α → Bool} {l : List α}
    (h : ∀ x ∈ l, p x = true → q x = true ∨ r x = true) :
    l.countP p ≤ l.countP q + l.countP r := by
  induction l with
  | nil => exact Nat.le_refl 0
  | cons x xs ih =>
    have hrest := ih (fun y hy => h y (List.mem_cons_of_mem _ hy))
    have hx := h x (List.mem_cons_self ..)
    rw [List.countP_cons, List.countP_cons, List.countP_cons]
    by_cases hp : p x = true
    · rcases hx hp with hq | hr
      · rw [if_pos hp, if_pos hq]
        omega
      · rw [if_pos hp, if_pos hr]
        omega
    · rw [if_neg hp]
      omega

/-- When each fitting member has one of `n` owners, and each owner has `q` of them
at most, there are at most `n * q`. -/
theorem countP_le_mul (own : Nat → α → Bool) {l : List α} {q : Nat} (n : Nat) :
    ∀ p : α → Bool, (∀ x ∈ l, p x = true → ∃ i < n, own i x = true) →
      (∀ i < n, l.countP (own i) ≤ q) → l.countP p ≤ n * q := by
  induction n with
  | zero =>
    intro p hown _
    have hzero : l.countP p = 0 := by
      apply List.countP_eq_zero.mpr
      intro x hx hp
      obtain ⟨i, hi, -⟩ := hown x hx hp
      omega
    omega
  | succ n ih =>
    intro p hown hle
    rw [List.countP_eq_countP_filter_add l p (own n), List.countP_filter, List.countP_filter]
    have hlast : l.countP (fun x => p x && own n x) ≤ q := by
      refine Nat.le_trans (List.countP_mono_left ?_) (hle n (Nat.lt_succ_self n))
      intro x _ hx
      exact (Bool.and_eq_true_iff.mp hx).2
    have hrest : l.countP (fun x => p x && !own n x) ≤ n * q := by
      apply ih
      · intro x hx hp
        obtain ⟨hpx, hno⟩ := Bool.and_eq_true_iff.mp hp
        obtain ⟨i, hi, hix⟩ := hown x hx hpx
        refine ⟨i, ?_, hix⟩
        have hne : i ≠ n := by
          rintro rfl
          rw [hix] at hno
          cases hno
        omega
      · exact fun i hi => hle i (Nat.lt_succ_of_lt hi)
    rw [Nat.succ_mul]
    omega

/-- Different values are taken by different members. -/
theorem sum_countP_le {β : Type u} [DecidableEq β] {f : α → β} {ks : List β} (hks : ks.Nodup) :
    ∀ l : List α, (ks.map (fun k => l.countP (fun x => f x = k))).sum ≤ l.length := by
  induction ks with
  | nil => exact fun _ => Nat.zero_le _
  | cons k ks ih =>
    intro l
    obtain ⟨hk, hks⟩ := List.nodup_cons.mp hks
    have hrest := ih hks (l.filter (fun x => f x ≠ k))
    have hsame : ks.map (fun k' => (l.filter (fun x => f x ≠ k)).countP (fun x => f x = k')) =
        ks.map (fun k' => l.countP (fun x => f x = k')) := by
      apply List.map_congr_left
      intro k' hk'
      rw [List.countP_filter]
      apply List.countP_congr
      intro x _
      have hne : k' ≠ k := fun he => hk (he ▸ hk')
      simp only [Bool.and_eq_true, decide_eq_true_eq]
      exact ⟨fun h => h.1, fun h => ⟨h, h ▸ hne⟩⟩
    rw [hsame, ← List.countP_eq_length_filter] at hrest
    rw [List.map_cons, List.sum_cons]
    have hsplit := List.length_eq_countP_add_countP (fun x => decide (f x = k)) (l := l)
    have hnot : l.countP (fun x => decide ¬(decide (f x = k) = true)) =
        l.countP (fun x => decide (f x ≠ k)) := by
      apply List.countP_congr
      intro x _
      simp
    omega

/-- Of `n` numbers in a row, at most one in `m` has a given remainder. -/
theorem countP_mod_le {m n q : Nat} (hn : n ≤ m * q) (start d : Nat) :
    (List.range n).countP (fun i => (start + i) % m = d) ≤ q := by
  have hall : ∀ q, (List.range (m * q)).countP (fun i => (start + i) % m = d) ≤ q := by
    intro q
    induction q with
    | zero => exact Nat.le_refl 0
    | succ q ih =>
      rw [Nat.mul_succ, List.range_add, List.countP_append, List.countP_map]
      have hone : (List.range m).countP
          ((fun i => decide ((start + i) % m = d)) ∘ fun i => m * q + i) ≤ 1 := by
        apply countP_le_one List.nodup_range
        intro x hx y hy hpx hpy
        have hx := List.mem_range.mp hx
        have hy := List.mem_range.mp hy
        have hmod : (start + (m * q + x)) % m = (start + (m * q + y)) % m :=
          (of_decide_eq_true hpx).trans (of_decide_eq_true hpy).symm
        have hmod' : (start + m * q + x) ≡ (start + m * q + y) [MOD m] := by
          unfold Nat.ModEq
          rw [Nat.add_assoc, Nat.add_assoc]
          exact hmod
        have hxy := Nat.ModEq.add_left_cancel' _ hmod'
        exact Nat.ModEq.eq_of_lt_of_lt hxy hx hy
      omega
  have hsub : (List.range n).Sublist (List.range (m * q)) := List.range_sublist.mpr hn
  exact Nat.le_trans (hsub.countP_le) (hall q)

end counts
