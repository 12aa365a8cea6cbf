-- The estimator of one percentile (net_ib/wqe_lat_mon.cc, p2Init, p2Update, p2Estimate):
-- five markers with a height and a position each. The doubles are the numbers of an
-- ordered field, a division by zero has no result.
import Mathlib.Tactic

namespace net_ib.latmon

/-! ## Sorting -/

section
variable {α : Type}

/-- The values of the first `m` entries. -/
def Values (a : Nat → α) (m : Nat) (v : α) : Prop := ∃ i < m, a i = v

theorem values_succ (a : Nat → α) (m : Nat) (v : α) :
    Values a (m + 1) v ↔ Values a m v ∨ a m = v := by
  constructor
  · rintro ⟨i, hi, rfl⟩
    obtain hlt | rfl : i < m ∨ i = m := by omega
    · exact .inl ⟨i, hlt, rfl⟩
    · exact .inr rfl
  · rintro (⟨i, hi, rfl⟩ | rfl)
    · exact ⟨i, by omega, rfl⟩
    · exact ⟨m, by omega, rfl⟩

theorem values_update (a : Nat → α) {m k : Nat} (hk : m ≤ k) (x v : α) :
    Values (Function.update a k x) m v ↔ Values a m v := by
  constructor
  · rintro ⟨i, hi, rfl⟩
    exact ⟨i, hi, (Function.update_of_ne (by omega) ..).symm⟩
  · rintro ⟨i, hi, rfl⟩
    exact ⟨i, hi, Function.update_of_ne (by omega) ..⟩

end

section
variable {α : Type} [LinearOrder α]

/-- The inner loop of `p2SortAsc`: `key` goes down to its place among the first `j`. -/
def sink (key : α) : Nat → (Nat → α) → Nat → α
  | 0, a => Function.update a 0 key
  | j + 1, a =>
    if a j > key then sink key j (Function.update a (j + 1) (a j))
    else Function.update a (j + 1) key

/-- `p2SortAsc`: the first `n` entries, by insertion. -/
def p2SortAsc (a : Nat → α) (n : Nat) : Nat → α :=
  (List.range' 1 (n - 1)).foldl (fun a i => sink (a i) i a) a

/-- The first `m` entries do not decrease. -/
def SortedTo (a : Nat → α) (m : Nat) : Prop := ∀ i j, i ≤ j → j < m → a i ≤ a j

variable {a : Nat → α} {n : Nat}

theorem SortedTo.of_le {m : Nat} (h : SortedTo a n) (hle : m ≤ n) : SortedTo a m :=
  fun i j hij hj => h i j hij (by omega)

/-- An entry that is not below those before it goes on with their order. -/
theorem SortedTo.snoc (h : SortedTo a n) (hlast : ∀ i < n, a i ≤ a n) : SortedTo a (n + 1) := by
  intro i j hij hj
  obtain hlt | rfl : j < n ∨ j = n := by omega
  · exact h i j hij hlt
  · obtain hlt | rfl : i < j ∨ i = j := by omega
    · exact hlast i hlt
    · exact le_refl _

theorem SortedTo.update (h : SortedTo a n) {k : Nat} (hk : n ≤ k) (x : α) :
    SortedTo (Function.update a k x) n := by
  intro i j hij hj
  rw [Function.update_of_ne (by omega), Function.update_of_ne (by omega)]
  exact h i j hij hj

theorem sink_above (key : α) (j : Nat) (a : Nat → α) {i : Nat} (hi : j < i) :
    sink key j a i = a i := by
  induction j generalizing a with
  | zero => exact Function.update_of_ne (by omega) ..
  | succ j ih =>
    unfold sink
    split
    · rw [ih _ (by omega)]
      exact Function.update_of_ne (by omega) ..
    · exact Function.update_of_ne (by omega) ..

/-- The entries up to the place of the key are those before it and the key. -/
theorem values_sink (key : α) (j : Nat) (a : Nat → α) (v : α) :
    Values (sink key j a) (j + 1) v ↔ Values a j v ∨ key = v := by
  induction j generalizing a with
  | zero =>
    rw [values_succ, sink, Function.update_self]
    exact or_congr_left (by simp [Values])
  | succ j ih =>
    rw [values_succ, sink]
    split
    · rw [ih, sink_above _ _ _ (by omega), Function.update_self, values_update _ (by omega),
        values_succ]
      tauto
    · rw [values_update _ (by omega), Function.update_self]

theorem sink_sorted (key : α) (j : Nat) (h : SortedTo a j) : SortedTo (sink key j a) (j + 1) := by
  induction j generalizing a with
  | zero =>
    intro i k hik hk
    obtain rfl : i = k := by omega
    exact le_refl _
  | succ j ih =>
    unfold sink
    split
    · rename_i hgt
      have hbelow : SortedTo (Function.update a (j + 1) (a j)) j :=
        (h.of_le (by omega)).update (by omega) _
      have htop : sink key j (Function.update a (j + 1) (a j)) (j + 1) = a j := by
        rw [sink_above _ _ _ (Nat.lt_succ_self j), Function.update_self]
      refine (ih hbelow).snoc (fun i hi => ?_)
      rw [htop]
      -- What went up by one place is above the key and the entries before it.
      obtain ⟨k, hk, hvalue⟩ | hkey := (values_sink key j _ _).mp ⟨i, hi, rfl⟩
      · rw [← hvalue, Function.update_of_ne (by omega)]
        exact h k j (by omega) (by omega)
      · rw [← hkey]
        exact hgt.le
    · rename_i hle
      refine (h.update (by omega) key).snoc (fun i hi => ?_)
      rw [Function.update_self, Function.update_of_ne (by omega)]
      exact (h i j (by omega) (by omega)).trans (not_lt.mp hle)

/-- The loop over the keys: the entries up to the last key are sorted, and they are those
of before. -/
theorem p2SortAsc_spec (a : Nat → α) (m : Nat) : SortedTo (p2SortAsc a (m + 1)) (m + 1) ∧
    (∀ v, Values (p2SortAsc a (m + 1)) (m + 1) v ↔ Values a (m + 1) v) ∧
    ∀ i, m < i → p2SortAsc a (m + 1) i = a i := by
  induction m with
  | zero =>
    refine ⟨fun i j hij hj => ?_, fun v => Iff.rfl, fun i _ => rfl⟩
    obtain rfl : i = j := by omega
    exact le_refl _
  | succ m ih =>
    obtain ⟨hsorted, hvalues, habove⟩ := ih
    have hstep : p2SortAsc a (m + 1 + 1) =
        sink (p2SortAsc a (m + 1) (m + 1)) (m + 1) (p2SortAsc a (m + 1)) := by
      unfold p2SortAsc
      rw [Nat.add_sub_cancel, Nat.add_sub_cancel, List.range'_1_concat, List.foldl_append,
        Nat.add_comm 1 m]
      rfl
    rw [hstep]
    refine ⟨sink_sorted _ _ hsorted, fun v => ?_, fun i hi => ?_⟩
    · rw [values_sink, hvalues, habove _ (Nat.lt_succ_self m), values_succ a (m + 1)]
    · rw [sink_above _ _ _ hi, habove i (by omega)]

end

variable {K : Type} [Field K] [LinearOrder K]

/-! ## Markers -/

/-- `ncclIbP2Quantile`. Of the arrays only the first five entries are used. -/
structure NcclIbP2Quantile (K : Type) where
  p : K
  q : Nat → K
  n : Nat → Nat

def p2Init (p : K) : NcclIbP2Quantile K := ⟨p, fun _ => 0, fun _ => 0⟩

/-- A division; by zero there is none. -/
def div? (a b : K) : Option K := if b = 0 then none else some (a / b)

theorem div?_of_ne {a b : K} (h : b ≠ 0) : div? a b = some (a / b) := if_neg h

/-- The wanted fraction of each marker. -/
def fractions (p : K) : Nat → K
  | 0 => 0
  | 1 => p / 2
  | 2 => p
  | 3 => (1 + p) / 2
  | _ => 1

/-- The parabolic formula for marker `i`, moved by `s`. -/
def parabolic (e : NcclIbP2Quantile K) (i : Nat) (s : Int) : Option K := do
  let slope ← div? (s : K) ((e.n (i + 1) : K) - e.n (i - 1))
  let right ← div? (((e.n i : K) - e.n (i - 1) + s) * (e.q (i + 1) - e.q i))
    ((e.n (i + 1) : K) - e.n i)
  let left ← div? (((e.n (i + 1) : K) - e.n i - s) * (e.q i - e.q (i - 1)))
    ((e.n i : K) - e.n (i - 1))
  some (e.q i + slope * (right + left))

/-- The linear formula, towards the neighbour of the move. -/
def linear (e : NcclIbP2Quantile K) (i : Nat) (s : Int) : Option K :=
  if s = 1 then
    (div? (e.q (i + 1) - e.q i) ((e.n (i + 1) : K) - e.n i)).map (e.q i + ·)
  else
    (div? (e.q i - e.q (i - 1)) ((e.n i : K) - e.n (i - 1))).map (e.q i - ·)

/-- The height of a marker that moves: by the parabola, if that stays between the
neighbours. -/
def nextHeight (e : NcclIbP2Quantile K) (i : Nat) (s : Int) : Option K :=
  (parabolic e i s).bind fun qNew =>
    if e.q (i - 1) < qNew ∧ qNew < e.q (i + 1) then some qNew else linear e i s

/-- One turn of the last loop of `p2Update`: marker `i` moves by one if it is a position
or more from where it should be, and has the room. -/
def p2Adjust (count : Nat) (e : NcclIbP2Quantile K) (i : Nat) : Option (NcclIbP2Quantile K) :=
  let d : K := 1 + (count - 1 : Nat) * fractions e.p i - e.n i
  if (1 ≤ d ∧ 1 < (e.n (i + 1) : K) - e.n i) ∨ (d ≤ -1 ∧ (e.n (i - 1) : K) - e.n i < -1) then
    let s : Int := if 0 ≤ d then 1 else -1
    (nextHeight e i s).map fun height =>
      { e with
        q := Function.update e.q i height
        n := Function.update e.n i (e.n i + s).toNat }
  else some e

/-- The cell of a sample between the outer markers. -/
def p2Cell (q : Nat → K) (x : K) : Nat :=
  match [1, 2, 3, 4].find? (fun i => x < q i) with
  | some i => i - 1
  | none => 0

/-- The outer markers take a sample beyond them; the cell of the sample comes with it. -/
def p2Place (q : Nat → K) (x : K) : (Nat → K) × Nat :=
  if x < q 0 then (Function.update q 0 x, 0)
  else if q 4 ≤ x then (Function.update q 4 x, 3)
  else (q, p2Cell q x)

/-- `p2Update`, for sample number `count`. -/
def p2Update (e : NcclIbP2Quantile K) (x : K) (count : Nat) : Option (NcclIbP2Quantile K) :=
  if count ≤ 5 then
    let q := Function.update e.q (count - 1) x
    if count = 5 then some { e with q := p2SortAsc q 5, n := fun i => if i < 5 then i + 1 else e.n i }
    else some { e with q }
  else
    let (q, k) := p2Place e.q x
    let n := fun i => if k + 1 ≤ i ∧ i < 5 then e.n i + 1 else e.n i
    [1, 2, 3].foldlM (p2Adjust count) { e with q, n }

/-- `p2Estimate`. -/
def p2Estimate [FloorRing K] (e : NcclIbP2Quantile K) (count : Nat) : Nat :=
  if count = 0 then 0
  else
    let v :=
      if 5 ≤ count then e.q 2
      else
        let idx := ⌈e.p * count⌉ - 1
        let idx := if idx < 0 then 0 else idx
        let idx := if idx ≥ count then (count : Int) - 1 else idx
        p2SortAsc e.q count idx.toNat
    if v < 0 then 0 else ⌊v + 1 / 2⌋.toNat

/-- The estimator after a sequence of samples, and their number. -/
def p2Feed (p : K) (xs : List K) : Option (NcclIbP2Quantile K × Nat) :=
  xs.foldlM (fun s x => (p2Update s.1 x (s.2 + 1)).map fun e => (e, s.2 + 1)) (p2Init p, 0)

example : (p2Feed (1 / 2 : ℚ) [5, 1, 4, 2, 3, 9, 0]).map (fun s => p2Estimate s.1 s.2) = some 3 := by
  decide +kernel

/-! ## One marker -/

variable [IsStrictOrderedRing K]

/-- The heights do not decrease, and the positions increase. -/
structure Ordered (e : NcclIbP2Quantile K) : Prop where
  heights : ∀ i < 4, e.q i ≤ e.q (i + 1)
  positions : ∀ i < 4, e.n i < e.n (i + 1)

section
variable {e : NcclIbP2Quantile K} {j : Nat}

/-- The distance of two positions. -/
theorem gap_ne {a b : Nat} (h : a < b) : (b : K) - a ≠ 0 :=
  sub_ne_zero_of_ne (by exact_mod_cast h.ne')

/-- No formula divides by zero. -/
theorem Ordered.parabolic_some (h : Ordered e) (hj : j < 3) (s : Int) :
    ∃ qNew, parabolic e (j + 1) s = some qNew := by
  have hleft : e.n j < e.n (j + 1) := h.positions j (by omega)
  have hright : e.n (j + 1) < e.n (j + 2) := h.positions (j + 1) (by omega)
  unfold parabolic
  rw [Nat.add_sub_cancel, div?_of_ne (gap_ne (hleft.trans hright)), div?_of_ne (gap_ne hright),
    div?_of_ne (gap_ne hleft)]
  exact ⟨_, rfl⟩

/-- A step of the line towards the right neighbour ends between the two. -/
theorem between_right {a b g : K} (hab : a ≤ b) (hg : 1 < g) :
    a ≤ a + (b - a) / g ∧ a + (b - a) / g ≤ b := by
  have hd : 0 ≤ b - a := sub_nonneg.mpr hab
  have hle : (b - a) / g ≤ b - a := div_le_self hd hg.le
  exact ⟨le_add_of_nonneg_right (div_nonneg hd (by linarith)), by linarith⟩

theorem between_left {a b g : K} (hab : a ≤ b) (hg : 1 < g) :
    a ≤ b - (b - a) / g ∧ b - (b - a) / g ≤ b := by
  have hd : 0 ≤ b - a := sub_nonneg.mpr hab
  have hle : (b - a) / g ≤ b - a := div_le_self hd hg.le
  exact ⟨by linarith, sub_le_self _ (div_nonneg hd (by linarith))⟩

/-- The linear formula stays between the neighbours, as there is room. -/
theorem Ordered.linear_between (h : Ordered e) (hj : j < 3) {s : Int}
    (hroom : s = 1 ∧ (1 : K) < e.n (j + 2) - e.n (j + 1) ∨
      s = -1 ∧ (1 : K) < e.n (j + 1) - e.n j) :
    ∃ height, linear e (j + 1) s = some height ∧ e.q j ≤ height ∧ height ≤ e.q (j + 2) := by
  have hleft := h.heights j (by omega)
  have hright : e.q (j + 1) ≤ e.q (j + 2) := h.heights (j + 1) (by omega)
  unfold linear
  rw [Nat.add_sub_cancel]
  obtain ⟨rfl, hgap⟩ | ⟨rfl, hgap⟩ := hroom
  · obtain ⟨hlow, hhigh⟩ := between_right hright hgap
    rw [if_pos rfl, div?_of_ne (by linarith), Option.map_some]
    exact ⟨_, rfl, hleft.trans hlow, hhigh⟩
  · obtain ⟨hlow, hhigh⟩ := between_left hleft hgap
    rw [if_neg (by decide), div?_of_ne (by linarith), Option.map_some]
    exact ⟨_, rfl, hlow, hhigh.trans hright⟩

/-- The new height stays between the neighbours. -/
theorem Ordered.height_between (h : Ordered e) (hj : j < 3) {s : Int}
    (hroom : s = 1 ∧ (1 : K) < e.n (j + 2) - e.n (j + 1) ∨
      s = -1 ∧ (1 : K) < e.n (j + 1) - e.n j) :
    ∃ height, nextHeight e (j + 1) s = some height ∧ e.q j ≤ height ∧ height ≤ e.q (j + 2) := by
  obtain ⟨qNew, hnew⟩ := h.parabolic_some hj s
  unfold nextHeight
  rw [hnew, Option.bind_some, Nat.add_sub_cancel]
  by_cases hin : e.q j < qNew ∧ qNew < e.q (j + 2)
  · exact ⟨qNew, if_pos hin, hin.1.le, hin.2.le⟩
  · rw [if_neg hin]
    exact h.linear_between hj hroom

/-- The new position too. -/
theorem Ordered.position_between (h : Ordered e) (hj : j < 3) {s : Int}
    (hroom : s = 1 ∧ (1 : K) < e.n (j + 2) - e.n (j + 1) ∨
      s = -1 ∧ (1 : K) < e.n (j + 1) - e.n j) :
    e.n j < (e.n (j + 1) + s).toNat ∧ (e.n (j + 1) + s).toNat < e.n (j + 2) := by
  have hleft : e.n j < e.n (j + 1) := h.positions j (by omega)
  have hright : e.n (j + 1) < e.n (j + 2) := h.positions (j + 1) (by omega)
  obtain ⟨rfl, hgap⟩ | ⟨rfl, hgap⟩ := hroom
  · have hnat : e.n (j + 1) + 1 < e.n (j + 2) := by
      exact_mod_cast (by linarith : (e.n (j + 1) : K) + 1 < e.n (j + 2))
    omega
  · have hnat : e.n j + 1 < e.n (j + 1) := by
      exact_mod_cast (by linarith : (e.n j : K) + 1 < e.n (j + 1))
    omega

omit [Field K] [IsStrictOrderedRing K] in
/-- A marker moves between its neighbours. -/
theorem Ordered.move (h : Ordered e) {height : K} {position : Nat} (hlow : e.q j ≤ height)
    (hhigh : height ≤ e.q (j + 2)) (hbefore : e.n j < position) (hafter : position < e.n (j + 2)) :
    Ordered { e with
      q := Function.update e.q (j + 1) height
      n := Function.update e.n (j + 1) position } where
  heights := by
    intro i hi
    obtain rfl | rfl | hne : i = j ∨ i = j + 1 ∨ (i ≠ j ∧ i ≠ j + 1) := by omega
    · simpa using hlow
    · simpa using hhigh
    · simpa [Function.update_of_ne, hne.1, hne.2] using h.heights i hi
  positions := by
    intro i hi
    obtain rfl | rfl | hne : i = j ∨ i = j + 1 ∨ (i ≠ j ∧ i ≠ j + 1) := by omega
    · simpa using hbefore
    · simpa using hafter
    · simpa [Function.update_of_ne, hne.1, hne.2] using h.positions i hi

/-- One turn of the loop keeps the order, and all other markers. -/
theorem Ordered.adjust (h : Ordered e) (hj : j < 3) (count : Nat) :
    ∃ e', p2Adjust count e (j + 1) = some e' ∧ Ordered e' ∧ e'.p = e.p ∧
      ∀ i ≠ j + 1, e'.q i = e.q i ∧ e'.n i = e.n i := by
  unfold p2Adjust
  simp only [Nat.add_sub_cancel]
  generalize 1 + ((count - 1 : Nat) : K) * fractions e.p (j + 1) - e.n (j + 1) = d
  split
  · rename_i hmove
    -- The direction, and the room that it has.
    obtain ⟨s, hs, hroom⟩ : ∃ s : Int, (if 0 ≤ d then 1 else -1) = s ∧
        (s = 1 ∧ (1 : K) < e.n (j + 2) - e.n (j + 1) ∨
          s = -1 ∧ (1 : K) < e.n (j + 1) - e.n j) := by
      obtain ⟨hd, hgap⟩ | ⟨hd, hgap⟩ := hmove
      · exact ⟨1, if_pos (by linarith), .inl ⟨rfl, hgap⟩⟩
      · exact ⟨-1, if_neg (by linarith), .inr ⟨rfl, by linarith⟩⟩
    rw [hs]
    obtain ⟨height, hheight, hlow, hhigh⟩ := h.height_between hj hroom
    obtain ⟨hbefore, hafter⟩ := h.position_between hj hroom
    rw [hheight, Option.map_some]
    refine ⟨_, rfl, h.move hlow hhigh hbefore hafter, rfl, fun i hi => ⟨?_, ?_⟩⟩
    · exact Function.update_of_ne hi ..
    · exact Function.update_of_ne hi ..
  · exact ⟨e, rfl, h, rfl, fun i _ => ⟨rfl, rfl⟩⟩

/-- The whole loop keeps the order and the outer markers. -/
theorem Ordered.adjusts (h : Ordered e) (count : Nat) :
    ∃ e', [1, 2, 3].foldlM (p2Adjust count) e = some e' ∧ Ordered e' ∧ e'.p = e.p ∧
      ∀ i, i = 0 ∨ i = 4 → e'.q i = e.q i ∧ e'.n i = e.n i := by
  obtain ⟨e1, he1, h1, hp1, hsame1⟩ := h.adjust (j := 0) (by decide) count
  obtain ⟨e2, he2, h2, hp2, hsame2⟩ := h1.adjust (j := 1) (by decide) count
  obtain ⟨e3, he3, h3, hp3, hsame3⟩ := h2.adjust (j := 2) (by decide) count
  refine ⟨e3, ?_, h3, hp3.trans (hp2.trans hp1), fun i hi => ?_⟩
  · rw [List.foldlM_cons, he1, Option.bind_eq_bind, Option.bind_some, List.foldlM_cons, he2,
      Option.bind_eq_bind, Option.bind_some, List.foldlM_cons, he3]
    rfl
  · obtain ⟨hq1, hn1⟩ := hsame1 i (by omega)
    obtain ⟨hq2, hn2⟩ := hsame2 i (by omega)
    obtain ⟨hq3, hn3⟩ := hsame3 i (by omega)
    exact ⟨hq3.trans (hq2.trans hq1), hn3.trans (hn2.trans hn1)⟩

/-! ## One sample -/

omit [Field K] [IsStrictOrderedRing K] in
theorem p2Cell_le (q : Nat → K) (x : K) : p2Cell q x ≤ 3 := by
  unfold p2Cell
  split
  · rename_i i hi
    have hmem := List.mem_of_find?_eq_some hi
    simp only [List.mem_cons, List.not_mem_nil, or_false] at hmem
    omega
  · exact Nat.zero_le 3

omit [Field K] [IsStrictOrderedRing K] in
/-- Placing a sample keeps the order, and the outer markers take it. -/
theorem p2Place_spec {q : Nat → K} (h : ∀ i < 4, q i ≤ q (i + 1)) (x : K) :
    (∀ i < 4, (p2Place q x).1 i ≤ (p2Place q x).1 (i + 1)) ∧ (p2Place q x).2 ≤ 3 ∧
      (p2Place q x).1 0 = min (q 0) x ∧ (p2Place q x).1 4 = max (q 4) x := by
  have h04 : q 0 ≤ q 4 := (h 0 (by decide)).trans ((h 1 (by decide)).trans
    ((h 2 (by decide)).trans (h 3 (by decide))))
  unfold p2Place
  split
  · rename_i hlow
    refine ⟨fun i hi => ?_, Nat.zero_le 3, ?_, ?_⟩
    · by_cases hi0 : i = 0
      · subst hi0
        simpa using hlow.le.trans (h 0 (by decide))
      · simpa [Function.update_of_ne, hi0] using h i hi
    · simp [min_eq_right hlow.le]
    · simp [max_eq_left (hlow.le.trans h04)]
  split
  · rename_i hlow hhigh
    refine ⟨fun i hi => ?_, Nat.le_refl 3, ?_, ?_⟩
    · by_cases hi3 : i = 3
      · subst hi3
        simpa using (h 3 (by decide)).trans hhigh
      · have hi4 : i ≠ 4 := by omega
        simpa [Function.update_of_ne, hi3, hi4] using h i hi
    · simp [min_eq_left (not_lt.mp hlow)]
    · simp [max_eq_right hhigh]
  · rename_i hlow hhigh
    exact ⟨h, p2Cell_le q x, (min_eq_left (not_lt.mp hlow)).symm,
      (max_eq_left (not_le.mp hhigh).le).symm⟩

/-- The estimator while it collects the first samples. -/
structure Collected (e : NcclIbP2Quantile K) (xs : List K) : Prop where
  few : xs.length < 5
  samples : ∀ i < xs.length, xs[i]? = some (e.q i)

/-- The estimator from the fifth sample on. -/
structure Estimating (e : NcclIbP2Quantile K) (xs : List K) : Prop where
  many : 5 ≤ xs.length
  ordered : Ordered e
  first : e.n 0 = 1
  last : e.n 4 = xs.length
  least : e.q 0 ∈ xs ∧ ∀ x ∈ xs, e.q 0 ≤ x
  greatest : e.q 4 ∈ xs ∧ ∀ x ∈ xs, x ≤ e.q 4

variable {xs : List K}

omit [Field K] [LinearOrder K] [IsStrictOrderedRing K] in
theorem values_iff_mem {q : Nat → K} (h : ∀ i < xs.length, xs[i]? = some (q i)) (v : K) :
    Values q xs.length v ↔ v ∈ xs := by
  rw [List.mem_iff_getElem?]
  constructor
  · rintro ⟨i, hi, rfl⟩
    exact ⟨i, h i hi⟩
  · rintro ⟨i, hi⟩
    have hlt : i < xs.length := (List.getElem?_eq_some_iff.mp hi).1
    rw [h i hlt] at hi
    exact ⟨i, hlt, Option.some.inj hi⟩

omit [Field K] [LinearOrder K] [IsStrictOrderedRing K] in
/-- The array takes the next sample. -/
theorem Collected.snoc (h : Collected e xs) (x : K) : ∀ i < (xs ++ [x]).length,
    (xs ++ [x])[i]? = some (Function.update e.q xs.length x i) := by
  intro i hi
  rw [List.length_append, List.length_singleton] at hi
  obtain hlt | rfl : i < xs.length ∨ i = xs.length := by omega
  · rw [List.getElem?_append_left hlt, Function.update_of_ne (by omega)]
    exact h.samples i hlt
  · rw [List.getElem?_concat_length, Function.update_self]

omit [IsStrictOrderedRing K] in
/-- One of the first four samples. -/
theorem Collected.collect (h : Collected e xs) (x : K) (hfew : xs.length < 4) :
    ∃ e', p2Update e x (xs.length + 1) = some e' ∧ e'.p = e.p ∧ Collected e' (xs ++ [x]) := by
  unfold p2Update
  rw [if_pos (by omega), Nat.add_sub_cancel]
  dsimp only
  rw [if_neg (by omega)]
  refine ⟨_, rfl, rfl, ?_, h.snoc x⟩
  rw [List.length_append, List.length_singleton]
  omega

omit [IsStrictOrderedRing K] in
/-- The fifth sample: the markers are the sorted samples. -/
theorem Collected.start (h : Collected e xs) (x : K) (hfour : xs.length = 4) :
    ∃ e', p2Update e x (xs.length + 1) = some e' ∧ e'.p = e.p ∧ Estimating e' (xs ++ [x]) := by
  have hlength : (xs ++ [x]).length = 5 := by simp [hfour]
  obtain ⟨hsorted, hvalues, -⟩ := p2SortAsc_spec (Function.update e.q xs.length x) 4
  have hmem : ∀ v, Values (p2SortAsc (Function.update e.q xs.length x) 5) 5 v ↔ v ∈ xs ++ [x] := by
    intro v
    rw [hvalues, ← values_iff_mem (h.snoc x), hlength]
  unfold p2Update
  rw [if_pos (by omega), Nat.add_sub_cancel]
  dsimp only
  rw [if_pos (by omega)]
  refine ⟨_, rfl, rfl, hlength.ge, ⟨?_, ?_⟩, rfl, ?_, ⟨?_, ?_⟩, ?_, ?_⟩
  · exact fun i hi => hsorted i (i + 1) (by omega) (by omega)
  · intro i hi
    dsimp only
    rw [if_pos (by omega), if_pos (by omega)]
    omega
  · rw [hlength]
    rfl
  · exact (hmem _).mp ⟨0, by decide, rfl⟩
  · intro y hy
    obtain ⟨i, hi, rfl⟩ := (hmem y).mpr hy
    exact hsorted 0 i (Nat.zero_le i) hi
  · exact (hmem _).mp ⟨4, by decide, rfl⟩
  · intro y hy
    obtain ⟨i, hi, rfl⟩ := (hmem y).mpr hy
    exact hsorted i 4 (by omega) (by decide)

/-- A later sample. -/
theorem Estimating.update (h : Estimating e xs) (x : K) :
    ∃ e', p2Update e x (xs.length + 1) = some e' ∧ e'.p = e.p ∧ Estimating e' (xs ++ [x]) := by
  have hmany := h.many
  obtain ⟨hheights, hk, hlow, hhigh⟩ := p2Place_spec h.ordered.heights x
  unfold p2Update
  rw [if_neg (by omega)]
  generalize p2Place e.q x = placed at hheights hk hlow hhigh ⊢
  obtain ⟨q, k⟩ := placed
  dsimp only at hheights hk hlow hhigh ⊢
  have hordered : Ordered { e with
      q := q, n := fun i => if k + 1 ≤ i ∧ i < 5 then e.n i + 1 else e.n i } := by
    refine ⟨hheights, fun i hi => ?_⟩
    have hstep := h.ordered.positions i hi
    dsimp only
    split
    · rw [if_pos (by omega)]
      omega
    · split
      · omega
      · exact hstep
  obtain ⟨e', he', hordered', hp, hsame⟩ := hordered.adjusts (xs.length + 1)
  obtain ⟨hq0, hn0⟩ := hsame 0 (.inl rfl)
  obtain ⟨hq4, hn4⟩ := hsame 4 (.inr rfl)
  refine ⟨e', he', hp, ?_, hordered', ?_, ?_, ⟨?_, ?_⟩, ?_, ?_⟩
  · rw [List.length_append]
    omega
  · rw [hn0]
    dsimp only
    rw [if_neg (by omega)]
    exact h.first
  · rw [hn4, List.length_append, List.length_singleton]
    dsimp only
    rw [if_pos (by omega), h.last]
  · rw [hq0]
    dsimp only
    rw [hlow]
    obtain hle | hlt := le_total (e.q 0) x
    · rw [min_eq_left hle]
      exact List.mem_append_left _ h.least.1
    · rw [min_eq_right hlt]
      exact List.mem_append_right _ (List.mem_singleton.mpr rfl)
  · intro y hy
    rw [hq0]
    dsimp only
    rw [hlow]
    obtain hy | hy := List.mem_append.mp hy
    · exact (min_le_left _ _).trans (h.least.2 y hy)
    · rw [List.mem_singleton.mp hy]
      exact min_le_right _ _
  · rw [hq4]
    dsimp only
    rw [hhigh]
    obtain hle | hlt := le_total (e.q 4) x
    · rw [max_eq_right hle]
      exact List.mem_append_right _ (List.mem_singleton.mpr rfl)
    · rw [max_eq_left hlt]
      exact List.mem_append_left _ h.greatest.1
  · intro y hy
    rw [hq4]
    dsimp only
    rw [hhigh]
    obtain hy | hy := List.mem_append.mp hy
    · exact (h.greatest.2 y hy).trans (le_max_left _ _)
    · rw [List.mem_singleton.mp hy]
      exact le_max_right _ _

end

/-! ## All samples -/

/-- The estimator after any samples. -/
def P2Good (e : NcclIbP2Quantile K) (xs : List K) : Prop := Collected e xs ∨ Estimating e xs

theorem P2Good.update {e : NcclIbP2Quantile K} {xs : List K} (h : P2Good e xs) (x : K) :
    ∃ e', p2Update e x (xs.length + 1) = some e' ∧ e'.p = e.p ∧ P2Good e' (xs ++ [x]) := by
  obtain h | h := h
  · by_cases hfew : xs.length < 4
    · obtain ⟨e', he', hp, hgood⟩ := h.collect x hfew
      exact ⟨e', he', hp, .inl hgood⟩
    · obtain ⟨e', he', hp, hgood⟩ := h.start x (by have := h.few; omega)
      exact ⟨e', he', hp, .inr hgood⟩
  · obtain ⟨e', he', hp, hgood⟩ := h.update x
    exact ⟨e', he', hp, .inr hgood⟩

/-- No division by zero stops the estimator, whatever the samples are. -/
theorem p2Feed_good (p : K) (xs : List K) :
    ∃ e, p2Feed p xs = some (e, xs.length) ∧ e.p = p ∧ P2Good e xs := by
  induction xs using List.reverseRecOn with
  | nil => exact ⟨p2Init p, rfl, rfl, .inl ⟨Nat.zero_lt_succ 4, fun i hi =>
    absurd hi (Nat.not_lt_zero i)⟩⟩
  | append_singleton xs x ih =>
    obtain ⟨e, hfeed, hp, hgood⟩ := ih
    obtain ⟨e', hupdate, hp', hgood'⟩ := hgood.update x
    refine ⟨e', ?_, hp'.trans hp, hgood'⟩
    unfold p2Feed at hfeed ⊢
    rw [List.foldlM_append, hfeed, Option.bind_eq_bind, Option.bind_some, List.foldlM_cons]
    dsimp only
    rw [hupdate]
    simp

/-! ## The laws -/

omit [Field K] [IsStrictOrderedRing K] in
theorem Ordered.middle {e : NcclIbP2Quantile K} (h : Ordered e) : e.q 0 ≤ e.q 2 ∧ e.q 2 ≤ e.q 4 :=
  ⟨(h.heights 0 (by decide)).trans (h.heights 1 (by decide)),
    (h.heights 2 (by decide)).trans (h.heights 3 (by decide))⟩

/-- Rounding to a whole number stays between whole numbers. -/
theorem round_between [FloorRing K] {v : K} {lo hi : Nat} (hlo : (lo : K) ≤ v) (hhi : v ≤ hi) :
    lo ≤ ⌊v + 1 / 2⌋.toNat ∧ ⌊v + 1 / 2⌋.toNat ≤ hi := by
  have hhalf : (0 : K) < 1 / 2 := by norm_num
  have hlow : (lo : Int) ≤ ⌊v + 1 / 2⌋ := by
    rw [Int.le_floor]
    push_cast
    linarith
  have hhigh : ⌊v + 1 / 2⌋ < (hi : Int) + 1 := by
    rw [Int.floor_lt]
    push_cast
    linarith
  omega

/-- The estimate of whole samples lies between them. -/
theorem Estimating.estimate_between [FloorRing K] {e : NcclIbP2Quantile K} {deltas : List Nat}
    (h : Estimating e (deltas.map Nat.cast)) : ∃ lo ∈ deltas, ∃ hi ∈ deltas,
      (∀ d ∈ deltas, lo ≤ d ∧ d ≤ hi) ∧ lo ≤ p2Estimate e deltas.length ∧
        p2Estimate e deltas.length ≤ hi := by
  have hmany : 5 ≤ deltas.length := by simpa using h.many
  obtain ⟨hlow, hhigh⟩ := h.ordered.middle
  obtain ⟨lo, hlo, hleast⟩ := List.mem_map.mp h.least.1
  obtain ⟨hi, hhi, hgreatest⟩ := List.mem_map.mp h.greatest.1
  have hpos : ¬e.q 2 < 0 := by
    rw [not_lt]
    exact (hleast ▸ Nat.cast_nonneg lo).trans hlow
  refine ⟨lo, hlo, hi, hhi, fun d hd => ⟨?_, ?_⟩, ?_⟩
  · have hd := h.least.2 d (List.mem_map_of_mem hd)
    rw [← hleast] at hd
    exact_mod_cast hd
  · have hd := h.greatest.2 d (List.mem_map_of_mem hd)
    rw [← hgreatest] at hd
    exact_mod_cast hd
  · unfold p2Estimate
    rw [if_neg (by omega)]
    dsimp only
    rw [if_pos hmany, if_neg hpos]
    exact round_between (hleast ▸ hlow) (hgreatest ▸ hhigh)

/-- With five samples or more no division by zero has occurred, the markers are in order,
the outer ones are the least and the greatest sample, and the estimate of samples that
are whole numbers, as latencies are, lies between the two. -/
theorem the_markers_stay_in_order [FloorRing K] (p : K) (xs : List K) (hmany : 5 ≤ xs.length) :
    ∃ e, p2Feed p xs = some (e, xs.length) ∧ (∀ i < 4, e.q i ≤ e.q (i + 1)) ∧
      (∀ i < 4, e.n i < e.n (i + 1)) ∧ e.n 0 = 1 ∧ e.n 4 = xs.length ∧
      (e.q 0 ∈ xs ∧ ∀ x ∈ xs, e.q 0 ≤ x) ∧ (e.q 4 ∈ xs ∧ ∀ x ∈ xs, x ≤ e.q 4) ∧
      e.q 0 ≤ e.q 2 ∧ e.q 2 ≤ e.q 4 ∧
      ∀ deltas : List Nat, xs = deltas.map Nat.cast → ∃ lo ∈ deltas, ∃ hi ∈ deltas,
        (∀ d ∈ deltas, lo ≤ d ∧ d ≤ hi) ∧ lo ≤ p2Estimate e xs.length ∧
          p2Estimate e xs.length ≤ hi := by
  obtain ⟨e, hfeed, -, hgood⟩ := p2Feed_good p xs
  obtain hfew | h := hgood
  · exact absurd hfew.few (by omega)
  · refine ⟨e, hfeed, h.ordered.heights, h.ordered.positions, h.first, h.last, h.least, h.greatest,
      h.ordered.middle.1, h.ordered.middle.2, ?_⟩
    rintro deltas rfl
    rw [List.length_map]
    exact h.estimate_between

/-- The median of six latencies. -/
theorem the_markers_of_six_latencies : ∃ e, p2Feed (1 / 2 : ℚ) ([5, 1, 4, 2, 3, 9] : List ℚ) =
    some (e, 6) ∧ (∀ i < 4, e.n i < e.n (i + 1)) ∧ ∃ lo ∈ [5, 1, 4, 2, 3, 9],
      ∃ hi ∈ [5, 1, 4, 2, 3, 9], lo ≤ p2Estimate e 6 ∧ p2Estimate e 6 ≤ hi := by
  obtain ⟨e, hfeed, -, hpositions, -, -, -, -, -, -, hestimate⟩ :=
    the_markers_stay_in_order (1 / 2 : ℚ) [5, 1, 4, 2, 3, 9] (by decide)
  obtain ⟨lo, hlo, hi, hhi, -, hbetween⟩ := hestimate [5, 1, 4, 2, 3, 9] (by simp)
  exact ⟨e, hfeed, hpositions, lo, hlo, hi, hhi, hbetween⟩

/-- Five samples of three fifths: the estimate rounds the middle marker up, to above the
greatest sample. -/
theorem an_estimate_is_above_the_samples : ∃ e,
    p2Feed (1 / 2 : ℚ) (List.replicate 5 (3 / 5)) = some (e, 5) ∧ e.q 2 = 3 / 5 ∧
      p2Estimate e 5 = 1 ∧ ∀ x ∈ List.replicate 5 (3 / 5 : ℚ), x < p2Estimate e 5 := by
  obtain ⟨e, hfeed, -, hgood⟩ := p2Feed_good (1 / 2 : ℚ) (List.replicate 5 (3 / 5))
  obtain hfew | h := hgood
  · exact absurd hfew.few (by decide)
  · obtain ⟨hlow, hhigh⟩ := h.ordered.middle
    rw [List.eq_of_mem_replicate h.least.1] at hlow
    rw [List.eq_of_mem_replicate h.greatest.1] at hhigh
    have hq : e.q 2 = 3 / 5 := le_antisymm hhigh hlow
    have hestimate : p2Estimate e 5 = 1 := by
      unfold p2Estimate
      norm_num [hq]
    refine ⟨e, hfeed, hq, hestimate, fun x hx => ?_⟩
    rw [List.eq_of_mem_replicate hx, hestimate]
    norm_num

end net_ib.latmon
