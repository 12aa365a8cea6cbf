-- The cost table after the cost model (tuner/plugin.c, applyCostModelGeneric). Each cell
-- is visited once, so what the table holds at the end is known from the table before the
-- call and the price of the cell.
import MrcPlugin.TunerOrder

namespace tuner.plugin

open net_ib

variable {D F : Type} [CostFloat D F]

/-! ## The cells -/

theorem tableCells_nodup (numAlgo numProto : Int) : (tableCells numAlgo numProto).Nodup :=
  List.Nodup.product List.nodup_range List.nodup_range

/-! ## The loop -/

/-- The loop prices a cell: it is not ignored, and its price is not negative. -/
def GetsPrice (D : Type) {F : Type} [CostFloat D F] (price : Nat → Nat → F) (table : CostTable F)
    (a p : Nat) : Prop :=
  CostFloat.ignored D (table a p) = false ∧ CostFloat.negative D (price a p) = false

/-- The loop leaves a cell without a price. -/
def Unpriced (D : Type) {F : Type} [CostFloat D F] (price : Nat → Nat → F) (table : CostTable F)
    (a p : Nat) : Prop :=
  CostFloat.ignored D (table a p) = false ∧ CostFloat.negative D (price a p) = true

/-- The state of the loop after the cells `done`. -/
structure Filled (D : Type) {F : Type} [CostFloat D F] (price : Nat → Nat → F)
    (table : CostTable F) (done : List (Nat × Nat)) (s : Priced F) : Prop where
  priced : ∀ a p, (a, p) ∈ done → GetsPrice D price table a p → s.table a p = price a p
  kept : ∀ a p, ¬((a, p) ∈ done ∧ GetsPrice D price table a p) → s.table a p = table a p
  populated : 0 < s.populated ↔ ∃ a p, (a, p) ∈ done ∧ GetsPrice D price table a p
  unpriced : ∀ i, i ∈ s.unpriced ↔
    ∃ a p, (a, p) ∈ done ∧ Unpriced D price table a p ∧ i = a * NCCL_NUM_PROTOCOLS + p

section
variable {price : Nat → Nat → F} {table : CostTable F} {done cells : List (Nat × Nat)}
  {s : Priced F} {a p : Nat} {compute : Nat → Nat → Option F}

theorem Unpriced.not_priced (h : Unpriced D price table a p) : ¬GetsPrice D price table a p := by
  rintro ⟨-, hpos⟩
  rw [h.2] at hpos
  cases hpos

theorem exists_cell_snoc (q : Nat → Nat → Prop) :
    (∃ a' p', (a', p') ∈ done ++ [(a, p)] ∧ q a' p') ↔
      (∃ a' p', (a', p') ∈ done ∧ q a' p') ∨ q a p := by
  constructor
  · rintro ⟨a', p', hin, hq⟩
    obtain hin | heq := List.mem_append.mp hin
    · exact .inl ⟨a', p', hin, hq⟩
    · cases List.mem_singleton.mp heq
      exact .inr hq
  · rintro (⟨a', p', hin, hq⟩ | hq)
    · exact ⟨a', p', List.mem_append_left _ hin, hq⟩
    · exact ⟨a, p, List.mem_append_right _ (List.mem_singleton.mpr rfl), hq⟩

/-- A cell that gets no price leaves the table; it may be noted as unpriced. -/
theorem Filled.skip (h : Filled D price table done s) (hno : ¬GetsPrice D price table a p)
    {unpriced : List Nat} (hunpriced : ∀ i, i ∈ unpriced ↔ i ∈ s.unpriced ∨
      (Unpriced D price table a p ∧ i = a * NCCL_NUM_PROTOCOLS + p)) :
    Filled D price table (done ++ [(a, p)]) { s with unpriced := unpriced } where
  priced := by
    intro a' p' hin hg
    obtain hin | heq := List.mem_append.mp hin
    · exact h.priced a' p' hin hg
    · cases List.mem_singleton.mp heq
      exact absurd hg hno
  kept := by
    intro a' p' hn
    exact h.kept a' p' (fun hin => hn ⟨List.mem_append_left _ hin.1, hin.2⟩)
  populated := by
    rw [exists_cell_snoc, or_iff_left hno]
    exact h.populated
  unpriced := by
    intro i
    rw [exists_cell_snoc, ← h.unpriced, hunpriced]

/-- A cell that is priced gets its price. -/
theorem Filled.put (h : Filled D price table done s) (hprice : GetsPrice D price table a p) :
    Filled D price table (done ++ [(a, p)])
      { s with table := s.table.set a p (price a p), populated := s.populated + 1 } where
  priced := by
    intro a' p' hin hg
    simp only [CostTable.set]
    split
    · rename_i heq
      rw [heq.1, heq.2]
    · rename_i hne
      obtain hin | heq := List.mem_append.mp hin
      · exact h.priced a' p' hin hg
      · cases List.mem_singleton.mp heq
        exact absurd ⟨rfl, rfl⟩ hne
  kept := by
    intro a' p' hn
    simp only [CostTable.set]
    split
    · rename_i heq
      obtain ⟨rfl, rfl⟩ := heq
      exact absurd ⟨List.mem_append_right _ (List.mem_singleton.mpr rfl), hprice⟩ hn
    · exact h.kept a' p' (fun hin => hn ⟨List.mem_append_left _ hin.1, hin.2⟩)
  populated := iff_of_true (Nat.succ_pos _)
    ⟨a, p, List.mem_append_right _ (List.mem_singleton.mpr rfl), hprice⟩
  unpriced := by
    have hnot : ¬Unpriced D price table a p := fun hu => hu.not_priced hprice
    intro i
    rw [exists_cell_snoc, ← h.unpriced, or_iff_left (fun hu => hnot hu.1)]

/-- One turn of the loop, at a cell that it has not visited. -/
theorem Filled.cell (h : Filled D price table done s) (hnew : (a, p) ∉ done)
    (hcompute : ∀ a p, compute a p = some (price a p)) :
    ∃ s', priceCell D compute s (a, p) = some s' ∧
      Filled D price table (done ++ [(a, p)]) s' := by
  have hold : s.table a p = table a p := h.kept a p (fun hin => hnew hin.1)
  unfold priceCell
  cases hignored : CostFloat.ignored D (table a p) with
  | true =>
    have hno : ¬GetsPrice D price table a p := fun hg => by simp [hg.1] at hignored
    have hnot : ¬Unpriced D price table a p := fun hu => by simp [hu.1] at hignored
    rw [if_pos (by rw [hold]; exact hignored)]
    exact ⟨s, rfl, h.skip hno (fun i => (or_iff_left (fun hu => hnot hu.1)).symm)⟩
  | false =>
    rw [if_neg (by rw [hold, hignored]; exact Bool.false_ne_true), hcompute, Option.map_some]
    refine ⟨_, rfl, ?_⟩
    cases hneg : CostFloat.negative D (price a p) with
    | true =>
      have hno : ¬GetsPrice D price table a p := fun hg => by simp [hg.2] at hneg
      rw [if_pos rfl]
      refine h.skip hno (fun i => ?_)
      rw [List.mem_append, List.mem_singleton]
      exact or_congr_right (and_iff_right ⟨hignored, hneg⟩).symm
    | false =>
      rw [if_neg Bool.false_ne_true]
      exact h.put ⟨hignored, hneg⟩

/-- A run over cells that are all new. -/
theorem Filled.run (hnodup : (done ++ cells).Nodup)
    (hcompute : ∀ a p, compute a p = some (price a p)) (h : Filled D price table done s) :
    ∃ s', cells.foldlM (priceCell D compute) s = some s' ∧
      Filled D price table (done ++ cells) s' := by
  induction cells generalizing done s with
  | nil => exact ⟨s, rfl, by rwa [List.append_nil]⟩
  | cons cell cells ih =>
    have hsnoc : done ++ cell :: cells = done ++ [cell] ++ cells := by simp
    have hnew : cell ∉ done :=
      fun hin => List.disjoint_of_nodup_append hnodup hin (List.mem_cons_self ..)
    obtain ⟨s1, hs1, h1⟩ := h.cell hnew hcompute
    obtain ⟨s2, hs2, h2⟩ := ih (hsnoc ▸ hnodup) h1
    refine ⟨s2, ?_, hsnoc ▸ h2⟩
    rw [List.foldlM_cons, hs1]
    exact hs2

/-- The loop over the table. -/
theorem priceCells_filled (numAlgo numProto : Int) (table : CostTable F)
    (hcompute : ∀ a p, compute a p = some (price a p)) :
    ∃ s, (tableCells numAlgo numProto).foldlM (priceCell D compute) { table } = some s ∧
      Filled D price table (tableCells numAlgo numProto) s := by
  have hstart : Filled D price table [] { table } :=
    { priced := fun _ _ hin => absurd hin List.not_mem_nil
      kept := fun _ _ _ => rfl
      populated := by simp
      unpriced := by simp }
  exact hstart.run (tableCells_nodup numAlgo numProto) hcompute

/-! ## Disabled cells -/

/-- The second loop disables the cells of its list. -/
theorem disable_cells (is : List Nat) (table : CostTable F) (hp : p < NCCL_NUM_PROTOCOLS) :
    is.foldl (fun table i => table.set (i / NCCL_NUM_PROTOCOLS) (i % NCCL_NUM_PROTOCOLS)
      (CostFloat.disabled D)) table a p =
      if a * NCCL_NUM_PROTOCOLS + p ∈ is then CostFloat.disabled D else table a p := by
  induction is generalizing table with
  | nil => rw [if_neg List.not_mem_nil, List.foldl_nil]
  | cons i is ih =>
    rw [List.foldl_cons, ih]
    have hcell : (a = i / NCCL_NUM_PROTOCOLS ∧ p = i % NCCL_NUM_PROTOCOLS) ↔
        a * NCCL_NUM_PROTOCOLS + p = i := by
      unfold NCCL_NUM_PROTOCOLS at hp ⊢
      omega
    simp only [CostTable.set, hcell, List.mem_cons]
    by_cases hin : a * NCCL_NUM_PROTOCOLS + p ∈ is
    · rw [if_pos hin, if_pos (.inr hin)]
    · rw [if_neg hin]
      exact if_congr (or_iff_left hin).symm rfl rfl

/-- What the table holds after the cost model. -/
structure AfterCostModel (D : Type) {F : Type} [CostFloat D F] (price : Nat → Nat → F)
    (numAlgo numProto : Int) (disable : Prop) (table table' : CostTable F) : Prop where
  priced : ∀ a p, (a, p) ∈ tableCells numAlgo numProto → GetsPrice D price table a p →
    table' a p = price a p
  disabled : ∀ a p, (a, p) ∈ tableCells numAlgo numProto → Unpriced D price table a p →
    disable → (∃ a' p', (a', p') ∈ tableCells numAlgo numProto ∧ GetsPrice D price table a' p') →
    table' a p = CostFloat.disabled D
  kept : ∀ a p, p < NCCL_NUM_PROTOCOLS → ((a, p) ∉ tableCells numAlgo numProto ∨
    CostFloat.ignored D (table a p) = true) → table' a p = table a p

/-- The place of a cell in the list of the unpriced ones is its own. -/
theorem Filled.mem_unpriced (h : Filled D price table done s)
    (hproto : ∀ c ∈ done, c.2 < NCCL_NUM_PROTOCOLS) (hp : p < NCCL_NUM_PROTOCOLS) :
    a * NCCL_NUM_PROTOCOLS + p ∈ s.unpriced ↔ (a, p) ∈ done ∧ Unpriced D price table a p := by
  rw [h.unpriced]
  constructor
  · rintro ⟨a', p', hin, hu, heq⟩
    have hp' := hproto _ hin
    unfold NCCL_NUM_PROTOCOLS at hp hp' heq
    obtain rfl : a = a' := by omega
    obtain rfl : p = p' := by omega
    exact ⟨hin, hu⟩
  · rintro ⟨hin, hu⟩
    exact ⟨a, p, hin, hu, rfl⟩

theorem applyCostModelGeneric_after (ctx : TunerContext D) (numAlgo numProto : Int)
    (table : CostTable F) (hcompute : ∀ a p, compute a p = some (price a p)) :
    ∃ table', applyCostModelGeneric ctx compute table numAlgo numProto = some table' ∧
      AfterCostModel D price numAlgo numProto (ctx.costModel.disableUnmodeledCells ≠ 0)
        table table' := by
  obtain ⟨s, hs, h⟩ := priceCells_filled (D := D) numAlgo numProto table hcompute
  have hproto : ∀ c ∈ tableCells numAlgo numProto, c.2 < NCCL_NUM_PROTOCOLS :=
    fun c hc => (mem_tableCells hc).2.2
  unfold applyCostModelGeneric
  rw [hs, Option.map_some]
  refine ⟨_, rfl, ?_, ?_, ?_⟩
  · intro a p hin hg
    split
    · have hp : p < NCCL_NUM_PROTOCOLS := hproto _ hin
      rw [disable_cells _ _ hp, if_neg]
      · exact h.priced a p hin hg
      · intro hu
        exact ((h.mem_unpriced hproto hp).mp hu).2.not_priced hg
    · exact h.priced a p hin hg
  · intro a p hin hu hdisable hsome
    have hp : p < NCCL_NUM_PROTOCOLS := hproto _ hin
    rw [if_pos ⟨h.populated.mpr hsome, hdisable⟩, disable_cells _ _ hp,
      if_pos ((h.mem_unpriced hproto hp).mpr ⟨hin, hu⟩)]
  · intro a p hp hout
    have hkept : s.table a p = table a p := by
      refine h.kept a p (fun hin => ?_)
      obtain hout | hignored := hout
      · exact hout hin.1
      · simp [hin.2.1] at hignored
    split
    · rw [disable_cells _ _ hp, if_neg, hkept]
      intro hmem
      obtain ⟨hin, hu⟩ := (h.mem_unpriced hproto hp).mp hmem
      obtain hout | hignored := hout
      · exact hout hin
      · simp [hu.1] at hignored
    · exact hkept

end

end tuner.plugin
