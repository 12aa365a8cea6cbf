-- Cells that the cost model cannot price (tuner/plugin.c, COST_MODEL_DISABLED_COST). With
-- the profile rail_nop2p they get a cost that no priced cell should reach. A price grows
-- with the size of the call, so each cell has a size from which on it does.
import MrcPlugin.TunerPrices

namespace tuner.plugin

open net_ib

/-- What the cost of a disabled cell is for: each cell that is not ignored holds the price
of the model or the cost of a disabled cell, and each price is below that cost. -/
structure DisabledNeverWins (price : Nat → Nat → ℚ) (numAlgo numProto : Int)
    (table table' : CostTable ℚ) : Prop where
  replaced : ∀ a p, (a, p) ∈ tableCells numAlgo numProto → CostFloat.ignored ℚ (table a p) = false →
    (0 ≤ price a p ∧ table' a p = price a p) ∨
      (price a p < 0 ∧ table' a p = CostFloat.disabled ℚ)
  ignored : ∀ a p, (a, p) ∈ tableCells numAlgo numProto → CostFloat.ignored ℚ (table a p) = true →
    table' a p = table a p
  below : ∀ a p, (a, p) ∈ tableCells numAlgo numProto → CostFloat.ignored ℚ (table a p) = false →
    0 ≤ price a p → price a p < CostFloat.disabled ℚ

/-- The size from which on a cell costs as much as a disabled one. -/
def sizeLimit (P : CostModelParams ℚ) (coll : NcclFunc) (nRanks nNodes numPipeOps regBuff : Int)
    (algo proto : Nat) : ℚ :=
  1000 * cellBandwidth P coll nRanks nNodes algo proto * (CostFloat.disabled ℚ -
    cellLatency P coll nRanks nNodes regBuff algo proto *
      latCount (algo = NCCL_ALGO_RING) numPipeOps)

section
variable {P : CostModelParams ℚ} {coll : NcclFunc} {nRanks nNodes : Int} {algo proto : Nat}
  {price : Nat → Nat → ℚ} {numAlgo numProto : Int} {table table' : CostTable ℚ}

theorem priceOf_lt_disabled_iff (hbandwidth : 0 < cellBandwidth P coll nRanks nNodes algo proto)
    (nBytes : Nat) (numPipeOps regBuff : Int) :
    priceOf P coll nRanks nNodes nBytes numPipeOps regBuff algo proto < CostFloat.disabled ℚ ↔
      (nBytes : ℚ) < sizeLimit P coll nRanks nNodes numPipeOps regBuff algo proto := by
  have hscale : 0 < 1000 * cellBandwidth P coll nRanks nNodes algo proto :=
    mul_pos (by norm_num) hbandwidth
  unfold priceOf sizeLimit
  rw [← lt_sub_iff_add_lt', div_lt_iff₀ hscale, mul_comm]

/-- The first two laws hold of every call that prices a cell: they are what the two loops
do. -/
theorem AfterCostModel.never_wins_iff (h : AfterCostModel ℚ price numAlgo numProto True table table')
    (hsome : ∃ a p, (a, p) ∈ tableCells numAlgo numProto ∧ GetsPrice ℚ price table a p) :
    DisabledNeverWins price numAlgo numProto table table' ↔
      ∀ a p, (a, p) ∈ tableCells numAlgo numProto → GetsPrice ℚ price table a p →
        price a p < CostFloat.disabled ℚ := by
  have hpos : ∀ a p, 0 ≤ price a p ↔ CostFloat.negative ℚ (price a p) = false := by
    intro a p
    rw [Bool.eq_false_iff, ne_eq, negative_iff, not_lt]
  constructor
  · intro hwins a p hin hg
    exact hwins.below a p hin hg.1 ((hpos a p).mpr hg.2)
  · intro hbelow
    refine ⟨?_, ?_, ?_⟩
    · intro a p hin hlive
      by_cases hneg : price a p < 0
      · exact .inr ⟨hneg, h.disabled a p hin ⟨hlive, (negative_iff _).mpr hneg⟩ trivial hsome⟩
      · have hprice : 0 ≤ price a p := not_lt.mp hneg
        exact .inl ⟨hprice, h.priced a p hin ⟨hlive, (hpos a p).mp hprice⟩⟩
    · intro a p hin hignored
      exact h.kept a p (mem_tableCells hin).2.2 (.inr hignored)
    · intro a p hin hlive hprice
      exact hbelow a p hin ⟨hlive, (hpos a p).mp hprice⟩

theorem disabled_pos : (0 : ℚ) < CostFloat.disabled ℚ := by decide

/-- One rank pays nothing for any cell. -/
theorem cellPrice_one_rank (P : CostModelParams ℚ) (hcoll : Modelled coll) (nNodes : Int)
    (nBytes : Nat) (numPipeOps regBuff : Int) (a p : Nat) :
    cellPrice P coll 1 nNodes nBytes numPipeOps regBuff a p = some (0 : ℚ) := by
  have hzero : (CostFloat.ofDouble (0.0 : ℚ) : ℚ) = 0 := by
    show (0.0 : ℚ) = 0
    norm_num
  obtain rfl | rfl | rfl := hcoll
  · simp only [cellPrice, computeAllReduceTime]
    rw [if_pos (by decide), hzero]
  · simp only [cellPrice, computeAllGatherOrRSTime]
    rw [if_pos (by decide), hzero]
  · simp only [cellPrice, computeAllGatherOrRSTime]
    rw [if_pos (by decide), hzero]

theorem cellCost_one_rank (P : CostModelParams ℚ) (hcoll : Modelled coll) (nNodes : Int)
    (nBytes : Nat) (numPipeOps regBuff : Int) (a p : Nat) :
    cellCost P coll 1 nNodes nBytes numPipeOps regBuff a p = 0 := by
  unfold cellCost
  rw [cellPrice_one_rank P hcoll, Option.getD_some]

theorem cellPrice_modelled {nBytes : Nat} {numPipeOps regBuff : Int} {t : ℚ}
    (h : cellPrice P coll nRanks nNodes nBytes numPipeOps regBuff algo proto = some t) :
    Modelled coll := by
  unfold cellPrice at h
  split at h
  · exact .inl rfl
  · exact .inr (.inl rfl)
  · exact .inr (.inr rfl)
  · cases h

end

/-- With the profile rail_nop2p, in a call that prices a cell, the disabled cells never win
if and only if each cell that is priced is asked for less than its size limit. One rank
pays nothing, whatever the size. -/
theorem disabled_cells_never_win_iff (ctx : TunerContext ℚ)
    (hprofile : ctx.costModel = exactParams .rail_nop2p) (hnodes : 1 ≤ ctx.nNodes)
    (hle : ctx.nNodes ≤ ctx.nRanks) (hranks : ctx.nRanks < 2 ^ 31) (coll : NcclFunc)
    (nBytes : Nat) (numPipeOps regBuff numAlgo numProto : Int) (table : CostTable ℚ)
    (hsome : ∃ a p, ∃ t : ℚ, (a, p) ∈ tableCells numAlgo numProto ∧
      CostFloat.ignored ℚ (table a p) = false ∧ cellPrice ctx.costModel coll (i32 ctx.nRanks)
        (i32 ctx.nNodes) nBytes numPipeOps regBuff a p = some t ∧ 0 ≤ t) :
    ∃ table', applyCostModelGeneric ctx (cellPrice ctx.costModel coll (i32 ctx.nRanks)
        (i32 ctx.nNodes) nBytes numPipeOps regBuff) table numAlgo numProto = some table' ∧
      (DisabledNeverWins (cellCost ctx.costModel coll (i32 ctx.nRanks) (i32 ctx.nNodes) nBytes
          numPipeOps regBuff) numAlgo numProto table table' ↔
        ctx.nRanks = 1 ∨ ∀ a p, (a, p) ∈ tableCells numAlgo numProto →
          CostFloat.ignored ℚ (table a p) = false →
          Priceable ctx.costModel coll (i32 ctx.nRanks) (i32 ctx.nNodes) a p →
          (nBytes : ℚ) < sizeLimit ctx.costModel coll (i32 ctx.nRanks) (i32 ctx.nNodes)
            numPipeOps regBuff a p) := by
  obtain ⟨a0, p0, t0, hin0, hlive0, hprice0, hpos0⟩ := hsome
  have hcoll := cellPrice_modelled hprice0
  have husable := profile_usable .rail_nop2p
  have hdisable : (ctx.costModel.disableUnmodeledCells ≠ 0) = True := by
    rw [hprofile]
    decide
  rw [i32_natCast hranks, i32_natCast (by omega)] at hprice0 ⊢
  rw [← hprofile] at husable
  have hcost : cellCost ctx.costModel coll ctx.nRanks ctx.nNodes nBytes numPipeOps regBuff a0 p0 =
      t0 := by
    unfold cellCost
    rw [hprice0, Option.getD_some]
  have hsome : ∃ a p, (a, p) ∈ tableCells numAlgo numProto ∧ GetsPrice ℚ (cellCost ctx.costModel
      coll ctx.nRanks ctx.nNodes nBytes numPipeOps regBuff) table a p := by
    refine ⟨a0, p0, hin0, hlive0, ?_⟩
    rw [hcost, Bool.eq_false_iff, ne_eq, negative_iff, not_lt]
    exact hpos0
  by_cases hone : ctx.nRanks = 1
  · rw [hone, Nat.cast_one] at hsome ⊢
    have hcells : ∀ a p, cellPrice ctx.costModel coll 1 ctx.nNodes nBytes numPipeOps regBuff a p =
        some (cellCost ctx.costModel coll 1 ctx.nNodes nBytes numPipeOps regBuff a p) := by
      intro a p
      rw [cellPrice_one_rank _ hcoll, cellCost_one_rank _ hcoll]
    obtain ⟨table', happly, hafter⟩ := applyCostModelGeneric_after ctx numAlgo numProto table hcells
    rw [hdisable] at hafter
    refine ⟨table', happly, ?_⟩
    rw [hafter.never_wins_iff hsome]
    refine iff_of_true (fun a p _ _ => ?_) (.inl rfl)
    rw [cellCost_one_rank _ hcoll]
    exact disabled_pos
  · have ht : Topology ctx.nRanks ctx.nNodes := ⟨by omega, by omega, by omega, by omega⟩
    obtain ⟨table', happly, hafter⟩ := applyCostModelGeneric_after ctx numAlgo numProto table
      (cellPrice_some hcoll husable ht nBytes numPipeOps regBuff)
    rw [hdisable] at hafter
    refine ⟨table', happly, ?_⟩
    rw [hafter.never_wins_iff hsome]
    constructor
    · intro hbelow
      refine .inr (fun a p hin hlive hcan => ?_)
      have hlt := hbelow a p hin
        ((getsPrice_iff hcoll husable ht nBytes numPipeOps regBuff table).mpr ⟨hlive, hcan⟩)
      rw [hcan.cost_eq husable ht] at hlt
      exact (priceOf_lt_disabled_iff (hcan.covered.bandwidth_pos hcan.fits husable ht) nBytes
        numPipeOps regBuff).mp hlt
    · rintro (hranks1 | hsmall) a p hin hg
      · exact absurd hranks1 hone
      · obtain ⟨hlive, hcan⟩ :=
          (getsPrice_iff hcoll husable ht nBytes numPipeOps regBuff table).mp hg
        rw [hcan.cost_eq husable ht]
        exact (priceOf_lt_disabled_iff (hcan.covered.bandwidth_pos hcan.fits husable ht) nBytes
          numPipeOps regBuff).mpr (hsmall a p hin hlive hcan)

/-- A context of the profile rail_nop2p, with a rank on each node. -/
def railContext (nRanks : Nat) : TunerContext ℚ where
  configs := []
  nRanks := nRanks
  nNodes := nRanks
  useCostModel := 1
  forceCostModel := 0
  costModel := exactParams .rail_nop2p
  costModelProfile := some .rail_nop2p

theorem ring_is_priced : ∃ a p, ∃ t : ℚ, (a, p) ∈ tableCells 7 3 ∧
    CostFloat.ignored ℚ (0 : ℚ) = false ∧
    cellPrice (exactParams .rail_nop2p) .ncclFuncAllReduce (i32 2) (i32 2) 1024 1 0 a p = some t ∧
      0 ≤ t :=
  ⟨NCCL_ALGO_RING, NCCL_PROTO_SIMPLE, _, by decide, by decide +kernel, rfl, by decide +kernel⟩

/-- The law for a kilobyte on two nodes. -/
theorem the_limits_of_a_small_call : ∃ table', applyCostModelGeneric (railContext 2)
      (cellPrice (exactParams .rail_nop2p) .ncclFuncAllReduce (i32 2) (i32 2) 1024 1 0)
      (fun _ _ => 0) 7 3 = some table' ∧
    (DisabledNeverWins (cellCost (exactParams .rail_nop2p) .ncclFuncAllReduce (i32 2) (i32 2) 1024
        1 0) 7 3 (fun _ _ => 0) table' ↔
      2 = 1 ∨ ∀ a p, (a, p) ∈ tableCells 7 3 → CostFloat.ignored ℚ (0 : ℚ) = false →
        Priceable (exactParams .rail_nop2p) .ncclFuncAllReduce (i32 2) (i32 2) a p →
        ((1024 : Nat) : ℚ) < sizeLimit (exactParams .rail_nop2p) .ncclFuncAllReduce (i32 2) (i32 2)
          1 0 a p) :=
  disabled_cells_never_win_iff (railContext 2) rfl (by decide) (by decide) (by decide)
    .ncclFuncAllReduce 1024 1 0 7 3 (fun _ _ => 0) ring_is_priced

/-- With 2^63 bytes the ring costs more than a disabled cell. -/
theorem a_disabled_cell_wins : ∃ table', applyCostModelGeneric (railContext 2)
      (cellPrice (exactParams .rail_nop2p) .ncclFuncAllReduce (i32 2) (i32 2) (2 ^ 63) 1 0)
      (fun _ _ => 0) 7 3 = some table' ∧
    table' NCCL_ALGO_COLLNET_DIRECT NCCL_PROTO_SIMPLE < table' NCCL_ALGO_RING NCCL_PROTO_SIMPLE ∧
    ¬DisabledNeverWins (cellCost (exactParams .rail_nop2p) .ncclFuncAllReduce (i32 2) (i32 2)
      (2 ^ 63) 1 0) 7 3 (fun _ _ => 0) table' := by
  have husable := profile_usable .rail_nop2p
  have ht : Topology (i32 2) (i32 2) := two_ranks
  have hcoll : Modelled .ncclFuncAllReduce := .inl rfl
  have hdisable : (railContext 2).costModel.disableUnmodeledCells ≠ 0 := by decide
  obtain ⟨table', happly, hafter⟩ := applyCostModelGeneric_after (railContext 2) 7 3
    (fun _ _ => (0 : ℚ)) (cellPrice_some hcoll husable ht (2 ^ 63) 1 0)
  have hring : GetsPrice ℚ (cellCost (exactParams .rail_nop2p) .ncclFuncAllReduce (i32 2) (i32 2)
      (2 ^ 63) 1 0) (fun _ _ => 0) NCCL_ALGO_RING NCCL_PROTO_SIMPLE := by
    unfold GetsPrice
    decide +kernel
  have hcollnet : Unpriced ℚ (cellCost (exactParams .rail_nop2p) .ncclFuncAllReduce (i32 2) (i32 2)
      (2 ^ 63) 1 0) (fun _ _ => 0) NCCL_ALGO_COLLNET_DIRECT NCCL_PROTO_SIMPLE := by
    unfold Unpriced
    decide +kernel
  have hcost : CostFloat.disabled ℚ < cellCost (exactParams .rail_nop2p) .ncclFuncAllReduce
      (i32 2) (i32 2) (2 ^ 63) 1 0 NCCL_ALGO_RING NCCL_PROTO_SIMPLE := by
    decide +kernel
  refine ⟨table', happly, ?_, fun hwins => ?_⟩
  · rw [hafter.priced _ _ (by decide) hring, hafter.disabled _ _ (by decide) hcollnet hdisable
      ⟨_, _, by decide, hring⟩]
    exact hcost
  · have hbelow := hwins.below NCCL_ALGO_RING NCCL_PROTO_SIMPLE (by decide) hring.1
      (disabled_pos.le.trans hcost.le)
    exact lt_asymm hcost hbelow

end tuner.plugin
