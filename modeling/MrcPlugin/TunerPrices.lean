-- The prices of the cost model over exact numbers (tuner/plugin.c, tuner/README.md). A
-- price is a latency and a transfer at the bandwidth of the cell. Which cells have one
-- does not depend on the numbers of a profile, as long as they are not negative.
import MrcPlugin.TunerTable

namespace tuner.plugin

open net_ib

/-! ## Exact numbers -/

@[simp]
theorem lt_iff (x y : ℚ) : Double.lt x y = true ↔ x < y := decide_eq_true_iff

@[simp]
theorem le_iff (x y : ℚ) : Double.le x y = true ↔ x ≤ y := decide_eq_true_iff

theorem negative_iff (x : ℚ) : CostFloat.negative ℚ x = true ↔ x < 0 := decide_eq_true_iff

theorem ofInt_eq (z : Int) : (ofInt z : ℚ) = z := rfl

theorem ofInt_pos {z : Int} (h : 0 < z) : (0 : ℚ) < ofInt z := by
  rw [ofInt_eq]
  exact_mod_cast h

theorem ofInt_nonneg {z : Int} (h : 0 ≤ z) : (0 : ℚ) ≤ ofInt z := by
  rw [ofInt_eq]
  exact_mod_cast h

theorem minusOne_eq : (CostFloat.ofDouble (-1.0 : ℚ) : ℚ) = -1 := by
  show -(1.0 : ℚ) = -1
  norm_num

/-! ## The parameters -/

/-- The numbers of a profile that a price needs: bandwidths are positive, latencies are
not negative, and there are two channels. -/
structure Usable (P : CostModelParams ℚ) : Prop where
  nChannels : 2 ≤ P.nChannels
  bwIntra : 0 < P.bwIntra
  bwInter : 0 < P.bwInter
  nvlsEfficiency : 0 < P.nvlsEfficiency
  graphLatencyInter : 0 ≤ P.graphLatencyInter
  baseLatencies : ∀ a p, 0 ≤ P.baseLatencies a p
  hwLatencies : ∀ h a p, 0 ≤ P.hwLatencies h a p
  llMaxBw : ∀ s < 3, 0 < P.llMaxBw s
  perChMaxRingLL128Bw : ∀ s < 3, 0 < P.perChMaxRingLL128Bw s
  perChMaxTreeBw : ∀ s < 3, 0 < P.perChMaxTreeBw s
  perChMaxTreeLL128Bw : ∀ s < 3, 0 < P.perChMaxTreeLL128Bw s
  perChMaxNVLSTreeBw : ∀ s < 3, 0 < P.perChMaxNVLSTreeBw s
  patLatPerRank : 0 ≤ P.patLatPerRank

theorem cell1_nonneg {row : List ℚ} (h : ∀ x ∈ row, 0 ≤ x) (i : Nat) : 0 ≤ cell1 row i := by
  unfold cell1
  rw [List.getD_eq_getElem?_getD]
  cases hget : row[i]? with
  | none =>
    rw [Option.getD_none]
    norm_num
  | some x => exact h x (List.mem_of_getElem? hget)

theorem cell2_nonneg {rows : List (List ℚ)} (h : ∀ row ∈ rows, ∀ x ∈ row, 0 ≤ x) (i j : Nat) :
    0 ≤ cell2 rows i j := by
  unfold cell2
  rw [List.getD_eq_getElem?_getD]
  cases hget : rows[i]? with
  | none => exact cell1_nonneg (fun x hx => absurd hx List.not_mem_nil) j
  | some row => exact cell1_nonneg (h row (List.mem_of_getElem? hget)) j

theorem cell3_nonneg {tables : List (List (List ℚ))}
    (h : ∀ rows ∈ tables, ∀ row ∈ rows, ∀ x ∈ row, 0 ≤ x) (i j k : Nat) :
    0 ≤ cell3 tables i j k := by
  unfold cell3
  rw [List.getD_eq_getElem?_getD]
  cases hget : tables[i]? with
  | none => exact cell2_nonneg (fun row hrow => absurd hrow List.not_mem_nil) j k
  | some rows => exact cell2_nonneg (h rows (List.mem_of_getElem? hget)) j k

theorem cell1_pos {row : List ℚ} (h : ∀ x ∈ row, 0 < x) {n : Nat} (hlen : row.length = n)
    (i : Nat) (hi : i < n) : 0 < cell1 row i := by
  subst hlen
  unfold cell1
  rw [List.getD_eq_getElem?_getD, List.getElem?_eq_getElem hi]
  exact h _ (List.getElem_mem hi)

theorem mnnvl_usable : Usable gb200fParamsDefault where
  nChannels := by decide
  bwIntra := by norm_num [gb200fParamsDefault]
  bwInter := by norm_num [gb200fParamsDefault]
  nvlsEfficiency := by norm_num [gb200fParamsDefault]
  graphLatencyInter := by norm_num [gb200fParamsDefault]
  baseLatencies := cell2_nonneg (by norm_num)
  hwLatencies := cell3_nonneg (by norm_num)
  llMaxBw := cell1_pos (by norm_num) rfl
  perChMaxRingLL128Bw := cell1_pos (by norm_num) rfl
  perChMaxTreeBw := cell1_pos (by norm_num) rfl
  perChMaxTreeLL128Bw := cell1_pos (by norm_num) rfl
  perChMaxNVLSTreeBw := cell1_pos (by norm_num) rfl
  patLatPerRank := by norm_num [gb200fParamsDefault]

theorem rail_usable : Usable railNoP2pParamsDefault where
  nChannels := by decide
  bwIntra := by norm_num [railNoP2pParamsDefault]
  bwInter := by norm_num [railNoP2pParamsDefault]
  nvlsEfficiency := by norm_num [railNoP2pParamsDefault]
  graphLatencyInter := by norm_num [railNoP2pParamsDefault]
  baseLatencies := cell2_nonneg (by norm_num)
  hwLatencies := cell3_nonneg (by norm_num)
  llMaxBw := cell1_pos (by norm_num) rfl
  perChMaxRingLL128Bw := cell1_pos (by norm_num) rfl
  perChMaxTreeBw := cell1_pos (by norm_num) rfl
  perChMaxTreeLL128Bw := cell1_pos (by norm_num) rfl
  perChMaxNVLSTreeBw := cell1_pos (by norm_num) rfl
  patLatPerRank := by norm_num [railNoP2pParamsDefault]

/-- The parameters of a profile over exact numbers. -/
def exactParams (profile : Profile) : CostModelParams ℚ := costModelProfileParams profile

theorem profile_usable (profile : Profile) : Usable (exactParams profile) := by
  cases profile with
  | mnnvl => exact mnnvl_usable
  | rail_nop2p => exact rail_usable

/-! ## Bandwidth -/

section
variable {P : CostModelParams ℚ} {algo proto scale : Nat} {nNodes nRanks ppn : Int}
  {coll : NcclFunc} {busBw : ℚ}

theorem capped_pos {cap cand : ℚ} (h1 : 0 < cap) (h2 : 0 < cand) : 0 < capped cap cand := by
  unfold capped
  split
  · exact h1
  · exact h2

theorem Usable.channels (h : Usable P) : (0 : ℚ) < ofInt P.nChannels :=
  ofInt_pos (by have := h.nChannels; omega)

theorem tuningScale_lt (nNodes : Int) : tuningScale nNodes < 3 := by
  unfold tuningScale
  split
  · decide
  split
  · decide
  · decide

/-- An NVLS cell with another protocol than SIMPLE has no bandwidth. -/
theorem perChannelBw_unsupported (P : CostModelParams ℚ) (scale : Nat) (nNodes nChannels : Int)
    (factor : ℚ) (halgo : algo = NCCL_ALGO_NVLS ∨ algo = NCCL_ALGO_NVLS_TREE)
    (hproto : proto ≠ NCCL_PROTO_SIMPLE) :
    perChannelBw P algo proto scale nNodes nChannels factor = -1 := by
  unfold perChannelBw
  simp only
  rw [if_pos halgo, if_pos hproto]
  show -(1.0 : ℚ) = -1
  norm_num

/-- All other cells have one. -/
theorem Usable.perChannelBw_pos (h : Usable P) (nNodes : Int) (factor : ℚ) (hfactor : 0 < factor)
    (hcell : algo = NCCL_ALGO_NVLS ∨ algo = NCCL_ALGO_NVLS_TREE → proto = NCCL_PROTO_SIMPLE) :
    0 < perChannelBw P algo proto (tuningScale nNodes) nNodes P.nChannels factor := by
  have hscale := tuningScale_lt nNodes
  have hchannels := h.nChannels
  have hlink : 0 < (if nNodes < 2 then P.bwIntra else P.bwInter) := by
    split
    · exact h.bwIntra
    · exact h.bwInter
  unfold perChannelBw
  simp only
  split
  · rename_i hnvls
    rw [if_neg (not_not.mpr (hcell hnvls)), if_neg (by omega)]
    have hone : (0 : ℚ) < ((P.nChannels - 1 : Int) : ℚ) := by
      exact_mod_cast (by omega : (0 : Int) < P.nChannels - 1)
    have hintra : 0 < P.bwIntra * P.nvlsEfficiency * ofInt (P.nChannels - 1) / ofInt P.nChannels *
        factor :=
      mul_pos (div_pos (mul_pos (mul_pos h.bwIntra h.nvlsEfficiency) hone) h.channels) hfactor
    have htwo : (0 : ℚ) < if nNodes ≤ 2 ∧ algo = NCCL_ALGO_NVLS_TREE then 2.0 else 1.0 := by
      split
      · norm_num
      · norm_num
    have hinter := mul_pos h.bwInter htwo
    have hcap : (0 : ℚ) < if algo = NCCL_ALGO_NVLS_TREE then
        P.perChMaxNVLSTreeBw (tuningScale nNodes) else 1e30 := by
      split
      · exact h.perChMaxNVLSTreeBw _ hscale
      · norm_num
    exact capped_pos hcap (capped_pos hinter hintra)
  · generalize (if nNodes < 2 then P.bwIntra else P.bwInter) = link at hlink ⊢
    split
    · rename_i hcap
      have hpos := (lt_iff _ _).mp hcap.2.2.1
      norm_num at hpos
      exact hpos
    · exact hlink

theorem Usable.applyProtocolCap_pos (h : Usable P) (algo proto : Nat) (nNodes : Int)
    (hbw : 0 < busBw) :
    0 < applyProtocolCap busBw algo proto P (tuningScale nNodes) nNodes P.nChannels := by
  have hscale := tuningScale_lt nNodes
  generalize tuningScale nNodes = scale at hscale ⊢
  unfold applyProtocolCap
  split
  · exact capped_pos (h.llMaxBw scale hscale) (mul_pos hbw (by norm_num))
  split
  · exact capped_pos (mul_pos h.channels (h.perChMaxRingLL128Bw scale hscale))
      (mul_pos hbw (by norm_num))
  split
  · have htree : 0 < capped (ofInt P.nChannels * P.perChMaxTreeBw scale) (busBw * 0.92) :=
      capped_pos (mul_pos h.channels (h.perChMaxTreeBw scale hscale)) (mul_pos hbw (by norm_num))
    simp only
    split
    · exact capped_pos (h.llMaxBw scale hscale) (div_pos htree (by norm_num))
    split
    · have hfactor : (0 : ℚ) < if nNodes = 1 then 7.0 / 9.0 else 120.0 / 128.0 := by
        split
        · norm_num
        · norm_num
      exact capped_pos (mul_pos h.channels (h.perChMaxTreeLL128Bw scale hscale))
        (mul_pos htree hfactor)
    · exact htree
  · exact hbw

/-- The algorithms that have a ratio of bus bandwidth and algorithm bandwidth. -/
def HasRatio (coll : NcclFunc) (algo : Nat) : Prop :=
  (coll = .ncclFuncAllReduce ∧ (algo = NCCL_ALGO_RING ∨ algo = NCCL_ALGO_NVLS ∨
    algo = NCCL_ALGO_NVLS_TREE ∨ algo = NCCL_ALGO_TREE)) ∨
  ((coll = .ncclFuncAllGather ∨ coll = .ncclFuncReduceScatter) ∧
    (algo = NCCL_ALGO_RING ∨ algo = NCCL_ALGO_NVLS))

/-- The steps of an AllReduce over all ranks fit into an int. A tree does not count them. -/
def Fits (coll : NcclFunc) (algo : Nat) (nRanks : Int) : Prop :=
  coll = .ncclFuncAllReduce → algo ≠ NCCL_ALGO_TREE → nRanks ≤ 2 ^ 30

theorem busBwToAlgoBw_pos (hratio : HasRatio coll algo) (hfits : Fits coll algo nRanks)
    (h2 : 2 ≤ nRanks) (hbw : 0 < busBw) : 0 < busBwToAlgoBw busBw algo coll nRanks := by
  have hranks : (0 : ℚ) < ofInt nRanks := ofInt_pos (by omega)
  unfold busBwToAlgoBw
  rw [if_neg (by omega)]
  obtain ⟨rfl, halgo⟩ | ⟨rfl | rfl, halgo⟩ := hratio
  · dsimp only
    split
    · rename_i hring
      have hle : nRanks ≤ 2 ^ 30 := hfits rfl (by rintro rfl; revert hring; decide)
      have htwice : (0 : ℚ) < ofInt (i32 (2 * (nRanks - 1))) := by
        rw [i32_of_nonneg (by omega) (by omega)]
        exact ofInt_pos (by omega)
      exact mul_pos hbw (div_pos hranks htwice)
    · rename_i hring
      rw [if_pos (by tauto)]
      exact mul_pos hbw (by norm_num)
  · dsimp only
    rw [if_pos halgo]
    exact mul_pos hbw (div_pos hranks (ofInt_pos (by omega)))
  · dsimp only
    rw [if_pos halgo]
    exact mul_pos hbw (div_pos hranks (ofInt_pos (by omega)))

/-- With more ranks the number of steps is negative, and so is the bandwidth. -/
theorem busBwToAlgoBw_unfit (hratio : HasRatio coll algo) (hfits : ¬Fits coll algo nRanks)
    (hlt : nRanks < 2 ^ 31) (hbw : 0 < busBw) : busBwToAlgoBw busBw algo coll nRanks < 0 := by
  unfold Fits at hfits
  push Not at hfits
  obtain ⟨rfl, htree, hmany⟩ := hfits
  have hranks : (0 : ℚ) < ofInt nRanks := ofInt_pos (by omega)
  have hsteps : (ofInt (i32 (2 * (nRanks - 1))) : ℚ) < 0 := by
    have hwrap : i32 (2 * (nRanks - 1)) = 2 * (nRanks - 1) - 2 ^ 32 := by
      unfold i32
      rw [Int.bmod_def]
      omega
    rw [hwrap, ofInt_eq]
    exact_mod_cast (by omega : 2 * (nRanks - 1) - 2 ^ 32 < 0)
  obtain ⟨-, halgo⟩ | ⟨hcoll | hcoll, -⟩ := hratio
  · unfold busBwToAlgoBw
    rw [if_neg (by omega)]
    dsimp only
    rw [if_pos (by tauto)]
    exact mul_neg_of_pos_of_neg hbw (div_neg_of_pos_of_neg hranks hsteps)
  · cases hcoll
  · cases hcoll

theorem busBwToAlgoBw_unsupported (hcoll : Modelled coll) (hratio : ¬HasRatio coll algo)
    (h2 : 2 ≤ nRanks) : busBwToAlgoBw busBw algo coll nRanks = -1 := by
  have hminus : -(1.0 : ℚ) = -1 := by norm_num
  unfold HasRatio at hratio
  unfold busBwToAlgoBw
  rw [if_neg (by omega)]
  obtain rfl | rfl | rfl := hcoll
  · simp only
    rw [if_neg (by tauto), if_neg (by tauto)]
    exact hminus
  · simp only
    rw [if_neg (by tauto)]
    exact hminus
  · simp only
    rw [if_neg (by tauto)]
    exact hminus

/-! ## Latency -/

theorem Usable.algoLatency_nonneg (h : Usable P) (proto : Nat) (hratio : HasRatio coll algo)
    (hfits : Fits coll algo nRanks) (hnodes : 1 ≤ nNodes) (hle : nNodes ≤ nRanks)
    (hlt : nRanks < 2 ^ 31) (hppn : 1 ≤ ppn) :
    0 ≤ algoLatency P algo proto coll nRanks nNodes ppn := by
  have hintra := h.hwLatencies NCCL_HW_NVLINK algo proto
  have hbase := h.baseLatencies algo proto
  have hinter : 0 ≤ (if proto = NCCL_PROTO_SIMPLE then
      P.hwLatencies NCCL_HW_NET (if ppn = 1 then NCCL_ALGO_TREE else algo) proto +
        P.graphLatencyInter + P.graphLatencyInter
    else P.hwLatencies NCCL_HW_NET (if ppn = 1 then NCCL_ALGO_TREE else algo) proto +
      P.graphLatencyInter) := by
    have hnet := add_nonneg (h.hwLatencies NCCL_HW_NET
      (if ppn = 1 then NCCL_ALGO_TREE else algo) proto) h.graphLatencyInter
    split
    · exact add_nonneg hnet h.graphLatencyInter
    · exact hnet
  have hlog : (0 : ℚ) ≤ ofInt (costLog2i nNodes) := ofInt_nonneg (Int.natCast_nonneg _)
  have hlocal : (0 : ℚ) ≤ ofInt (ppn - 1) := ofInt_nonneg (by omega)
  have htwo : (0 : ℚ) ≤ 2.0 := by norm_num
  -- The steps of a ring: those between nodes are not more than all of them.
  have hring : ∀ nsteps nInter : Int, 0 ≤ nInter → nInter ≤ nsteps → nsteps < 2 ^ 31 → ∀ x : ℚ,
      0 ≤ x → 0 ≤ P.baseLatencies algo proto + (ofInt (i32 (nsteps - nInter)) *
        P.hwLatencies NCCL_HW_NVLINK algo proto + ofInt nInter * x) := by
    intro nsteps nInter h0 h1 h2 x hx
    rw [i32_of_nonneg (by omega) (by omega)]
    exact add_nonneg hbase (add_nonneg (mul_nonneg (ofInt_nonneg (by omega)) hintra)
      (mul_nonneg (ofInt_nonneg h0) hx))
  unfold algoLatency
  simp only
  generalize (if proto = NCCL_PROTO_SIMPLE then
      P.hwLatencies NCCL_HW_NET (if ppn = 1 then NCCL_ALGO_TREE else algo) proto +
        P.graphLatencyInter + P.graphLatencyInter
    else P.hwLatencies NCCL_HW_NET (if ppn = 1 then NCCL_ALGO_TREE else algo) proto +
      P.graphLatencyInter) = interLat at hinter ⊢
  obtain ⟨rfl, rfl | rfl | rfl | rfl⟩ | ⟨rfl | rfl, rfl | rfl⟩ := hratio
  · dsimp only
    have hfit := hfits rfl (by decide)
    have hsteps := i32_of_nonneg (x := 2 * (nRanks - 1)) (by omega) (by omega)
    have hinterSteps := i32_of_nonneg (x := 2 * (nNodes - 1)) (by omega) (by omega)
    rw [if_pos rfl, hsteps, hinterSteps]
    split
    · exact hring _ _ (by omega) (by omega) (by omega) _ hinter
    · exact hring _ _ (by omega) (by omega) (by omega) _ hinter
  · dsimp only
    rw [if_neg (by decide), if_neg (by decide), if_pos rfl]
    split
    · exact add_nonneg hintra hinter
    · exact hintra
  · dsimp only
    rw [if_neg (by decide), if_neg (by decide), if_neg (by decide), if_pos ⟨rfl, rfl⟩]
    exact add_nonneg hbase (add_nonneg hintra (mul_nonneg (mul_nonneg htwo hlog) hinter))
  · dsimp only
    rw [if_neg (by decide), if_pos ⟨rfl, rfl⟩]
    exact add_nonneg hbase (mul_nonneg htwo
      (add_nonneg (mul_nonneg hlocal hintra) (mul_nonneg hlog hinter)))
  · dsimp only
    rw [if_pos rfl]
    split
    · exact hring _ _ (by omega) (by omega) (by omega) _ hinter
    · exact hring _ _ (by omega) (by omega) (by omega) _ hinter
  · dsimp only
    rw [if_neg (by decide), if_neg (by decide), if_pos rfl]
    split
    · exact add_nonneg hintra hinter
    · exact hintra
  · dsimp only
    rw [if_pos rfl]
    split
    · exact hring _ _ (by omega) (by omega) (by omega) _ hinter
    · exact hring _ _ (by omega) (by omega) (by omega) _ hinter
  · dsimp only
    rw [if_neg (by decide), if_neg (by decide), if_pos rfl]
    split
    · exact add_nonneg hintra hinter
    · exact hintra

theorem regLatScaleFor_pos (P : CostModelParams ℚ) (coll : NcclFunc) (algo proto : Nat)
    (regBuff : Int) : 0 < regLatScaleFor P coll algo proto regBuff := by
  have hone : (0 : ℚ) < 1.0 := by norm_num
  have hscale : ∀ s : ℚ, (0 : ℚ) < if Double.lt 0.0 s then s else 1.0 := by
    intro s
    split
    · rename_i hlt
      exact lt_of_le_of_lt (by norm_num) ((lt_iff _ _).mp hlt)
    · exact hone
  unfold regLatScaleFor
  split
  · exact hone
  split
  · exact hscale _
  · exact hscale _
  · exact hone

theorem one_le_latCount (ring : Bool) (numPipeOps : Int) : 1 ≤ latCount ring numPipeOps := by
  unfold latCount
  generalize (if ring = true then numPipeOps else (i32 (numPipeOps + 3)).tdiv 4) = count
  dsimp only
  split
  · exact Int.le_refl 1
  · omega

/-! ## Prices -/

end

variable {D F : Type} [Double D] [CostFloat D F]

/-- The price of a cell: the `compute` function of the collective. -/
def cellPrice (P : CostModelParams D) (coll : NcclFunc) (nRanks nNodes : Int) (nBytes : Nat)
    (numPipeOps regBuff : Int) (algo proto : Nat) : Option F :=
  match coll with
  | .ncclFuncAllReduce => computeAllReduceTime P nRanks nNodes algo proto nBytes numPipeOps regBuff
  | .ncclFuncAllGather | .ncclFuncReduceScatter =>
    computeAllGatherOrRSTime P coll nRanks nNodes algo proto nBytes numPipeOps regBuff
  | _ => none

/-- The bandwidth of a cell, up to the ratio of `busBwToAlgoBw`. -/
def cellBandwidth (P : CostModelParams D) (coll : NcclFunc) (nRanks nNodes : Int)
    (algo proto : Nat) : D :=
  if algo = NCCL_ALGO_PAT then
    ofInt P.nChannels * (if nNodes < 2 then P.bwIntra else P.bwInter) * P.patBwEff
  else
    let bw := perChannelBw P algo proto (tuningScale nNodes) nNodes P.nChannels
      (if coll = .ncclFuncAllReduce then 2.0 else 1.0)
    let bw := if coll = .ncclFuncAllReduce ∧ algo = NCCL_ALGO_RING ∧ proto = NCCL_PROTO_SIMPLE ∧
      nNodes = 1 ∧ Double.lt 0.0 P.ringBwCapIntra ∧ Double.lt P.ringBwCapIntra bw then
      P.ringBwCapIntra else bw
    busBwToAlgoBw (applyProtocolCap (ofInt P.nChannels * bw) algo proto P (tuningScale nNodes)
      nNodes P.nChannels) algo coll nRanks

/-- The latency of a cell. -/
def cellLatency (P : CostModelParams D) (coll : NcclFunc) (nRanks nNodes regBuff : Int)
    (algo proto : Nat) : D :=
  (if algo = NCCL_ALGO_PAT then
    P.baseLatencies NCCL_ALGO_PAT proto + ofInt (costLog2i nNodes) *
      (P.hwLatencies NCCL_HW_NET NCCL_ALGO_PAT proto + 2.0 * P.graphLatencyInter) +
      ofInt nRanks * P.patLatPerRank
  else algoLatency P algo proto coll nRanks nNodes (nRanks.tdiv nNodes)) *
    regLatScaleFor P coll algo proto regBuff

/-- The cells of the documented coverage. -/
def Covered (P : CostModelParams ℚ) (coll : NcclFunc) (nRanks nNodes : Int)
    (algo proto : Nat) : Prop :=
  (coll = .ncclFuncAllReduce ∧ (algo = NCCL_ALGO_RING ∨ algo = NCCL_ALGO_TREE ∨
    (algo = NCCL_ALGO_NVLS ∧ proto = NCCL_PROTO_SIMPLE ∧ nNodes = 1) ∨
    (algo = NCCL_ALGO_NVLS_TREE ∧ proto = NCCL_PROTO_SIMPLE))) ∨
  ((coll = .ncclFuncAllGather ∨ coll = .ncclFuncReduceScatter) ∧ (algo = NCCL_ALGO_RING ∨
    (algo = NCCL_ALGO_NVLS ∧ proto = NCCL_PROTO_SIMPLE ∧ nNodes = 1) ∨
    (algo = NCCL_ALGO_PAT ∧ proto = NCCL_PROTO_SIMPLE ∧ nNodes = nRanks ∧ 0 < P.patBwEff)))

section
variable {P : CostModelParams ℚ} {coll : NcclFunc} {nRanks nNodes : Int} {algo proto : Nat}
  {busBw : ℚ}

/-- The topologies of the price laws. -/
structure Topology (nRanks nNodes : Int) : Prop where
  ranks : 2 ≤ nRanks
  nodes : 1 ≤ nNodes
  nodes_le : nNodes ≤ nRanks
  fits : nRanks < 2 ^ 31

theorem Topology.one_le_ppn (ht : Topology nRanks nNodes) : 1 ≤ nRanks.tdiv nNodes := by
  have hnodes := ht.nodes
  rw [Int.tdiv_eq_ediv_of_nonneg (by have := ht.ranks; omega)]
  exact Int.le_ediv_of_mul_le (by omega) (by have := ht.nodes_le; omega)

/-- The shared part prices a cell with a bus bandwidth and a ratio. -/
theorem timeFromBusBw_eq (h : Usable P) (ht : Topology nRanks nNodes) (hratio : HasRatio coll algo)
    (hfits : Fits coll algo nRanks) (nBytes : Nat) (numPipeOps regBuff : Int) (hbw : 0 < busBw) :
    timeFromBusBw P coll algo proto nBytes numPipeOps regBuff nRanks nNodes
      (nRanks.tdiv nNodes) busBw =
      algoLatency P algo proto coll nRanks nNodes (nRanks.tdiv nNodes) *
        regLatScaleFor P coll algo proto regBuff *
        ofInt (latCount (algo = NCCL_ALGO_RING) numPipeOps) + ofInt nBytes / (1000.0 *
        busBwToAlgoBw (applyProtocolCap busBw algo proto P (tuningScale nNodes) nNodes
          P.nChannels) algo coll nRanks) := by
  have halgo := busBwToAlgoBw_pos hratio hfits ht.ranks
    (h.applyProtocolCap_pos algo proto nNodes hbw)
  have hlat := h.algoLatency_nonneg proto hratio hfits ht.nodes ht.nodes_le ht.fits
    ht.one_le_ppn
  have hzero : (0.0 : ℚ) = 0 := by norm_num
  unfold timeFromBusBw
  simp only
  rw [if_neg (by rw [le_iff, hzero]; exact not_le.mpr halgo),
    if_neg (by rw [lt_iff, hzero]; exact not_lt.mpr hlat)]
  rfl

theorem timeFromBusBw_unfit (h : Usable P) (ht : Topology nRanks nNodes)
    (hratio : HasRatio coll algo) (hfits : ¬Fits coll algo nRanks) (nBytes : Nat)
    (numPipeOps regBuff ppn : Int) (hbw : 0 < busBw) :
    (timeFromBusBw P coll algo proto nBytes numPipeOps regBuff nRanks nNodes ppn busBw : ℚ) =
      -1 := by
  have halgo := busBwToAlgoBw_unfit hratio hfits ht.fits
    (h.applyProtocolCap_pos algo proto nNodes hbw)
  unfold timeFromBusBw
  dsimp only
  rw [if_pos (by rw [le_iff]; norm_num; exact halgo.le)]
  exact minusOne_eq

theorem timeFromBusBw_unsupported (hcoll : Modelled coll) (hratio : ¬HasRatio coll algo)
    (h2 : 2 ≤ nRanks) (nBytes : Nat) (numPipeOps regBuff ppn : Int) :
    (timeFromBusBw P coll algo proto nBytes numPipeOps regBuff nRanks nNodes ppn busBw : ℚ) =
      -1 := by
  unfold timeFromBusBw
  simp only
  rw [busBwToAlgoBw_unsupported hcoll hratio h2, if_pos (by rw [le_iff]; norm_num)]
  exact minusOne_eq

/-- What a price is made of: a latency for each counted operation, and the transfer. -/
def priceOf (P : CostModelParams ℚ) (coll : NcclFunc) (nRanks nNodes : Int) (nBytes : Nat)
    (numPipeOps regBuff : Int) (algo proto : Nat) : ℚ :=
  cellLatency P coll nRanks nNodes regBuff algo proto *
    latCount (algo = NCCL_ALGO_RING) numPipeOps +
    nBytes / (1000 * cellBandwidth P coll nRanks nNodes algo proto)

/-- The channel bandwidth after the cap of `computeAllReduceTime`. -/
theorem intraCapped_pos {bw : ℚ} (c : Prop) [Decidable c]
    (hc : c → (0 : ℚ) < P.ringBwCapIntra) (hbw : 0 < bw) :
    0 < if c then P.ringBwCapIntra else bw := by
  split
  · rename_i hcap
    exact hc hcap
  · exact hbw

/-- A covered cell other than PAT has a ratio, and NVLS has its protocol. -/
theorem Covered.hasRatio (hcov : Covered P coll nRanks nNodes algo proto)
    (hpat : algo ≠ NCCL_ALGO_PAT) : HasRatio coll algo ∧
      (algo = NCCL_ALGO_NVLS ∨ algo = NCCL_ALGO_NVLS_TREE → proto = NCCL_PROTO_SIMPLE) := by
  obtain ⟨hcoll, rfl | rfl | ⟨rfl, hp, -⟩ | ⟨rfl, hp⟩⟩ | ⟨hcoll, rfl | ⟨rfl, hp, -⟩ | ⟨hp, -⟩⟩ := hcov
  · exact ⟨.inl ⟨hcoll, .inl rfl⟩, fun hnvls => absurd hnvls (by decide)⟩
  · exact ⟨.inl ⟨hcoll, .inr (.inr (.inr rfl))⟩, fun hnvls => absurd hnvls (by decide)⟩
  · exact ⟨.inl ⟨hcoll, .inr (.inl rfl)⟩, fun _ => hp⟩
  · exact ⟨.inl ⟨hcoll, .inr (.inr (.inl rfl))⟩, fun _ => hp⟩
  · exact ⟨.inr ⟨hcoll, .inl rfl⟩, fun hnvls => absurd hnvls (by decide)⟩
  · exact ⟨.inr ⟨hcoll, .inr rfl⟩, fun _ => hp⟩
  · exact absurd hp hpat

/-- PAT is covered only where its profile has an efficiency. -/
theorem Covered.pat (hcov : Covered P coll nRanks nNodes NCCL_ALGO_PAT proto) :
    (coll = .ncclFuncAllGather ∨ coll = .ncclFuncReduceScatter) ∧ proto = NCCL_PROTO_SIMPLE ∧
      nNodes = nRanks ∧ 0 < P.patBwEff := by
  obtain ⟨-, hp | hp | ⟨hp, -⟩ | ⟨hp, -⟩⟩ | ⟨hcoll, hp | ⟨hp, -⟩ | ⟨-, hrest⟩⟩ := hcov
  any_goals exact absurd hp (by decide)
  exact ⟨hcoll, hrest⟩

theorem Usable.link_pos (h : Usable P) (nNodes : Int) :
    0 < if nNodes < 2 then P.bwIntra else P.bwInter := by
  split
  · exact h.bwIntra
  · exact h.bwInter

theorem Covered.bandwidth_pos (hcov : Covered P coll nRanks nNodes algo proto)
    (hfits : Fits coll algo nRanks) (h : Usable P) (ht : Topology nRanks nNodes) :
    0 < cellBandwidth P coll nRanks nNodes algo proto := by
  unfold cellBandwidth
  split
  · rename_i hpat
    obtain ⟨-, -, -, heff⟩ := Covered.pat (hpat ▸ hcov)
    exact mul_pos (mul_pos h.channels (h.link_pos nNodes)) heff
  · rename_i hpat
    obtain ⟨hratio, hproto⟩ := hcov.hasRatio hpat
    have hfactor : (0 : ℚ) < if coll = .ncclFuncAllReduce then 2.0 else 1.0 := by
      split
      · norm_num
      · norm_num
    have hbw := h.perChannelBw_pos nNodes _ hfactor hproto
    refine busBwToAlgoBw_pos hratio hfits ht.ranks
      (h.applyProtocolCap_pos algo proto nNodes (mul_pos h.channels ?_))
    refine intraCapped_pos _ ?_ hbw
    intro hcap
    exact lt_of_le_of_lt (by norm_num) ((lt_iff _ _).mp hcap.2.2.2.2.1)

theorem Covered.latency_nonneg (hcov : Covered P coll nRanks nNodes algo proto)
    (hfits : Fits coll algo nRanks) (h : Usable P) (ht : Topology nRanks nNodes) (regBuff : Int) :
    0 ≤ cellLatency P coll nRanks nNodes regBuff algo proto := by
  have hscale := regLatScaleFor_pos P coll algo proto regBuff
  unfold cellLatency
  refine mul_nonneg ?_ hscale.le
  split
  · have hlog : (0 : ℚ) ≤ ofInt (costLog2i nNodes) := ofInt_nonneg (Int.natCast_nonneg _)
    have hranks : (0 : ℚ) ≤ ofInt nRanks := ofInt_nonneg (by have := ht.ranks; omega)
    have hstep : 0 ≤ P.hwLatencies NCCL_HW_NET NCCL_ALGO_PAT proto + 2.0 * P.graphLatencyInter :=
      add_nonneg (h.hwLatencies ..) (mul_nonneg (by norm_num) h.graphLatencyInter)
    exact add_nonneg (add_nonneg (h.baseLatencies ..) (mul_nonneg hlog hstep))
      (mul_nonneg hranks h.patLatPerRank)
  · rename_i hpat
    exact h.algoLatency_nonneg proto (hcov.hasRatio hpat).1 hfits ht.nodes ht.nodes_le ht.fits ht.one_le_ppn

/-- A covered PAT cell. -/
theorem Covered.pat_price (hcov : Covered P coll nRanks nNodes NCCL_ALGO_PAT proto) (h : Usable P)
    (ht : Topology nRanks nNodes) (nBytes : Nat) (numPipeOps regBuff : Int) :
    patTime P coll nRanks nNodes proto nBytes numPipeOps regBuff =
      priceOf P coll nRanks nNodes nBytes numPipeOps regBuff NCCL_ALGO_PAT proto := by
  obtain ⟨-, hproto, hone, heff⟩ := hcov.pat
  have hbandwidth := hcov.bandwidth_pos (fun _ _ => absurd hcov.pat.1 (by simp [*])) h ht
  have hzero : (0.0 : ℚ) = 0 := by norm_num
  have hthousand : (1000.0 : ℚ) = 1000 := by norm_num
  unfold cellBandwidth at hbandwidth
  unfold patTime priceOf cellLatency cellBandwidth cellTime
  rw [if_pos rfl] at hbandwidth
  rw [if_neg (by simp only [le_iff, hzero]; push Not; exact ⟨heff, hproto, hone⟩), if_pos rfl,
    if_pos rfl]
  dsimp only
  rw [if_neg (by simpa only [le_iff, hzero, not_le] using hbandwidth), hthousand]
  rfl

theorem cellPrice_gather (hcoll : coll = .ncclFuncAllGather ∨ coll = .ncclFuncReduceScatter)
    (P : CostModelParams ℚ) (nRanks nNodes : Int) (nBytes : Nat) (numPipeOps regBuff : Int)
    (algo proto : Nat) :
    (cellPrice P coll nRanks nNodes nBytes numPipeOps regBuff algo proto : Option ℚ) =
      computeAllGatherOrRSTime P coll nRanks nNodes algo proto nBytes numPipeOps regBuff := by
  obtain rfl | rfl := hcoll
  · rfl
  · rfl

/-- A cell with a ratio is priced by the shared part, if it is not NVLS on many nodes. -/
theorem cellPrice_shared (h : Usable P) (ht : Topology nRanks nNodes)
    (hratio : HasRatio coll algo) (hfits : Fits coll algo nRanks)
    (hproto : algo = NCCL_ALGO_NVLS ∨ algo = NCCL_ALGO_NVLS_TREE → proto = NCCL_PROTO_SIMPLE)
    (hlocal : ¬(algo = NCCL_ALGO_NVLS ∧ nNodes > 1)) (nBytes : Nat) (numPipeOps regBuff : Int) :
    cellPrice P coll nRanks nNodes nBytes numPipeOps regBuff algo proto =
      some (priceOf P coll nRanks nNodes nBytes numPipeOps regBuff algo proto) := by
  have hranks : ¬nRanks ≤ 1 := by have := ht.ranks; omega
  have hnodes : nNodes ≠ 0 := by have := ht.nodes; omega
  have hzero : (0.0 : ℚ) = 0 := by norm_num
  have hthousand : (1000.0 : ℚ) = 1000 := by norm_num
  have hpat : algo ≠ NCCL_ALGO_PAT := by
    obtain ⟨-, rfl | rfl | rfl | rfl⟩ | ⟨-, rfl | rfl⟩ := hratio
    all_goals decide
  unfold priceOf cellLatency cellBandwidth
  rw [if_neg hpat, if_neg hpat]
  dsimp only
  obtain ⟨rfl, halgo⟩ | ⟨hcoll, halgo⟩ := id hratio
  · have hbw := h.perChannelBw_pos nNodes 2.0 (by norm_num) hproto
    have hpos : 0 < if algo = NCCL_ALGO_RING ∧ proto = NCCL_PROTO_SIMPLE ∧ nNodes = 1 ∧
        Double.lt 0.0 P.ringBwCapIntra ∧ Double.lt P.ringBwCapIntra
          (perChannelBw P algo proto (tuningScale nNodes) nNodes P.nChannels 2.0) then
        P.ringBwCapIntra
        else perChannelBw P algo proto (tuningScale nNodes) nNodes P.nChannels 2.0 :=
      intraCapped_pos _ (fun hc => lt_of_le_of_lt (by norm_num) ((lt_iff _ _).mp hc.2.2.2.1)) hbw
    simp only [cellPrice, computeAllReduceTime]
    rw [if_neg hranks, divInt_some nRanks hnodes, Option.map_some, if_neg hlocal,
      if_neg (by rw [lt_iff, hzero]; exact not_lt.mpr hbw.le),
      timeFromBusBw_eq h ht hratio hfits nBytes numPipeOps regBuff (mul_pos h.channels hpos), hthousand]
    simp only [true_and, if_true]
    rfl
  · have hbw := h.perChannelBw_pos nNodes 1.0 (by norm_num) hproto
    have hne : coll ≠ .ncclFuncAllReduce := by
      obtain rfl | rfl := hcoll
      · decide
      · decide
    have htree : ¬(algo = NCCL_ALGO_TREE ∨ algo = NCCL_ALGO_NVLS_TREE) := by
      obtain rfl | rfl := halgo
      · decide
      · decide
    rw [cellPrice_gather hcoll]
    unfold computeAllGatherOrRSTime
    rw [if_neg hranks, divInt_some nRanks hnodes, Option.map_some, if_neg hpat, if_neg hlocal,
      if_neg htree]
    dsimp only
    rw [if_neg (by rw [lt_iff, hzero]; exact not_lt.mpr hbw.le),
      timeFromBusBw_eq h ht hratio hfits nBytes numPipeOps regBuff (mul_pos h.channels hbw), hthousand]
    simp only [hne, false_and, if_false]
    rfl

/-- A covered cell has its price. -/
theorem Covered.price_eq (hcov : Covered P coll nRanks nNodes algo proto)
    (hfits : Fits coll algo nRanks) (h : Usable P) (ht : Topology nRanks nNodes) (nBytes : Nat)
    (numPipeOps regBuff : Int) :
    cellPrice P coll nRanks nNodes nBytes numPipeOps regBuff algo proto =
      some (priceOf P coll nRanks nNodes nBytes numPipeOps regBuff algo proto) := by
  by_cases hpat : algo = NCCL_ALGO_PAT
  · subst hpat
    have hranks : ¬nRanks ≤ 1 := by have := ht.ranks; omega
    have hnodes : nNodes ≠ 0 := by have := ht.nodes; omega
    rw [← hcov.pat_price h ht, cellPrice_gather hcov.pat.1]
    unfold computeAllGatherOrRSTime
    rw [if_neg hranks, divInt_some nRanks hnodes, Option.map_some, if_pos rfl]
  · obtain ⟨hratio, hproto⟩ := hcov.hasRatio hpat
    refine cellPrice_shared h ht hratio hfits hproto ?_ nBytes numPipeOps regBuff
    rintro ⟨rfl, hmany⟩
    obtain ⟨-, hc | hc | ⟨-, -, hc⟩ | ⟨hc, -⟩⟩ | ⟨-, hc | ⟨-, -, hc⟩ | ⟨hc, -⟩⟩ := hcov
    · exact absurd hc (by decide)
    · exact absurd hc (by decide)
    · omega
    · exact absurd hc (by decide)
    · exact absurd hc (by decide)
    · omega
    · exact absurd hc (by decide)

theorem Covered.price_nonneg (hcov : Covered P coll nRanks nNodes algo proto)
    (hfits : Fits coll algo nRanks) (h : Usable P) (ht : Topology nRanks nNodes) (nBytes : Nat)
    (numPipeOps regBuff : Int) :
    0 ≤ priceOf P coll nRanks nNodes nBytes numPipeOps regBuff algo proto := by
  have hcount : (0 : ℚ) ≤ latCount (algo = NCCL_ALGO_RING) numPipeOps := by
    have := one_le_latCount (algo = NCCL_ALGO_RING) numPipeOps
    exact_mod_cast (by omega : (0 : Int) ≤ latCount (algo = NCCL_ALGO_RING) numPipeOps)
  have hbandwidth := mul_pos (by norm_num : (0 : ℚ) < 1000) (hcov.bandwidth_pos hfits h ht)
  exact add_nonneg (mul_nonneg (hcov.latency_nonneg hfits h ht regBuff) hcount)
    (div_nonneg (Nat.cast_nonneg nBytes) hbandwidth.le)

/-- What follows an NVLS cell without its protocol, or a cell without a ratio, or without
room for its steps. -/
theorem channel_unsupported (hcoll : Modelled coll) (h : Usable P) (ht : Topology nRanks nNodes)
    {factor : ℚ} (hfactor : 0 < factor)
    (hcell : ((algo = NCCL_ALGO_NVLS ∨ algo = NCCL_ALGO_NVLS_TREE) ∧ proto ≠ NCCL_PROTO_SIMPLE) ∨
      ¬HasRatio coll algo ∨ ¬Fits coll algo nRanks) (nBytes : Nat) (numPipeOps regBuff ppn : Int)
    {busBw : ℚ} (hbusBw : 0 < perChannelBw P algo proto (tuningScale nNodes) nNodes P.nChannels
      factor → 0 < busBw) :
    (if Double.lt (perChannelBw P algo proto (tuningScale nNodes) nNodes P.nChannels factor) 0.0 then
        CostFloat.ofDouble (-1.0 : ℚ)
      else timeFromBusBw P coll algo proto nBytes numPipeOps regBuff nRanks nNodes ppn busBw : ℚ) =
      -1 := by
  by_cases hnvls : (algo = NCCL_ALGO_NVLS ∨ algo = NCCL_ALGO_NVLS_TREE) ∧
      proto ≠ NCCL_PROTO_SIMPLE
  · rw [if_pos, minusOne_eq]
    rw [perChannelBw_unsupported P _ nNodes P.nChannels factor hnvls.1 hnvls.2, lt_iff]
    norm_num
  · have hproto : algo = NCCL_ALGO_NVLS ∨ algo = NCCL_ALGO_NVLS_TREE → proto = NCCL_PROTO_SIMPLE :=
      fun halgo => by_contra (fun hne => hnvls ⟨halgo, hne⟩)
    have hbw := h.perChannelBw_pos nNodes _ hfactor hproto
    rw [if_neg (by rw [lt_iff]; norm_num; exact hbw.le)]
    by_cases hratio : HasRatio coll algo
    · have hfits : ¬Fits coll algo nRanks := by tauto
      exact timeFromBusBw_unfit h ht hratio hfits nBytes numPipeOps regBuff ppn
        (hbusBw hbw)
    · exact timeFromBusBw_unsupported hcoll hratio ht.ranks nBytes numPipeOps regBuff ppn

/-- The cells that the cost model prices. -/
structure Priceable (P : CostModelParams ℚ) (coll : NcclFunc) (nRanks nNodes : Int)
    (algo proto : Nat) : Prop where
  covered : Covered P coll nRanks nNodes algo proto
  fits : Fits coll algo nRanks

/-- A cell that passes the gates of its function without being covered is NVLS with another
protocol, or it has no ratio. -/
theorem not_covered_cell (hcov : ¬Covered P coll nRanks nNodes algo proto)
    (hlocal : algo = NCCL_ALGO_NVLS → nNodes = 1) :
    ((algo = NCCL_ALGO_NVLS ∨ algo = NCCL_ALGO_NVLS_TREE) ∧ proto ≠ NCCL_PROTO_SIMPLE) ∨
      ¬HasRatio coll algo := by
  by_contra hno
  obtain ⟨hnvls, hratio⟩ := not_or.mp hno
  have hproto : algo = NCCL_ALGO_NVLS ∨ algo = NCCL_ALGO_NVLS_TREE → proto = NCCL_PROTO_SIMPLE :=
    fun halgo => by_contra (fun hne => hnvls ⟨halgo, hne⟩)
  apply hcov
  obtain ⟨hc, hring | hn | hnt | htree⟩ | ⟨hc, hring | hn⟩ := not_not.mp hratio
  · exact .inl ⟨hc, .inl hring⟩
  · exact .inl ⟨hc, .inr (.inr (.inl ⟨hn, hproto (.inl hn), hlocal hn⟩))⟩
  · exact .inl ⟨hc, .inr (.inr (.inr ⟨hnt, hproto (.inr hnt)⟩))⟩
  · exact .inl ⟨hc, .inr (.inl htree)⟩
  · exact .inr ⟨hc, .inl hring⟩
  · exact .inr ⟨hc, .inr (.inl ⟨hn, hproto (.inl hn), hlocal hn⟩)⟩

theorem not_priceable_price (hcoll : Modelled coll)
    (hnot : ¬Priceable P coll nRanks nNodes algo proto) (h : Usable P)
    (ht : Topology nRanks nNodes) (nBytes : Nat) (numPipeOps regBuff : Int) :
    cellPrice P coll nRanks nNodes nBytes numPipeOps regBuff algo proto = some (-1 : ℚ) := by
  have hranks : ¬nRanks ≤ 1 := by have := ht.ranks; omega
  have hnodes : nNodes ≠ 0 := by have := ht.nodes; omega
  have hone := ht.nodes
  have hmodelled := hcoll
  have hcov : Fits coll algo nRanks → ¬Covered P coll nRanks nNodes algo proto :=
    fun hfits hcov => hnot ⟨hcov, hfits⟩
  have hcell : (algo = NCCL_ALGO_NVLS → nNodes = 1) →
      ((algo = NCCL_ALGO_NVLS ∨ algo = NCCL_ALGO_NVLS_TREE) ∧ proto ≠ NCCL_PROTO_SIMPLE) ∨
        ¬HasRatio coll algo ∨ ¬Fits coll algo nRanks := by
    intro hlocal
    by_cases hfits : Fits coll algo nRanks
    · exact (not_covered_cell (hcov hfits) hlocal).imp_right .inl
    · exact .inr (.inr hfits)
  have hgate : ¬(algo = NCCL_ALGO_NVLS ∧ nNodes > 1) → algo = NCCL_ALGO_NVLS → nNodes = 1 := by
    intro hlocal heq
    by_contra hne
    exact hlocal ⟨heq, by omega⟩
  have hgather : coll = .ncclFuncAllGather ∨ coll = .ncclFuncReduceScatter →
      cellPrice P coll nRanks nNodes nBytes numPipeOps regBuff algo proto = some (-1 : ℚ) := by
    intro hc
    rw [cellPrice_gather hc]
    unfold computeAllGatherOrRSTime
    rw [if_neg hranks, divInt_some nRanks hnodes, Option.map_some]
    congr 1
    split
    · rename_i hpat
      have hfits : Fits coll algo nRanks := by
        rintro rfl
        simp at hc
      unfold patTime
      rw [if_pos, minusOne_eq]
      rw [le_iff]
      by_contra hno
      push Not at hno
      norm_num at hno
      exact hcov hfits (.inr ⟨hc, .inr (.inr ⟨hpat, hno.2.1, hno.2.2, hno.1⟩)⟩)
    split
    · exact minusOne_eq
    split
    · exact minusOne_eq
    · rename_i hlocal _
      exact channel_unsupported hmodelled h ht (by norm_num) (hcell (hgate hlocal))
        nBytes numPipeOps regBuff _ (mul_pos h.channels)
  obtain hc | hc | hc := hcoll
  · subst hc
    simp only [cellPrice, computeAllReduceTime]
    rw [if_neg hranks, divInt_some nRanks hnodes, Option.map_some]
    congr 1
    split
    · exact minusOne_eq
    · rename_i hlocal
      refine channel_unsupported hmodelled h ht (by norm_num) (hcell (hgate hlocal))
        nBytes numPipeOps regBuff _ (fun hbw => ?_)
      refine mul_pos h.channels (intraCapped_pos _ (fun hcap => ?_) hbw)
      exact lt_of_le_of_lt (by norm_num) ((lt_iff _ _).mp hcap.2.2.2.1)
  · exact hgather (.inl hc)
  · exact hgather (.inr hc)

end

/-! ## The coverage -/

/-- The price of a cell as a number; it is never used where there is none. -/
def cellCost (P : CostModelParams ℚ) (coll : NcclFunc) (nRanks nNodes : Int) (nBytes : Nat)
    (numPipeOps regBuff : Int) (a p : Nat) : ℚ :=
  (cellPrice P coll nRanks nNodes nBytes numPipeOps regBuff a p).getD 0

section
variable {P : CostModelParams ℚ} {coll : NcclFunc} {nRanks nNodes : Int} {algo proto : Nat}

theorem cellPrice_some (hcoll : Modelled coll) (h : Usable P) (ht : Topology nRanks nNodes)
    (nBytes : Nat) (numPipeOps regBuff : Int) (a p : Nat) :
    cellPrice P coll nRanks nNodes nBytes numPipeOps regBuff a p =
      some (cellCost P coll nRanks nNodes nBytes numPipeOps regBuff a p) := by
  unfold cellCost
  by_cases hcan : Priceable P coll nRanks nNodes a p
  · rw [hcan.covered.price_eq hcan.fits h ht, Option.getD_some]
  · rw [not_priceable_price hcoll hcan h ht, Option.getD_some]

theorem Priceable.cost_eq (hcan : Priceable P coll nRanks nNodes algo proto) (h : Usable P)
    (ht : Topology nRanks nNodes) (nBytes : Nat) (numPipeOps regBuff : Int) :
    cellCost P coll nRanks nNodes nBytes numPipeOps regBuff algo proto =
      priceOf P coll nRanks nNodes nBytes numPipeOps regBuff algo proto := by
  unfold cellCost
  rw [hcan.covered.price_eq hcan.fits h ht, Option.getD_some]

theorem cellCost_nonneg_iff (hcoll : Modelled coll) (h : Usable P) (ht : Topology nRanks nNodes)
    (nBytes : Nat) (numPipeOps regBuff : Int) :
    0 ≤ cellCost P coll nRanks nNodes nBytes numPipeOps regBuff algo proto ↔
      Priceable P coll nRanks nNodes algo proto := by
  by_cases hcan : Priceable P coll nRanks nNodes algo proto
  · rw [hcan.cost_eq h ht]
    exact iff_of_true (hcan.covered.price_nonneg hcan.fits h ht nBytes numPipeOps regBuff) hcan
  · unfold cellCost
    rw [not_priceable_price hcoll hcan h ht, Option.getD_some]
    exact iff_of_false (by norm_num) hcan

/-- The loop prices a cell if it is not ignored and the cost model can price it. -/
theorem getsPrice_iff (hcoll : Modelled coll) (h : Usable P) (ht : Topology nRanks nNodes)
    (nBytes : Nat) (numPipeOps regBuff : Int) (table : CostTable ℚ) :
    GetsPrice ℚ (cellCost P coll nRanks nNodes nBytes numPipeOps regBuff) table algo proto ↔
      CostFloat.ignored ℚ (table algo proto) = false ∧
        Priceable P coll nRanks nNodes algo proto := by
  unfold GetsPrice
  rw [← cellCost_nonneg_iff hcoll h ht nBytes numPipeOps regBuff, Bool.eq_false_iff, ne_eq,
    Bool.eq_false_iff, ne_eq, negative_iff, not_lt]

/-- Below 2^30 ranks all steps fit. -/
theorem priceable_iff_covered (hfew : nRanks < 2 ^ 30) :
    Priceable P coll nRanks nNodes algo proto ↔ Covered P coll nRanks nNodes algo proto :=
  ⟨fun hcan => hcan.covered, fun hcov => ⟨hcov, fun _ _ => hfew.le⟩⟩

end

/-- In both profiles, for every topology and every call, the cells with a price are those
of the documented coverage; the loop over the table prices these and no others. -/
theorem exactly_the_covered_cells_are_priced (profile : Profile) (coll : NcclFunc)
    {nRanks nNodes : Int} (ht : Topology nRanks nNodes) (hfew : nRanks < 2 ^ 30) (nBytes : Nat)
    (numPipeOps regBuff : Int) :
    (∀ algo proto, (∃ t : ℚ, cellPrice (exactParams profile) coll nRanks nNodes nBytes
        numPipeOps regBuff algo proto = some t ∧ 0 ≤ t) ↔
      Covered (exactParams profile) coll nRanks nNodes algo proto) ∧
    (Modelled coll → ∀ (table : CostTable ℚ) (numAlgo numProto : Int), ∃ s,
      (tableCells numAlgo numProto).foldlM (priceCell ℚ (cellPrice (exactParams profile)
        coll nRanks nNodes nBytes numPipeOps regBuff)) { table } = some s ∧
      ∀ algo proto, (algo, proto) ∈ tableCells numAlgo numProto →
        CostFloat.ignored ℚ (table algo proto) = false →
        (Covered (exactParams profile) coll nRanks nNodes algo proto →
          0 ≤ s.table algo proto ∧ cellPrice (exactParams profile) coll nRanks nNodes
            nBytes numPipeOps regBuff algo proto = some (s.table algo proto)) ∧
        (¬Covered (exactParams profile) coll nRanks nNodes algo proto →
          s.table algo proto = table algo proto ∧
            algo * NCCL_NUM_PROTOCOLS + proto ∈ s.unpriced)) := by
  have h := profile_usable profile
  generalize exactParams profile = P at h ⊢
  constructor
  · intro algo proto
    rw [← priceable_iff_covered hfew]
    constructor
    · rintro ⟨t, hprice, hpos⟩
      have hcoll : Modelled coll := by
        unfold cellPrice at hprice
        split at hprice
        · exact .inl rfl
        · exact .inr (.inl rfl)
        · exact .inr (.inr rfl)
        · cases hprice
      by_contra hcan
      rw [not_priceable_price hcoll hcan h ht] at hprice
      cases hprice
      norm_num at hpos
    · intro hcan
      exact ⟨_, hcan.covered.price_eq hcan.fits h ht nBytes numPipeOps regBuff,
        hcan.covered.price_nonneg hcan.fits h ht nBytes numPipeOps regBuff⟩
  · intro hcoll table numAlgo numProto
    obtain ⟨s, hs, hfilled⟩ := priceCells_filled (D := ℚ) numAlgo numProto table
      (cellPrice_some hcoll h ht nBytes numPipeOps regBuff)
    have hproto : ∀ c ∈ tableCells numAlgo numProto, c.2 < NCCL_NUM_PROTOCOLS :=
      fun c hc => (mem_tableCells hc).2.2
    refine ⟨s, hs, fun algo proto hin hlive => ?_⟩
    rw [← priceable_iff_covered hfew]
    refine ⟨fun hcan => ?_, fun hcan => ⟨?_, ?_⟩⟩
    · have hprice := (getsPrice_iff hcoll h ht nBytes numPipeOps regBuff table).mpr ⟨hlive, hcan⟩
      rw [hfilled.priced algo proto hin hprice]
      exact ⟨(cellCost_nonneg_iff hcoll h ht nBytes numPipeOps regBuff).mpr hcan,
        cellPrice_some hcoll h ht nBytes numPipeOps regBuff algo proto⟩
    · refine hfilled.kept algo proto (fun hg => hcan ?_)
      exact ((getsPrice_iff hcoll h ht nBytes numPipeOps regBuff table).mp hg.2).2
    · rw [hfilled.mem_unpriced hproto (hproto _ hin)]
      refine ⟨hin, hlive, ?_⟩
      rw [negative_iff, ← not_le, cellCost_nonneg_iff hcoll h ht]
      exact hcan

theorem two_ranks : Topology 2 2 := ⟨by decide, by decide, by decide, by decide⟩

/-- Two nodes with a rank each: PAT is priced for a gather, with the profile that has its
efficiency. -/
theorem pat_is_priced_for_single_ranks : Topology 2 2 ∧ (2 : Int) < 2 ^ 30 ∧
    (∃ t : ℚ, cellPrice (exactParams .rail_nop2p) .ncclFuncAllGather 2 2 1024 1 0
      NCCL_ALGO_PAT NCCL_PROTO_SIMPLE = some t ∧ 0 ≤ t) := by
  refine ⟨two_ranks, by decide, ((exactly_the_covered_cells_are_priced .rail_nop2p
    .ncclFuncAllGather two_ranks (by decide) 1024 1 0).1 NCCL_ALGO_PAT NCCL_PROTO_SIMPLE).mpr ?_⟩
  refine .inr ⟨.inl rfl, .inr (.inr ⟨rfl, rfl, rfl, ?_⟩)⟩
  show (0 : ℚ) < 0.468895
  norm_num

end tuner.plugin
