-- Large AllReduces of the profile mnnvl (tuner/plugin.c, ringBwCapInter, ringBwCapIntra).
-- The transfer decides there, so the cell with the larger bandwidth is the cheaper one,
-- whatever the latencies are.
import MrcPlugin.TunerPrices

namespace tuner.plugin

open net_ib

/-! ## Bandwidth -/

/-- The bus bandwidth of an AllReduce cell, after all caps. -/
def allReduceBusBw (P : CostModelParams ℚ) (nNodes : Int) (algo proto : Nat) : ℚ :=
  let bw := perChannelBw P algo proto (tuningScale nNodes) nNodes P.nChannels 2.0
  let bw := if algo = NCCL_ALGO_RING ∧ proto = NCCL_PROTO_SIMPLE ∧ nNodes = 1 ∧
    Double.lt 0.0 P.ringBwCapIntra ∧ Double.lt P.ringBwCapIntra bw then P.ringBwCapIntra else bw
  applyProtocolCap (ofInt P.nChannels * bw) algo proto P (tuningScale nNodes) nNodes P.nChannels

section
variable {P : CostModelParams ℚ} {nRanks nNodes : Int} {algo proto : Nat}

/-- From three nodes on their number makes no difference. -/
theorem allReduceBusBw_many (h : 3 ≤ nNodes) :
    allReduceBusBw P nNodes algo proto = allReduceBusBw P 3 algo proto := by
  have hscale : tuningScale nNodes = tuningScale 3 := by
    unfold tuningScale
    rw [if_neg (by omega), if_neg (by omega)]
    rfl
  have h1 : (nNodes < 2) = ((3 : Int) < 2) := by simp; omega
  have h2 : (nNodes ≥ 2) = ((3 : Int) ≥ 2) := by simp; omega
  have h3 : (nNodes ≤ 2) = ((3 : Int) ≤ 2) := by simp; omega
  have h4 : (nNodes = 1) = ((3 : Int) = 1) := by simp; omega
  unfold allReduceBusBw perChannelBw applyProtocolCap
  simp only [hscale, h1, h2, h3, h4]

/-- The ratio of bus bandwidth and algorithm bandwidth, n/(2(n-1)). -/
def allReduceRatio (nRanks : Int) : ℚ := nRanks / (2 * (nRanks - 1))

theorem cellBandwidth_allReduce (ht : Topology nRanks nNodes) (hfew : nRanks ≤ 2 ^ 30)
    (halgo : algo = NCCL_ALGO_RING ∨ algo = NCCL_ALGO_NVLS ∨ algo = NCCL_ALGO_NVLS_TREE) :
    cellBandwidth P .ncclFuncAllReduce nRanks nNodes algo proto =
      allReduceBusBw P nNodes algo proto * allReduceRatio nRanks := by
  have hranks := ht.ranks
  have hpat : algo ≠ NCCL_ALGO_PAT := by
    rintro rfl
    revert halgo
    decide
  have htwice : (ofInt (2 * (nRanks - 1)) : ℚ) = 2 * (nRanks - 1) := by
    rw [ofInt_eq]
    push_cast
    rfl
  unfold cellBandwidth busBwToAlgoBw
  rw [if_neg hpat, if_neg (by omega)]
  dsimp only
  rw [if_pos halgo, i32_of_nonneg (by omega) (by omega), htwice]
  simp only [true_and, if_true, allReduceBusBw, allReduceRatio]
  rfl

theorem allReduceRatio_pos (ht : Topology nRanks nNodes) : 0 < allReduceRatio nRanks := by
  have h2 : (2 : ℚ) ≤ nRanks := by exact_mod_cast ht.ranks
  exact div_pos (by linarith) (by linarith)

theorem allReduceRatio_le_one (ht : Topology nRanks nNodes) : allReduceRatio nRanks ≤ 1 := by
  have h2 : (2 : ℚ) ≤ nRanks := by exact_mod_cast ht.ranks
  unfold allReduceRatio
  rw [div_le_one (by linarith)]
  linarith

end

/-- The parameters of the profile. -/
abbrev mnnvl : CostModelParams ℚ := exactParams .mnnvl

/-- The cell for large messages: NVLS within a domain, NVLS_TREE between domains. -/
def largeAlgo (nNodes : Int) : Nat := if nNodes = 1 then NCCL_ALGO_NVLS else NCCL_ALGO_NVLS_TREE

/-- The bandwidths of these cells and the caps of the ring, within a domain and between two
and three. -/
theorem busBw_bounds :
    (587 ≤ allReduceBusBw mnnvl 1 NCCL_ALGO_NVLS NCCL_PROTO_SIMPLE ∧
      ∀ proto < 3, allReduceBusBw mnnvl 1 NCCL_ALGO_RING proto ≤ 560) ∧
    ∀ nNodes ∈ [2, 3], 587 ≤ allReduceBusBw mnnvl nNodes NCCL_ALGO_NVLS_TREE NCCL_PROTO_SIMPLE ∧
      ∀ proto < 3, allReduceBusBw mnnvl nNodes NCCL_ALGO_RING proto ≤ 512 := by
  decide +kernel

theorem nvls_busBw : 587 ≤ allReduceBusBw mnnvl 1 NCCL_ALGO_NVLS NCCL_PROTO_SIMPLE :=
  busBw_bounds.1.1

theorem nvlsTree_busBw {nNodes : Int} (h : 2 ≤ nNodes) :
    587 ≤ allReduceBusBw mnnvl nNodes NCCL_ALGO_NVLS_TREE NCCL_PROTO_SIMPLE := by
  obtain rfl | hmany : nNodes = 2 ∨ 3 ≤ nNodes := by omega
  · exact (busBw_bounds.2 2 (by decide)).1
  · rw [allReduceBusBw_many hmany]
    exact (busBw_bounds.2 3 (by decide)).1

/-- The cap of the ring within a domain. -/
theorem ring_busBw_intra : ∀ proto < 3, allReduceBusBw mnnvl 1 NCCL_ALGO_RING proto ≤ 560 :=
  busBw_bounds.1.2

/-- The cap of the ring between domains. -/
theorem ring_busBw_inter {nNodes : Int} (h : 2 ≤ nNodes) :
    ∀ proto < 3, allReduceBusBw mnnvl nNodes NCCL_ALGO_RING proto ≤ 512 := by
  obtain rfl | hmany : nNodes = 2 ∨ 3 ≤ nNodes := by omega
  · exact (busBw_bounds.2 2 (by decide)).2
  · simp only [allReduceBusBw_many hmany]
    exact (busBw_bounds.2 3 (by decide)).2

/-! ## Latency -/

theorem mnnvl_regLatScale (algo proto : Nat) (regBuff : Int) :
    regLatScaleFor mnnvl .ncclFuncAllReduce algo proto regBuff = 1 := by
  have hone : (1.0 : ℚ) = 1 := by norm_num
  unfold regLatScaleFor
  split
  · exact hone
  · rw [if_neg, hone]
    have hzero : mnnvl.arRegLatScale algo proto = 0.0 := rfl
    rw [hzero, lt_iff]
    exact lt_irrefl _

/-- Beside the ring four pipelined operations count once. -/
theorem latCount_le (numPipeOps : Int) : latCount false numPipeOps ≤ 2 ^ 29 := by
  have hi32 : i32 (numPipeOps + 3) < 2 ^ 31 := by
    unfold i32
    exact Int.bmod_lt (by decide)
  have hquarter : (i32 (numPipeOps + 3)).tdiv 4 ≤ 2 ^ 29 := by
    rw [Int.tdiv_eq_ediv]
    split
    · omega
    · rw [Int.sign_eq_one_of_pos (by decide)]
      omega
  unfold latCount
  rw [if_neg Bool.false_ne_true]
  dsimp only
  split
  · decide
  · exact hquarter

theorem nvls_latency (nRanks regBuff : Int) :
    cellLatency mnnvl .ncclFuncAllReduce nRanks 1 regBuff NCCL_ALGO_NVLS NCCL_PROTO_SIMPLE = 42 := by
  unfold cellLatency
  rw [mnnvl_regLatScale, if_neg (by decide), mul_one]
  unfold algoLatency
  dsimp only
  rw [if_neg (by decide), if_neg (by decide), if_pos rfl, if_neg (by decide)]
  decide +kernel

theorem costLog2i_le {n : Int} (h : n ≤ 2 ^ 30) : costLog2i n ≤ 30 := by
  have hlog : Nat.log2 n.toNat < 31 := by
    by_cases hzero : n.toNat = 0
    · rw [hzero]
      decide
    · exact (Nat.log2_lt hzero).mpr (by omega)
  unfold costLog2i
  omega

theorem nvlsTree_latency {nRanks nNodes : Int} (ht : Topology nRanks nNodes)
    (hfew : nRanks ≤ 2 ^ 30) (regBuff : Int) :
    cellLatency mnnvl .ncclFuncAllReduce nRanks nNodes regBuff NCCL_ALGO_NVLS_TREE
      NCCL_PROTO_SIMPLE ≤ 1800 := by
  have hlog : (ofInt (costLog2i nNodes) : ℚ) ≤ 30 := by
    rw [ofInt_eq]
    exact_mod_cast costLog2i_le (by have := ht.nodes_le; omega)
  have hinter : ∀ ppn : Int, mnnvl.hwLatencies NCCL_HW_NET
      (if ppn = 1 then NCCL_ALGO_TREE else NCCL_ALGO_NVLS_TREE) NCCL_PROTO_SIMPLE +
        mnnvl.graphLatencyInter + mnnvl.graphLatencyInter ≤ 27.59 := by
    intro ppn
    split
    · show (25.16 : ℚ) + 0.0 + 0.0 ≤ 27.59
      norm_num
    · show (27.59 : ℚ) + 0.0 + 0.0 ≤ 27.59
      norm_num
  have hbase : mnnvl.baseLatencies NCCL_ALGO_NVLS_TREE NCCL_PROTO_SIMPLE = 102 := by
    show (102.0 : ℚ) = 102
    norm_num
  have hintra : mnnvl.hwLatencies NCCL_HW_NVLINK NCCL_ALGO_NVLS_TREE NCCL_PROTO_SIMPLE = 39.36 :=
    rfl
  unfold cellLatency
  rw [mnnvl_regLatScale, if_neg (by decide), mul_one]
  unfold algoLatency
  dsimp only
  rw [if_neg (by decide), if_neg (by decide), if_neg (by decide), if_pos ⟨rfl, rfl⟩, hbase, hintra]
  rw [if_pos rfl]
  have hlog0 : (0 : ℚ) ≤ ofInt (costLog2i nNodes) := ofInt_nonneg (Int.natCast_nonneg _)
  have hsum : ∀ log inter : ℚ, 0 ≤ log → log ≤ 30 → inter ≤ 27.59 →
      102 + (39.36 + 2.0 * log * inter) ≤ 1800 := by
    intro log inter h0 h30 hle
    have hproduct : log * inter ≤ 30 * 27.59 :=
      calc log * inter ≤ log * 27.59 := mul_le_mul_of_nonneg_left hle h0
        _ ≤ 30 * 27.59 := mul_le_mul_of_nonneg_right h30 (by norm_num)
    norm_num at hproduct ⊢
    linarith
  exact hsum _ _ hlog0 hlog (hinter (nRanks.tdiv nNodes))

/-! ## Prices -/

/-- The bandwidths decide between two cells once the transfer is long enough. -/
theorem price_gap {n lat b b' r bound lo hi : ℚ} (hn : 0 ≤ n) (hr : 0 < r) (hr1 : r ≤ 1)
    (hlat : lat ≤ bound) (hbound : 0 ≤ bound) (hlo : 0 < lo) (hb : lo ≤ b) (hb' : 0 < b')
    (hhi : b' ≤ hi) (hgap : bound < n * (1 / (1000 * hi) - 1 / (1000 * lo))) :
    lat + n / (1000 * (b * r)) < n / (1000 * (b' * r)) := by
  have hhi0 : 0 < hi := lt_of_lt_of_le hb' hhi
  have hours : n / (1000 * (b * r)) ≤ n / (1000 * (lo * r)) := by
    gcongr
  have htheirs : n / (1000 * (hi * r)) ≤ n / (1000 * (b' * r)) := by
    gcongr
  -- The ratio makes the gap only larger.
  have hscale : bound < n / (1000 * (hi * r)) - n / (1000 * (lo * r)) :=
    calc bound < n * (1 / (1000 * hi) - 1 / (1000 * lo)) := hgap
      _ ≤ n * (1 / (1000 * hi) - 1 / (1000 * lo)) / r :=
        le_div_self (le_trans hbound hgap.le) hr hr1
      _ = n / (1000 * (hi * r)) - n / (1000 * (lo * r)) := by
        field_simp
  linarith

section
variable {nRanks nNodes : Int}

theorem ring_priceable (nNodes : Int) (proto : Nat) (hfew : nRanks ≤ 2 ^ 30) :
    Priceable mnnvl .ncclFuncAllReduce nRanks nNodes NCCL_ALGO_RING proto :=
  ⟨.inl ⟨rfl, .inl rfl⟩, fun _ _ => hfew⟩

theorem large_priceable (nNodes : Int) (hfew : nRanks ≤ 2 ^ 30) :
    Priceable mnnvl .ncclFuncAllReduce nRanks nNodes (largeAlgo nNodes) NCCL_PROTO_SIMPLE := by
  refine ⟨.inl ⟨rfl, ?_⟩, fun _ _ => hfew⟩
  unfold largeAlgo
  split
  · rename_i hone
    exact .inr (.inr (.inl ⟨rfl, rfl, hone⟩))
  · exact .inr (.inr (.inr ⟨rfl, rfl⟩))

/-- A ring costs at least its transfer. -/
theorem ring_price_ge (ht : Topology nRanks nNodes) (hfew : nRanks ≤ 2 ^ 30) (nBytes : Nat)
    (numPipeOps regBuff : Int) (proto : Nat) :
    nBytes / (1000 * (allReduceBusBw mnnvl nNodes NCCL_ALGO_RING proto * allReduceRatio nRanks)) ≤
      priceOf mnnvl .ncclFuncAllReduce nRanks nNodes nBytes numPipeOps regBuff NCCL_ALGO_RING
        proto := by
  have hcan := ring_priceable nNodes proto hfew
  have hlat := hcan.covered.latency_nonneg hcan.fits (profile_usable .mnnvl) ht regBuff
  have hcount : (0 : ℚ) ≤ latCount (NCCL_ALGO_RING = NCCL_ALGO_RING) numPipeOps := by
    exact_mod_cast le_trans (by decide) (one_le_latCount _ numPipeOps)
  unfold priceOf
  rw [cellBandwidth_allReduce ht hfew (.inl rfl)]
  exact le_add_of_nonneg_left (mul_nonneg hlat hcount)

/-- The latency of the cell for large messages, for all pipelined operations. -/
theorem large_latency_le (ht : Topology nRanks nNodes) (hfew : nRanks ≤ 2 ^ 30)
    (numPipeOps regBuff : Int) (bound : ℚ) (hbound : cellLatency mnnvl .ncclFuncAllReduce nRanks
      nNodes regBuff (largeAlgo nNodes) NCCL_PROTO_SIMPLE ≤ bound) :
    cellLatency mnnvl .ncclFuncAllReduce nRanks nNodes regBuff (largeAlgo nNodes)
      NCCL_PROTO_SIMPLE * latCount false numPipeOps ≤ bound * 2 ^ 29 := by
  have hcan := large_priceable nNodes hfew
  have hlat := hcan.covered.latency_nonneg hcan.fits (profile_usable .mnnvl) ht regBuff
  have hcount : (latCount false numPipeOps : ℚ) ≤ 2 ^ 29 := by
    exact_mod_cast latCount_le numPipeOps
  have hcount0 : (0 : ℚ) ≤ latCount false numPipeOps := by
    exact_mod_cast le_trans (by decide) (one_le_latCount _ numPipeOps)
  exact mul_le_mul hbound hcount hcount0 (hlat.trans hbound)

/-- From 2^62 bytes on the cell for large messages is cheaper than every ring. -/
theorem large_price_lt (ht : Topology nRanks nNodes) (hfew : nRanks ≤ 2 ^ 30) {nBytes : Nat}
    (hlarge : 2 ^ 62 ≤ nBytes) (numPipeOps regBuff : Int) {proto : Nat} (hproto : proto < 3) :
    priceOf mnnvl .ncclFuncAllReduce nRanks nNodes nBytes numPipeOps regBuff (largeAlgo nNodes)
        NCCL_PROTO_SIMPLE <
      priceOf mnnvl .ncclFuncAllReduce nRanks nNodes nBytes numPipeOps regBuff NCCL_ALGO_RING
        proto := by
  have hn : (2 ^ 62 : ℚ) ≤ nBytes := by exact_mod_cast hlarge
  have hn0 : (0 : ℚ) ≤ nBytes := Nat.cast_nonneg nBytes
  have hr := allReduceRatio_pos ht
  have hring : 0 < allReduceBusBw mnnvl nNodes NCCL_ALGO_RING proto := by
    have hcan := ring_priceable nNodes proto hfew
    have hbandwidth := hcan.covered.bandwidth_pos hcan.fits (profile_usable .mnnvl) ht
    rw [cellBandwidth_allReduce ht hfew (.inl rfl)] at hbandwidth
    exact pos_of_mul_pos_left hbandwidth hr.le
  refine lt_of_lt_of_le ?_ (ring_price_ge ht hfew nBytes numPipeOps regBuff proto)
  have halgo : largeAlgo nNodes = NCCL_ALGO_RING ∨ largeAlgo nNodes = NCCL_ALGO_NVLS ∨
      largeAlgo nNodes = NCCL_ALGO_NVLS_TREE := by
    unfold largeAlgo
    split
    · exact .inr (.inl rfl)
    · exact .inr (.inr rfl)
  have hcount : decide (largeAlgo nNodes = NCCL_ALGO_RING) = false := by
    unfold largeAlgo
    split
    · rfl
    · rfl
  unfold priceOf
  rw [cellBandwidth_allReduce ht hfew halgo, hcount]
  by_cases hone : nNodes = 1
  · subst hone
    exact price_gap hn0 hr (allReduceRatio_le_one ht)
      (large_latency_le ht hfew numPipeOps regBuff 42 (nvls_latency nRanks regBuff).le) (by norm_num)
      (by norm_num) nvls_busBw hring (ring_busBw_intra proto hproto) (by norm_num; linarith)
  · have htwo : 2 ≤ nNodes := by have := ht.nodes; omega
    have hlat := large_latency_le ht hfew numPipeOps regBuff 1800
    unfold largeAlgo at hlat ⊢
    rw [if_neg hone] at hlat ⊢
    exact price_gap hn0 hr (allReduceRatio_le_one ht)
      (hlat (nvlsTree_latency ht hfew regBuff)) (by norm_num)
      (by norm_num) (nvlsTree_busBw htwo) hring (ring_busBw_inter htwo proto hproto)
      (by norm_num; linarith)

end

/-- In the profile mnnvl NVLS and, between domains, NVLS_TREE beat every ring from some
size on, for as many ranks as the steps of an AllReduce fit into an int. -/
theorem nvls_wins_large_messages (nRanks nNodes : Int) (ht : Topology nRanks nNodes)
    (hfew : nRanks ≤ 2 ^ 30) (numPipeOps regBuff : Int) :
    ∃ size < 2 ^ 64, ∀ nBytes ≥ size, ∀ proto < NCCL_NUM_PROTOCOLS, ∃ t u : ℚ,
      cellPrice mnnvl .ncclFuncAllReduce nRanks nNodes nBytes numPipeOps regBuff
        (largeAlgo nNodes) NCCL_PROTO_SIMPLE = some t ∧
      cellPrice mnnvl .ncclFuncAllReduce nRanks nNodes nBytes numPipeOps regBuff NCCL_ALGO_RING
        proto = some u ∧ 0 ≤ t ∧ t < u := by
  have husable := profile_usable .mnnvl
  have hlarge := large_priceable nNodes hfew
  refine ⟨2 ^ 62, by decide, fun nBytes hbytes proto hproto => ?_⟩
  have hring := ring_priceable nNodes proto hfew
  exact ⟨_, _, hlarge.covered.price_eq hlarge.fits husable ht nBytes numPipeOps regBuff,
    hring.covered.price_eq hring.fits husable ht nBytes numPipeOps regBuff,
    hlarge.covered.price_nonneg hlarge.fits husable ht nBytes numPipeOps regBuff,
    large_price_lt ht hfew hbytes numPipeOps regBuff hproto⟩

/-- Four nodes of 64 ranks each. -/
theorem nvls_tree_wins_between_domains : ∃ size < 2 ^ 64, ∀ nBytes ≥ size,
    ∀ proto < NCCL_NUM_PROTOCOLS, ∃ t u : ℚ,
      cellPrice mnnvl .ncclFuncAllReduce 256 4 nBytes 1 0 NCCL_ALGO_NVLS_TREE NCCL_PROTO_SIMPLE =
        some t ∧
      cellPrice mnnvl .ncclFuncAllReduce 256 4 nBytes 1 0 NCCL_ALGO_RING proto = some u ∧
        0 ≤ t ∧ t < u :=
  nvls_wins_large_messages 256 4 ⟨by decide, by decide, by decide, by decide⟩ (by decide) 1 0

/-- With one rank more the number of steps overflows, and neither cell has a price. -/
theorem no_price_beyond_the_int : Topology (2 ^ 30 + 1) 1 ∧
    ¬∃ size : Nat, ∀ nBytes ≥ size, ∀ proto < NCCL_NUM_PROTOCOLS, ∃ t u : ℚ,
      cellPrice mnnvl .ncclFuncAllReduce (2 ^ 30 + 1) 1 nBytes 1 0 NCCL_ALGO_NVLS
        NCCL_PROTO_SIMPLE = some t ∧
      cellPrice mnnvl .ncclFuncAllReduce (2 ^ 30 + 1) 1 nBytes 1 0 NCCL_ALGO_RING proto =
        some u ∧ t < u := by
  have ht : Topology (2 ^ 30 + 1) 1 := ⟨by decide, by decide, by decide, by decide⟩
  have hunpriced : ∀ algo ≠ NCCL_ALGO_TREE, ∀ nBytes proto,
      cellPrice mnnvl .ncclFuncAllReduce (2 ^ 30 + 1) 1 nBytes 1 0 algo proto =
        some (-1 : ℚ) := by
    intro algo htree nBytes proto
    refine not_priceable_price (.inl rfl) (fun hcan => ?_) (profile_usable .mnnvl) ht nBytes 1 0
    exact absurd (hcan.fits rfl htree) (by decide)
  refine ⟨ht, ?_⟩
  rintro ⟨size, hall⟩
  obtain ⟨t, u, h1, h2, hlt⟩ := hall size (Nat.le_refl size) NCCL_PROTO_SIMPLE (by decide)
  rw [hunpriced _ (by decide)] at h1 h2
  cases h1
  cases h2
  exact lt_irrefl _ hlt

end tuner.plugin
