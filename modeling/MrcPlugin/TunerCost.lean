-- The cost model of the tuner (tuner/plugin.c): the parameters of the two profiles and
-- the predicted time of a cell. The types double and float are parameters; the integers
-- are the ints of the source, which wrap.
import MrcPlugin.TunerConfig

namespace tuner.plugin

open net_ib

/-! ## Doubles and floats -/

/-- What the tuner uses of `double`. -/
class Double (D : Type) extends Add D, Mul D, Div D, Neg D, OfScientific D where
  ofInt : Int → D
  lt : D → D → Bool
  le : D → D → Bool
  strtod : List Char → Option D

export Double (ofInt)

/-- What the tuner uses of `float`: the cast from `double`, the comparisons of a cell with
`NCCL_ALGO_PROTO_IGNORE` and with 0, the cost of a pinned cell and
`COST_MODEL_DISABLED_COST`. -/
class CostFloat (D F : Type) where
  ofDouble : D → F
  ignored : F → Bool
  negative : F → Bool
  zero : F
  disabled : F

/-! ## Parameters -/

def NCCL_HW_NVLINK : Nat := 0
def NCCL_HW_NET : Nat := 2

/-- `CostModelParams`. Of its fields `gpusPerNode` is read nowhere. -/
structure CostModelParams (D : Type) where
  nChannels : Int
  bwIntra : D
  bwInter : D
  nvlsEfficiency : D
  graphLatencyInter : D
  baseLatencies : Nat → Nat → D
  hwLatencies : Nat → Nat → Nat → D
  llMaxBw : Nat → D
  perChMaxRingLL128Bw : Nat → D
  perChMaxTreeBw : Nat → D
  perChMaxTreeLL128Bw : Nat → D
  perChMaxNVLSTreeBw : Nat → D
  ringBwCapInter : D
  ringBwCapIntra : D
  patBwEff : D
  patLatPerRank : D
  arRegLatScale : Nat → Nat → D
  agRegLatScale : Nat → Nat → D
  disableUnmodeledCells : Int

variable {D F : Type} [Double D]

/-- Arrays of one, two and three dimensions; what is not given is 0. -/
def cell1 (row : List D) (i : Nat) : D := row.getD i 0.0

def cell2 (rows : List (List D)) (i j : Nat) : D := cell1 (rows.getD i []) j

def cell3 (tables : List (List (List D))) (i j k : Nat) : D := cell2 (tables.getD i []) j k

/-- The parameters after `memset`. -/
def zeroParams : CostModelParams D where
  nChannels := 0
  bwIntra := 0.0
  bwInter := 0.0
  nvlsEfficiency := 0.0
  graphLatencyInter := 0.0
  baseLatencies := cell2 []
  hwLatencies := cell3 []
  llMaxBw := cell1 []
  perChMaxRingLL128Bw := cell1 []
  perChMaxTreeBw := cell1 []
  perChMaxTreeLL128Bw := cell1 []
  perChMaxNVLSTreeBw := cell1 []
  ringBwCapInter := 0.0
  ringBwCapIntra := 0.0
  patBwEff := 0.0
  patLatPerRank := 0.0
  arRegLatScale := cell2 []
  agRegLatScale := cell2 []
  disableUnmodeledCells := 0

/-- The profile `mnnvl`. -/
def gb200fParamsDefault : CostModelParams D where
  nChannels := 32
  bwIntra := 20.29
  bwInter := 28.19
  nvlsEfficiency := 0.4674
  graphLatencyInter := 0.0
  baseLatencies := cell2
    [[9.025, 27.0, 20.83], [16.40, 20.29, 6.237],
     [0.0, 0.0, 0.0], [0.0, 0.0, 0.0], [0.0, 0.0, 70.78],
     [0.0, 0.0, 102.0], [8.0, 8.0, 8.0]]
  hwLatencies := cell3
    [[[1.402, 1.393, 5.703], [0.8647, 1.546, 6.224],
      [0.0, 0.0, 0.0], [0.0, 0.0, 0.0], [0.0, 0.0, 42.0],
      [0.0, 0.0, 39.36], [0.0, 0.0, 4.0]],
     [[1.0, 1.9, 4.0], [1.0, 2.5, 5.7],
      [0.0, 0.0, 0.0], [0.0, 0.0, 0.0], [0.0, 0.0, 0.0],
      [0.0, 0.0, 0.0], [0.0, 0.0, 4.0]],
     [[22.41, 20.91, 25.16], [267.7, 281.0, 530.8],
      [0.0, 0.0, 31.0], [0.0, 0.0, 30.0], [0.0, 0.0, 38.83],
      [0.0, 0.0, 27.59], [0.0, 0.0, 14.0]]]
  llMaxBw := cell1 [204.6, 134.1, 120.5]
  perChMaxRingLL128Bw := cell1 [124.9, 175.2, 16.35]
  perChMaxTreeBw := cell1 [222.7, 206.4, 17.59]
  perChMaxTreeLL128Bw := cell1 [56.54, 38.33, 64.31]
  perChMaxNVLSTreeBw := cell1 [55.62, 145.7, 137.3]
  ringBwCapInter := 16.0
  ringBwCapIntra := 17.5
  patBwEff := 0.0
  patLatPerRank := 0.0
  arRegLatScale := cell2 []
  agRegLatScale := cell2 []
  disableUnmodeledCells := 0

/-- The profile `rail_nop2p`. -/
def railNoP2pParamsDefault : CostModelParams D where
  nChannels := 32
  bwIntra := 4.29211
  bwInter := 4.29211
  nvlsEfficiency := 0.4674
  graphLatencyInter := 0.0
  baseLatencies := cell2
    [[20.6679, 26.3192, 25.6124], [1.91189e-09, 2.05101e-08, 1.09204e-10],
     [0.0, 0.0, 0.0], [0.0, 0.0, 0.0], [0.0, 0.0, 0.0],
     [0.0, 0.0, 0.0], [8.0, 8.0, 32.5934]]
  hwLatencies := cell3
    [[[5.0, 8.5, 14.0], [2.7, 4.0, 14.0],
      [0.0, 0.0, 0.0], [0.0, 0.0, 0.0], [0.0, 0.0, 25.0],
      [0.0, 0.0, 25.0], [0.0, 0.0, 4.0]],
     [[1.0, 1.9, 4.0], [1.0, 2.5, 5.7],
      [0.0, 0.0, 3.7], [0.0, 0.0, 2.8], [0.0, 0.0, 0.0],
      [0.0, 0.0, 0.0], [0.0, 0.0, 4.0]],
     [[10.1576, 10.7845, 17.4627], [2.7, 4.0, 14.0],
      [0.0, 0.0, 31.0], [0.0, 0.0, 30.0], [0.0, 0.0, 18.0],
      [0.0, 0.0, 20.9], [0.0, 0.0, 6.64092]]]
  llMaxBw := cell1 [282.0, 90.0, 4.99782]
  perChMaxRingLL128Bw := cell1 [40.0, 40.0, 5.8313]
  perChMaxTreeBw := cell1 [70.0, 42.8, 2.1473]
  perChMaxTreeLL128Bw := cell1 [55.6, 31.67, 0.890063]
  perChMaxNVLSTreeBw := cell1 [55.62, 145.7, 137.3]
  ringBwCapInter := 0.0
  ringBwCapIntra := 0.0
  patBwEff := 0.468895
  patLatPerRank := 1.13602
  arRegLatScale := cell2
    [[1.0, 1.0, 1.0], [1.0, 1.0, 1.0],
     [1.0, 1.0, 1.0], [1.0, 1.0, 1.0], [1.0, 1.0, 1.0],
     [1.0, 1.0, 1.0], [1.0, 1.0, 1.0]]
  agRegLatScale := cell2
    [[1.0, 1.0, 1.0], [1.0, 1.0, 2.0],
     [1.0, 1.0, 1.0], [1.0, 1.0, 1.0], [1.0, 1.0, 1.0],
     [1.0, 1.0, 1.0], [1.0, 1.0, 1.0]]
  disableUnmodeledCells := 1

/-! ## Bandwidth -/

/-- `costLog2i`. -/
def costLog2i (n : Int) : Int := Nat.log2 n.toNat

def perChannelBw (P : CostModelParams D) (algo proto scale : Nat) (nNodes nChannels : Int)
    (nvlsPipelineFactor : D) : D :=
  let bw := if nNodes < 2 then P.bwIntra else P.bwInter
  let bw := if algo = NCCL_ALGO_RING ∧ nNodes ≥ 2 ∧ Double.lt 0.0 P.ringBwCapInter ∧
    Double.lt P.ringBwCapInter bw then P.ringBwCapInter else bw
  if algo = NCCL_ALGO_NVLS ∨ algo = NCCL_ALGO_NVLS_TREE then
    if proto ≠ NCCL_PROTO_SIMPLE then -1.0
    else if nChannels < 2 then -1.0
    else
      let intraBw := P.bwIntra * P.nvlsEfficiency * ofInt (nChannels - 1) / ofInt nChannels
      let intraBw := intraBw * nvlsPipelineFactor
      let interBw := P.bwInter * (if nNodes ≤ 2 ∧ algo = NCCL_ALGO_NVLS_TREE then 2.0 else 1.0)
      let nvlsCap := if algo = NCCL_ALGO_NVLS_TREE then P.perChMaxNVLSTreeBw scale else 1e30
      let bw := intraBw
      let bw := if Double.lt interBw bw then interBw else bw
      if Double.lt nvlsCap bw then nvlsCap else bw
  else bw

/-- The smaller of a cap and a candidate, as the source compares them. -/
def capped (cap cand : D) : D := if Double.lt cap cand then cap else cand

def applyProtocolCap (busBw : D) (algo proto : Nat) (P : CostModelParams D) (scale : Nat)
    (nNodes nChannels : Int) : D :=
  if algo = NCCL_ALGO_RING ∧ proto = NCCL_PROTO_LL then
    capped (P.llMaxBw scale) (busBw * 0.5)
  else if algo = NCCL_ALGO_RING ∧ proto = NCCL_PROTO_LL128 then
    capped (ofInt nChannels * P.perChMaxRingLL128Bw scale) (busBw * 0.78)
  else if algo = NCCL_ALGO_TREE then
    let busBw := capped (ofInt nChannels * P.perChMaxTreeBw scale) (busBw * 0.92)
    if proto = NCCL_PROTO_LL then capped (P.llMaxBw scale) (busBw / 3.8)
    else if proto = NCCL_PROTO_LL128 then
      let factor : D := if nNodes = 1 then 7.0 / 9.0 else 120.0 / 128.0
      capped (ofInt nChannels * P.perChMaxTreeLL128Bw scale) (busBw * factor)
    else busBw
  else busBw

def busBwToAlgoBw (busBw : D) (algo : Nat) (coll : NcclFunc) (nRanks : Int) : D :=
  if nRanks ≤ 1 then busBw
  else
    match coll with
    | .ncclFuncAllReduce =>
      if algo = NCCL_ALGO_RING ∨ algo = NCCL_ALGO_NVLS ∨ algo = NCCL_ALGO_NVLS_TREE then
        busBw * (ofInt nRanks / ofInt (i32 (2 * (nRanks - 1))))
      else if algo = NCCL_ALGO_TREE then busBw * 0.5
      else -1.0
    | .ncclFuncAllGather | .ncclFuncReduceScatter =>
      if algo = NCCL_ALGO_RING ∨ algo = NCCL_ALGO_NVLS then
        busBw * (ofInt nRanks / ofInt (nRanks - 1))
      else -1.0
    | _ => -1.0

/-! ## Latency -/

/-- `algoLatency`, with the numbers of steps of the collective. -/
def algoLatency (P : CostModelParams D) (algo proto : Nat) (coll : NcclFunc)
    (nRanks nNodes ppn : Int) : D :=
  let baseLat := P.baseLatencies algo proto
  let intraLat := P.hwLatencies NCCL_HW_NVLINK algo proto
  let algoForNet := if ppn = 1 then NCCL_ALGO_TREE else algo
  let interLat := P.hwLatencies NCCL_HW_NET algoForNet proto + P.graphLatencyInter
  let interLat := if proto = NCCL_PROTO_SIMPLE then interLat + P.graphLatencyInter else interLat
  let steps : Option (Int × Int) :=
    match coll with
    | .ncclFuncAllReduce =>
      some (i32 (2 * (nRanks - 1)), if nNodes = 1 then 0 else i32 (2 * (nNodes - 1)))
    | .ncclFuncAllGather | .ncclFuncReduceScatter =>
      some (nRanks - 1, if nNodes = 1 then 0 else nNodes - 1)
    | _ => none
  match steps with
  | none => -1.0
  | some (nsteps, nInter) =>
    if algo = NCCL_ALGO_RING then
      baseLat + (ofInt (i32 (nsteps - nInter)) * intraLat + ofInt nInter * interLat)
    else if algo = NCCL_ALGO_TREE ∧ coll = .ncclFuncAllReduce then
      baseLat + 2.0 * (ofInt (ppn - 1) * intraLat + ofInt (costLog2i nNodes) * interLat)
    else if algo = NCCL_ALGO_NVLS then
      if nNodes > 1 then intraLat + interLat else intraLat
    else if algo = NCCL_ALGO_NVLS_TREE ∧ coll = .ncclFuncAllReduce then
      baseLat + (intraLat + 2.0 * ofInt (costLog2i nNodes) * interLat)
    else -1.0

def regLatScaleFor (P : CostModelParams D) (coll : NcclFunc) (algo proto : Nat) (regBuff : Int) :
    D :=
  if regBuff = 0 then 1.0
  else
    match coll with
    | .ncclFuncAllReduce =>
      if Double.lt 0.0 (P.arRegLatScale algo proto) then P.arRegLatScale algo proto else 1.0
    | .ncclFuncAllGather =>
      if Double.lt 0.0 (P.agRegLatScale algo proto) then P.agRegLatScale algo proto else 1.0
    | _ => 1.0

/-! ## The time of a cell -/

/-- `nRanks / nNodes` of the source; `none` is a division by zero. -/
def divInt (a b : Int) : Option Int := if b = 0 then none else some (a.tdiv b)

def tuningScale (nNodes : Int) : Nat := if nNodes ≤ 1 then 0 else if nNodes ≤ 2 then 1 else 2

/-- The latency count of a call, at least 1. -/
def latCount (ring : Bool) (numPipeOps : Int) : Int :=
  let count := if ring then numPipeOps else (i32 (numPipeOps + 3)).tdiv 4
  if count < 1 then 1 else count

/-- The last lines of the `compute` functions: bandwidth and latency give the time. -/
def cellTime [CostFloat D F] (lat algoBw : D) (count : Int) (nBytes : Nat) : F :=
  CostFloat.ofDouble (lat * ofInt count + ofInt nBytes / (1000.0 * algoBw))

/-- The part that `computeAllReduceTime` and `computeAllGatherOrRSTime` share, from the
bus bandwidth on. -/
def timeFromBusBw [CostFloat D F] (P : CostModelParams D) (coll : NcclFunc) (algo proto : Nat)
    (nBytes : Nat) (numPipeOps regBuff nRanks nNodes ppn : Int) (busBw : D) : F :=
  let busBw := applyProtocolCap busBw algo proto P (tuningScale nNodes) nNodes P.nChannels
  let algoBw := busBwToAlgoBw busBw algo coll nRanks
  if Double.le algoBw 0.0 then CostFloat.ofDouble (-1.0 : D)
  else
    let lat := algoLatency P algo proto coll nRanks nNodes ppn
    if Double.lt lat 0.0 then CostFloat.ofDouble (-1.0 : D)
    else
      cellTime (lat * regLatScaleFor P coll algo proto regBuff) algoBw
        (latCount (algo = NCCL_ALGO_RING) numPipeOps) nBytes

/-- `computeAllReduceTime`; `nRanks` and `nNodes` are the ints of the context. -/
def computeAllReduceTime [CostFloat D F] (P : CostModelParams D) (nRanks nNodes : Int)
    (algo proto nBytes : Nat) (numPipeOps regBuff : Int) : Option F :=
  if nRanks ≤ 1 then some (CostFloat.ofDouble (0.0 : D))
  else
    (divInt nRanks nNodes).map fun ppn =>
      if algo = NCCL_ALGO_NVLS ∧ nNodes > 1 then CostFloat.ofDouble (-1.0 : D)
      else
        let bw := perChannelBw P algo proto (tuningScale nNodes) nNodes P.nChannels 2.0
        if Double.lt bw 0.0 then CostFloat.ofDouble (-1.0 : D)
        else
          let bw := if algo = NCCL_ALGO_RING ∧ proto = NCCL_PROTO_SIMPLE ∧ nNodes = 1 ∧
            Double.lt 0.0 P.ringBwCapIntra ∧ Double.lt P.ringBwCapIntra bw then P.ringBwCapIntra
            else bw
          timeFromBusBw P .ncclFuncAllReduce algo proto nBytes numPipeOps regBuff nRanks nNodes ppn
            (ofInt P.nChannels * bw)

/-- The PAT branch of `computeAllGatherOrRSTime`. -/
def patTime [CostFloat D F] (P : CostModelParams D) (coll : NcclFunc) (nRanks nNodes : Int)
    (proto nBytes : Nat) (numPipeOps regBuff : Int) : F :=
  if Double.le P.patBwEff 0.0 ∨ proto ≠ NCCL_PROTO_SIMPLE ∨ nNodes ≠ nRanks then
    CostFloat.ofDouble (-1.0 : D)
  else
    let perCh := if nNodes < 2 then P.bwIntra else P.bwInter
    let busBw := ofInt P.nChannels * perCh * P.patBwEff
    if Double.le busBw 0.0 then CostFloat.ofDouble (-1.0 : D)
    else
      let stepLat := P.hwLatencies NCCL_HW_NET NCCL_ALGO_PAT proto + 2.0 * P.graphLatencyInter
      let lat := P.baseLatencies NCCL_ALGO_PAT proto + ofInt (costLog2i nNodes) * stepLat +
        ofInt nRanks * P.patLatPerRank
      cellTime (lat * regLatScaleFor P coll NCCL_ALGO_PAT proto regBuff) busBw
        (latCount false numPipeOps) nBytes

/-- `computeAllGatherOrRSTime`. -/
def computeAllGatherOrRSTime [CostFloat D F] (P : CostModelParams D) (coll : NcclFunc)
    (nRanks nNodes : Int) (algo proto nBytes : Nat) (numPipeOps regBuff : Int) : Option F :=
  if nRanks ≤ 1 then some (CostFloat.ofDouble (0.0 : D))
  else
    (divInt nRanks nNodes).map fun ppn =>
      if algo = NCCL_ALGO_PAT then patTime P coll nRanks nNodes proto nBytes numPipeOps regBuff
      else if algo = NCCL_ALGO_NVLS ∧ nNodes > 1 then CostFloat.ofDouble (-1.0 : D)
      else if algo = NCCL_ALGO_TREE ∨ algo = NCCL_ALGO_NVLS_TREE then
        CostFloat.ofDouble (-1.0 : D)
      else
        let bw := perChannelBw P algo proto (tuningScale nNodes) nNodes P.nChannels 1.0
        if Double.lt bw 0.0 then CostFloat.ofDouble (-1.0 : D)
        else
          timeFromBusBw P coll algo proto nBytes numPipeOps regBuff nRanks nNodes ppn
            (ofInt P.nChannels * bw)

end tuner.plugin
