-- The tuner plugin (tuner/plugin.c): the context that its init builds from environment,
-- config file and topology, and how a call of getCollInfo resolves: a rule, the cost
-- model, or nothing.
import MrcPlugin.TunerCost

namespace tuner.plugin

open ctext net_ib

/-! ## Environment -/

/-- `getenv`. -/
abbrev Env := String → Option (List Char)

variable {D F : Type} [Double D] [CostFloat D F]

/-- The common shape of `getEnvDouble` and `getEnvInt`: unset, empty and unreadable
values give the default. -/
def getEnv {α : Type} (parse : List Char → Option α) (env : Env) (name : String) (default : α) : α :=
  match env name with
  | none => default
  | some s => if s = [] then default else (parse s).getD default

def getEnvDouble (env : Env) (name : String) (default : D) : D :=
  getEnv Double.strtod env name default

def getEnvInt (env : Env) (name : String) (default : Int) : Int :=
  getEnv (fun s => (strtol s).map i32) env name default

def envEquals (env : Env) (name value : String) : Bool :=
  match env name with
  | none => false
  | some s => strcasecmp s value.toList

/-! ## Profiles -/

/-- The cost-model profiles, which the source keeps by their names. -/
inductive Profile
  | mnnvl
  | rail_nop2p
deriving DecidableEq, Repr

def Profile.name : Profile → List Char
  | .mnnvl => "mnnvl".toList
  | .rail_nop2p => "rail_nop2p".toList

def mnnvlParamsValidated : Bool := false

def railNoP2pParamsValidated : Bool := true

def costModelProfileCanonicalName (name : List Char) : Option Profile :=
  if strcasecmp name Profile.mnnvl.name then some .mnnvl
  else if strcasecmp name Profile.rail_nop2p.name then some .rail_nop2p
  else none

def costModelProfileParams : Profile → CostModelParams D
  | .mnnvl => gb200fParamsDefault
  | .rail_nop2p => railNoP2pParamsDefault

def costModelProfileValidated : Profile → Bool
  | .mnnvl => mnnvlParamsValidated
  | .rail_nop2p => railNoP2pParamsValidated

/-- The automatic part of `selectCostModelProfile`. -/
def autoProfile (env : Env) (nNodes : Nat) : Option Profile :=
  let profile : Profile :=
    if nNodes > 1 ∧ envEquals env "NCCL_MNNVL_ENABLE" "0" ∧ envEquals env "NCCL_P2P_DISABLE" "1"
    then .rail_nop2p else .mnnvl
  if costModelProfileValidated profile then some profile else none

def selectCostModelProfile (env : Env) (nNodes : Nat) : Option Profile :=
  match env "NCCL_TUNER_COST_MODEL_PROFILE" with
  | none => autoProfile env nNodes
  | some req =>
    if req ≠ [] ∧ !strcasecmp req "auto".toList then
      match costModelProfileCanonicalName req with
      | some profile => some profile
      | none => autoProfile env nNodes
    else autoProfile env nNodes

/-! ## The context -/

/-- `TunerContext`, without what only the log reads. -/
structure TunerContext (D : Type) where
  configs : List TuningConfig
  nRanks : Nat
  nNodes : Nat
  useCostModel : Int
  forceCostModel : Int
  costModel : CostModelParams D
  costModelProfile : Option Profile

/-- `initCostModel`. -/
def initCostModel (env : Env) (ctx : TunerContext D) : TunerContext D :=
  let profile := selectCostModelProfile env ctx.nNodes
  let useCostModel := getEnvInt env "NCCL_TUNER_COST_MODEL" 1
  let forceCostModel := getEnvInt env "NCCL_TUNER_FORCE_COST_MODEL" 0
  match profile with
  | none =>
    { ctx with
      costModelProfile := none
      costModel := zeroParams
      useCostModel := 0
      forceCostModel := 0 }
  | some profile =>
    let params : CostModelParams D := costModelProfileParams profile
    { ctx with
      costModelProfile := some profile
      useCostModel := if forceCostModel ≠ 0 then 1 else useCostModel
      forceCostModel := forceCostModel
      costModel :=
        { params with
          nChannels := getEnvInt env "NCCL_TUNER_COST_MODEL_CHANNELS" params.nChannels
          bwIntra := getEnvDouble env "NCCL_TUNER_COST_MODEL_BW_INTRA" params.bwIntra
          bwInter := getEnvDouble env "NCCL_TUNER_COST_MODEL_BW_INTER" params.bwInter
          nvlsEfficiency :=
            getEnvDouble env "NCCL_TUNER_COST_MODEL_NVLS_EFF" params.nvlsEfficiency
          graphLatencyInter :=
            getEnvDouble env "NCCL_TUNER_COST_MODEL_GRAPH_LAT" params.graphLatencyInter } }

/-- The name of the config file. -/
def configFile (env : Env) : List Char :=
  (env "NCCL_TUNER_CONFIG_FILE").getD "nccl_tuner.conf".toList

/-- `pluginInit`; `files` is what `fopen` finds, and `allocated` whether there is memory
for the context. -/
def pluginInit (env : Env) (files : List Char → Option (List Char)) (allocated : Bool)
    (malloc : Nat → Bool) (nRanks nNodes : Nat) : Except NcclResult (TunerContext D) :=
  let ctx : TunerContext D := initCostModel env
    { configs := []
      nRanks := nRanks
      nNodes := nNodes
      useCostModel := 0
      forceCostModel := 0
      costModel := zeroParams
      costModelProfile := none }
  if !allocated then .error ncclSystemError
  else
    match loadConfig malloc (files (configFile env)) with
    | .error res => .error res
    | .ok configs => .ok { ctx with configs := configs }

/-! ## The cost table -/

/-- The table of NCCL, `float[numAlgo][numProto]`. -/
abbrev CostTable (F : Type) := Nat → Nat → F

def CostTable.set (table : CostTable F) (algo proto : Nat) (cost : F) : CostTable F :=
  fun a p => if a = algo ∧ p = proto then cost else table a p

/-- The loop state of `applyCostModelGeneric`. -/
structure Priced (F : Type) where
  table : CostTable F
  populated : Nat := 0
  unpriced : List Nat := []

/-- One turn of the loop over the cells. `none` is a division by zero. -/
def priceCell (D : Type) {F : Type} [CostFloat D F] (compute : Nat → Nat → Option F)
    (s : Priced F) (cell : Nat × Nat) : Option (Priced F) :=
  if CostFloat.ignored D (s.table cell.1 cell.2) then some s
  else
    (compute cell.1 cell.2).map fun t =>
      if CostFloat.negative D t then
        { s with unpriced := s.unpriced ++ [cell.1 * NCCL_NUM_PROTOCOLS + cell.2] }
      else
        { s with
          table := s.table.set cell.1 cell.2 t
          populated := s.populated + 1 }

/-- The cells of the two loops, in order. -/
def tableCells (numAlgo numProto : Int) : List (Nat × Nat) :=
  (List.range (min numAlgo NCCL_NUM_ALGORITHMS).toNat).flatMap fun a =>
    (List.range (min numProto NCCL_NUM_PROTOCOLS).toNat).map fun p => (a, p)

/-- `applyCostModelGeneric`: the table after it. -/
def applyCostModelGeneric (ctx : TunerContext D) (compute : Nat → Nat → Option F)
    (table : CostTable F) (numAlgo numProto : Int) : Option (CostTable F) :=
  ((tableCells numAlgo numProto).foldlM (priceCell D compute) { table }).map fun s =>
    if s.populated > 0 ∧ ctx.costModel.disableUnmodeledCells ≠ 0 then
      s.unpriced.foldl (fun table i => table.set (i / NCCL_NUM_PROTOCOLS) (i % NCCL_NUM_PROTOCOLS)
        (CostFloat.disabled D)) s.table
    else s.table

/-! ## A call -/

/-- The arguments of a call, except for the table and the channels. -/
structure CollCall where
  collType : NcclFunc
  nBytes : Nat
  numPipeOps : Int
  numAlgo : Int
  numProto : Int
  regBuff : Int
deriving DecidableEq, Repr

/-- The condition of the loop over the rules. -/
def matchesConfig (ctx : TunerContext D) (call : CollCall) (config : TuningConfig) : Bool :=
  config.collType = call.collType ∧ call.nBytes ≥ config.minBytes ∧
    call.nBytes ≤ config.maxBytes ∧
    (config.nNodes = -1 ∨ config.nNodes = i32 ctx.nNodes) ∧
    (config.nRanks = -1 ∨ config.nRanks = i32 ctx.nRanks) ∧
    (config.numPipeOps = -1 ∨ config.numPipeOps = call.numPipeOps) ∧
    (config.regBuff = -1 ∨ config.regBuff = call.regBuff)

/-- The loop over the rules: the table and the channels when a rule is applied. -/
def applyConfigs (ctx : TunerContext D) (call : CollCall) (table : CostTable F) (nChannels : Int) :
    List TuningConfig → Option (CostTable F × Int)
  | [] => none
  | config :: configs =>
    if matchesConfig ctx call config ∧ config.algorithm < call.numAlgo ∧
        config.protocol < call.numProto ∧
        !CostFloat.ignored D (table config.algorithm config.protocol) then
      some (table.set config.algorithm config.protocol (CostFloat.zero D),
        if config.nChannels ≠ -1 then config.nChannels else nChannels)
    else applyConfigs ctx call table nChannels configs

/-- `pluginGetCollInfo`: its result, the table and `*nChannels`. A call that divides by
zero does not return. -/
def pluginGetCollInfo (context : Option (TunerContext D)) (call : CollCall)
    (table : CostTable F) (nChannels : Int) : Option (NcclResult × CostTable F × Int) :=
  match context with
  | none => some (ncclInternalError, table, nChannels)
  | some ctx =>
    let rule := if ctx.forceCostModel ≠ 0 then none
      else applyConfigs ctx call table nChannels ctx.configs
    match rule with
    | some (table, nChannels) => some (ncclSuccess, table, nChannels)
    | none =>
      if ctx.useCostModel = 0 then some (ncclSuccess, table, nChannels)
      else
        let nRanks := i32 ctx.nRanks
        let nNodes := i32 ctx.nNodes
        let compute : Option (Nat → Nat → Option F) :=
          match call.collType with
          | .ncclFuncAllReduce => some fun a p =>
            computeAllReduceTime ctx.costModel nRanks nNodes a p call.nBytes call.numPipeOps
              call.regBuff
          | .ncclFuncAllGather => some fun a p =>
            computeAllGatherOrRSTime ctx.costModel .ncclFuncAllGather nRanks nNodes a p call.nBytes
              call.numPipeOps call.regBuff
          | .ncclFuncReduceScatter => some fun a p =>
            computeAllGatherOrRSTime ctx.costModel .ncclFuncReduceScatter nRanks nNodes a p
              call.nBytes call.numPipeOps call.regBuff
          | _ => none
        match compute with
        | none => some (ncclSuccess, table, nChannels)
        | some compute =>
          (applyCostModelGeneric ctx compute table call.numAlgo call.numProto).map fun table =>
            (ncclSuccess, table, nChannels)

end tuner.plugin
