-- The CSV rules of the tuner (tuner/plugin.c): the names, one line, and the two passes
-- over the file, of which the first counts lines and the second reads rules.
import MrcPlugin.Basic
import MrcPlugin.Lib.CText

namespace tuner.plugin

open ctext net_ib

/-! ## Names -/

/-- `ncclFunc_t`. -/
inductive NcclFunc
  | ncclFuncBroadcast
  | ncclFuncReduce
  | ncclFuncAllGather
  | ncclFuncReduceScatter
  | ncclFuncAllReduce
  | ncclFuncSendRecv
  | ncclFuncSend
  | ncclFuncRecv
deriving DecidableEq, Repr

def NCCL_NUM_ALGORITHMS : Nat := 7
def NCCL_ALGO_TREE : Nat := 0
def NCCL_ALGO_RING : Nat := 1
def NCCL_ALGO_COLLNET_DIRECT : Nat := 2
def NCCL_ALGO_COLLNET_CHAIN : Nat := 3
def NCCL_ALGO_NVLS : Nat := 4
def NCCL_ALGO_NVLS_TREE : Nat := 5
def NCCL_ALGO_PAT : Nat := 6

def NCCL_NUM_PROTOCOLS : Nat := 3
def NCCL_PROTO_LL : Nat := 0
def NCCL_PROTO_LL128 : Nat := 1
def NCCL_PROTO_SIMPLE : Nat := 2

/-- The `parse` functions: the value of the first name that is equal to the text up to
case, or the default. -/
def parseName {α : Type} (names : List (List Char × α)) (default : α) (str : List Char) : α :=
  match names.find? (fun name => strcasecmp str name.1) with
  | some name => name.2
  | none => default

def collTypeNames : List (List Char × NcclFunc) :=
  [("broadcast".toList, .ncclFuncBroadcast), ("reduce".toList, .ncclFuncReduce),
    ("allgather".toList, .ncclFuncAllGather), ("reducescatter".toList, .ncclFuncReduceScatter),
    ("allreduce".toList, .ncclFuncAllReduce)]

def algorithmNames : List (List Char × Nat) :=
  [("tree".toList, NCCL_ALGO_TREE), ("ring".toList, NCCL_ALGO_RING),
    ("collnet_direct".toList, NCCL_ALGO_COLLNET_DIRECT),
    ("collnet_chain".toList, NCCL_ALGO_COLLNET_CHAIN), ("nvls".toList, NCCL_ALGO_NVLS),
    ("nvls_tree".toList, NCCL_ALGO_NVLS_TREE), ("pat".toList, NCCL_ALGO_PAT)]

def protocolNames : List (List Char × Nat) :=
  [("ll".toList, NCCL_PROTO_LL), ("ll128".toList, NCCL_PROTO_LL128),
    ("simple".toList, NCCL_PROTO_SIMPLE)]

def parseCollType (str : List Char) : NcclFunc := parseName collTypeNames .ncclFuncAllReduce str

def parseAlgorithm (str : List Char) : Nat := parseName algorithmNames NCCL_ALGO_RING str

def parseProtocol (str : List Char) : Nat := parseName protocolNames NCCL_PROTO_SIMPLE str

/-! ## One line -/

def MAX_LINE_LENGTH : Nat := 256

def CONFIG_FIELD_COLLTYPE : Nat := 0
def CONFIG_FIELD_MINBYTES : Nat := 1
def CONFIG_FIELD_MAXBYTES : Nat := 2
def CONFIG_FIELD_ALGORITHM : Nat := 3
def CONFIG_FIELD_PROTOCOL : Nat := 4
def CONFIG_FIELD_CHANNELS : Nat := 5
def CONFIG_FIELD_NNODES : Nat := 6
def CONFIG_FIELD_NRANKS : Nat := 7
def CONFIG_FIELD_PIPEOPS : Nat := 8
def CONFIG_FIELD_REGBUFF : Nat := 9
def CONFIG_FIELDS_REQUIRED : Nat := 8
def CONFIG_FIELDS_WITH_PIPEOPS : Nat := 9
def CONFIG_FIELDS_WITH_REGBUFF : Nat := 10
def CONFIG_FIELDS_MAX : Nat := 10

structure TuningConfig where
  collType : NcclFunc
  minBytes : Nat
  maxBytes : Nat
  algorithm : Nat
  protocol : Nat
  nChannels : Int
  nNodes : Int
  nRanks : Int
  numPipeOps : Int
  regBuff : Int
deriving DecidableEq, Repr

/-- `sizeof(TuningConfig)`. -/
def sizeofTuningConfig : Int := 56

def isBlank (c : Char) : Bool := c = ' ' || c = '\t'

/-- The trimming of a token, in place: the blanks before it, and those after it down to
its first character. -/
def trim (token : List Char) : List Char :=
  match token.dropWhile isBlank with
  | [] => []
  | c :: cs => c :: cs.rdropWhile isBlank

/-- The lines that both passes skip: comments and lines with nothing before the LF. -/
def skips (line : List Char) : Bool := line.head? = some '#' || line.head? = some '\n'

/-- The rule of a line, if it has enough fields. A line fits into `lineCopy`. -/
def parseLine (line : List Char) : Option TuningConfig :=
  let fields := (tokens ',' CONFIG_FIELDS_MAX (cutLine line)).map trim
  let field := fun i => fields.getD i []
  if CONFIG_FIELDS_REQUIRED ≤ fields.length ∧ fields.length ≤ CONFIG_FIELDS_MAX then
    some
      { collType := parseCollType (field CONFIG_FIELD_COLLTYPE)
        minBytes := strtoull (field CONFIG_FIELD_MINBYTES)
        maxBytes := strtoull (field CONFIG_FIELD_MAXBYTES)
        algorithm := parseAlgorithm (field CONFIG_FIELD_ALGORITHM)
        protocol := parseProtocol (field CONFIG_FIELD_PROTOCOL)
        nChannels := atoi (field CONFIG_FIELD_CHANNELS)
        nNodes := atoi (field CONFIG_FIELD_NNODES)
        nRanks := atoi (field CONFIG_FIELD_NRANKS)
        numPipeOps := if CONFIG_FIELDS_WITH_PIPEOPS ≤ fields.length then
          atoi (field CONFIG_FIELD_PIPEOPS) else -1
        regBuff := if CONFIG_FIELDS_WITH_REGBUFF ≤ fields.length then
          atoi (field CONFIG_FIELD_REGBUFF) else -1 }
  else none

/-! ## The two passes -/

/-- One line of the loop of `countConfigLines`; the count is an `int`. -/
def countLine (count : Int) (line : List Char) : Int :=
  if skips line then count
  else if 0 < (cutLine line).length then i32 (count + 1)
  else count

/-- `countConfigLines` of a file that opens. -/
def countConfigLines (file : List Char) : Int :=
  (readLines MAX_LINE_LENGTH file).foldl countLine 0

/-- The loop of `loadConfig` over the lines, with `numConfigs` rules so far. -/
def loadLines (maxConfigs : Int) : List (List Char) → Int → List TuningConfig
  | [], _ => []
  | line :: lines, numConfigs =>
    if numConfigs < maxConfigs then
      if skips line then loadLines maxConfigs lines numConfigs
      else
        match parseLine line with
        | some config => config :: loadLines maxConfigs lines (i32 (numConfigs + 1))
        | none => loadLines maxConfigs lines numConfigs
    else []

/-- `loadConfig`: the rules that it stores. `file` is `none` when `fopen` fails, and
`malloc` is which sizes can be allocated. -/
def loadConfig (malloc : Nat → Bool) (file : Option (List Char)) :
    Except NcclResult (List TuningConfig) :=
  match file with
  | none => .ok []
  | some file =>
    let configCount := countConfigLines file
    if configCount = 0 then .ok []
    else if !malloc (u64 (configCount * sizeofTuningConfig)) then .error ncclSystemError
    else .ok (loadLines configCount (readLines MAX_LINE_LENGTH file) 0)

end tuner.plugin
