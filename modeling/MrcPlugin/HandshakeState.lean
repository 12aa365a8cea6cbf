-- What the handshake of a comm works on (connect.cc): the stage that stays between its
-- calls, the memory, the PDs of the devices, and the bases and the data QPs of the comm.
-- Here are also the functions below the two that the user calls.
import MrcPlugin.QpLifecycle
import MrcPlugin.IbDevs

namespace net_ib.lifecycle

open calls

/-! ## The state -/

inductive NcclIbCommState
  | start
  | connect
  | accept
  | send
  | recv
  | connecting
  | connected
  | pendingReady
  | sendDevList
  | recvDevList
deriving DecidableEq, Repr

/-- `ncclIbCommStage`. A pointer is the number of its block. -/
structure NcclIbCommStage where
  state : NcclIbCommState
  buffer : Option Nat
  comm : Option Nat
deriving DecidableEq, Repr

/-- The blocks below `next` have been allocated. `freed` are those that were freed, each as
often as it was. -/
structure Heap where
  next : Nat
  freed : List Nat

/-- The PD of a device, and whether it is allocated. -/
structure Pd where
  pdRefs : Int
  pd : Bool
deriving DecidableEq, Repr

/-- What a comm holds. `bases` are the bases that have their PD, each with its index and
its device. -/
structure Comm where
  vProps : List Nat
  nqps : Int
  bases : List (Nat × Nat)
  qps : Nat → Kind → Option Nat

/-- A comm that has just been allocated, and also one that is gone. -/
def Comm.zeroed : Comm := ⟨[], 0, [], fun _ _ => none⟩

/-- A handle that connects, or a listen comm with the device `dev`. `comm` is the variable
of a call, and `base` is what it points to. `hasStage` is not read when connecting. -/
structure Shake where
  dev : Nat
  hasStage : Bool
  stage : NcclIbCommStage
  comm : Option Nat
  heap : Heap
  base : Comm
  calls : List ProvCall
  pds : Nat → Pd

abbrev CCall := Call Stop Shake

namespace Shake

variable (s : Shake)

def dataQps : DataQps := ⟨s.base.qps, s.calls⟩

def withDataQps (d : DataQps) : Shake := { s with base := { s.base with qps := d.qps }, calls := d.calls }

def setState (state : NcclIbCommState) : Shake := { s with stage := { s.stage with state } }

def setBuffer (buffer : Option Nat) : Shake := { s with stage := { s.stage with buffer } }

def setNqps (nqps : Int) : Shake := { s with base := { s.base with nqps } }

def setVProps (vProps : List Nat) : Shake := { s with base := { s.base with vProps } }

/-- `stage->comm = comm`. -/
def keepComm : Shake := { s with stage := { s.stage with comm := s.comm } }

/-- The next block is the comm. -/
def newComm : Shake :=
  { s with comm := some s.heap.next, heap := { s.heap with next := s.heap.next + 1 }, base := Comm.zeroed }

/-- The next block is the staging buffer. -/
def newBuffer : Shake :=
  { s with
    stage := { s.stage with buffer := some s.heap.next }
    heap := { s.heap with next := s.heap.next + 1 } }

/-- `free(comm)`. What the comm held is gone. -/
def freeComm : Shake :=
  { s with heap := { s.heap with freed := s.comm.toList ++ s.heap.freed }, base := Comm.zeroed }

/-- `if (stage->buffer) free(stage->buffer)`. -/
def freeBuffer : Shake :=
  { s with heap := { s.heap with freed := s.stage.buffer.toList ++ s.heap.freed } }

def setPd (d : Nat) (pd : Pd) : Shake := { s with pds := Function.update s.pds d pd }

/-- Base `i` has the PD of the device. -/
def startBase (i ibDevN : Nat) : Shake :=
  { s with base := { s.base with bases := (i, ibDevN) :: s.base.bases.filter (fun b => b.1 ≠ i) } }

/-- The bases of a device that the comm has. -/
def live (d : Nat) : Nat := s.base.bases.countP (fun b => b.2 = d)

end Shake

/-! ## What a call finds -/

/-- What a call waits for: its socket, and five messages. -/
inductive Wait
  | socket
  | devListOut
  | devListIn
  | metaOut
  | metaIn
  | ready
deriving DecidableEq, Repr

/-- The points where a call can stop, in the words of the source. `i` is a device of the
comm and `q` is one of its QPs. -/
inductive Site
  | findDev
  | callocStage
  | mallocComm
  | commInit
  | statsInit
  | socketInit
  | socketConnect
  | mallocBuffer
  | wait (w : Wait)
  | incomplete (w : Wait)
  | devIndex (dev : Nat)
  | devSlot (dev : Nat)
  | deviceNum
  | subnet (dev : Nat)
  | cqSize (i : Nat)
  | allocPd (i : Nat)
  | createMrcCq (i : Nat)
  | createCq (i : Nat)
  | pkeyIndex (i : Nat)
  | devInit (i : Nat)
  | linkLayer (i : Nat)
  | remLinkLayer (linkLayer : Nat)
  | rqSize (q : Nat)
  | oooRq (q : Nat)
  | qpSlot (q : Nat)
  | createQp (q : Nat) (nqps : Int)
  | qpInit (q : Nat)
  | setEce (q : Nat)
  | rtr (q : Nat)
  | rts (q : Nat)
  | queryEce (q : Nat)
  | resiliencyQps
  | prepost
  | putSignalMr (i : Nat)
  | ctsFifoMr (i : Nat)
  | cmplsRecords (i : Nat)
  | cmplsRecordsMr (i : Nat)
  | speedMr (i : Nat)
  | mallocMeta
deriving DecidableEq, Repr

/-- What a device of the peer says of itself. -/
structure RemDevInfo where
  linkLayer : Nat
  gid : IbvGid

/-- What a call finds. `answer` is what each step gives, and a step that the comm does not
need gives `ncclSuccess`. `linkLayer` are the link layers of the devices of the comm.
`create` and `cleanup` are what the provider says for each QP. -/
structure ShakeEnv where
  dev : Nat
  nQpsPerDev : Int
  gids : Nat → Option IbvGid
  listenGids : List IbvGid
  remNdevs : Int
  remDevs : List RemDevInfo
  linkLayer : Nat → Nat
  portLinkLayer : Nat
  answer : Site → NcclResult
  incomplete : Wait → Bool
  mrcContext : Nat → Bool
  oooRq : Nat → Bool
  create : Nat → CreateEnv
  cleanup : Nat → DestroyEnv

/-- A step whose result is checked. -/
def ask (env : ShakeEnv) (x : Site) : CCall PUnit :=
  if env.answer x = ncclSuccess then pure ⟨⟩ else throw (.ret (env.answer x))

/-- A call on the data QPs of the comm. -/
def onQps {α : Type} (m : QpCall α) : CCall α :=
  m.zoom Shake.dataQps (fun d s => s.withDataQps d)

/-! ## The base of a device -/

/-- `if (0 == ibDev->pdRefs++)`, and the PD that is allocated then. -/
def refPd (env : ShakeEnv) (i ibDevN : Nat) : CCall PUnit := do
  let s ← get
  let pd := s.pds ibDevN
  if pd.pdRefs = 0 then do
    set (s.setPd ibDevN { pd with pdRefs := pd.pdRefs + 1 })
    ask env (.allocPd i)
    modify (fun s => s.setPd ibDevN ⟨pd.pdRefs + 1, true⟩)
  else set (s.setPd ibDevN { pd with pdRefs := pd.pdRefs + 1 })

def ncclIbInitCommDevBase (env : ShakeEnv) (i ibDevN : Nat) : CCall PUnit := do
  refPd env i ibDevN
  modify (fun s => s.startBase i ibDevN)
  ask env (.createMrcCq i)
  ask env (.createCq i)
  ask env (.pkeyIndex i)

/-! ## The QPs -/

/-- The turn of the loop of `ncclIbSenderQpsCreate`. An index beyond `qps` is a bad
pointer. -/
def senderQpCreate (host : Host) (env : ShakeEnv) (nqps : Int) (q : Nat) : CCall PUnit := do
  ask env (.oooRq q)
  if NCCL_IB_MAX_QPS ≤ q then throw .badPointer
  else do
    onQps (ncclIbQpCreate host (env.create q) q ⟨env.mrcContext q, env.oooRq q, nqps⟩)
    ask env (.qpInit q)
    ask env (.queryEce q)

/-- `ncclIbSenderQpsCreate`. It does not look whether the QPs of the resiliency context
were created. -/
def ncclIbSenderQpsCreate (host : Host) (env : ShakeEnv) : CCall PUnit := do
  let s ← get
  forM (List.range (u32 s.base.nqps)) (senderQpCreate host env s.base.nqps)

/-- The turn of the loop of `ncclIbSenderQpsToRts`. -/
def senderQpToRts (env : ShakeEnv) (q : Nat) : CCall PUnit := do
  ask env (.setEce q)
  ask env (.rtr q)
  ask env (.rts q)

def ncclIbSenderQpsToRts (env : ShakeEnv) : CCall PUnit := do
  let s ← get
  forM (List.range (u32 s.base.nqps)) (senderQpToRts env)
  ask env .resiliencyQps

/-- The turn of the loop of `ncclIbReceiverQpsCreateToRts`. -/
def receiverQpCreate (host : Host) (env : ShakeEnv) (nqps : Int) (q : Nat) : CCall PUnit :=
  if NCCL_IB_MAX_QPS ≤ q then throw .badPointer
  else do
    ask env (.rqSize q)
    ask env (.oooRq q)
    onQps (ncclIbQpCreate host (env.create q) q ⟨env.mrcContext q, env.oooRq q, nqps⟩)
    ask env (.qpInit q)
    ask env (.setEce q)
    ask env (.rtr q)
    ask env (.rts q)
    ask env (.queryEce q)

def ncclIbReceiverQpsCreateToRts (host : Host) (env : ShakeEnv) : CCall PUnit := do
  let s ← get
  forM (List.range (u32 s.base.nqps)) (receiverQpCreate host env s.base.nqps)
  ask env .resiliencyQps

/-! ## The memory -/

def mallocComm (env : ShakeEnv) : CCall PUnit := do
  ask env .mallocComm
  modify Shake.newComm

/-- `ncclIbMalloc` of the staging buffer. -/
def mallocBuffer (env : ShakeEnv) (x : Site) : CCall PUnit := do
  ask env x
  modify Shake.newBuffer

/-- `ncclIbSendCommInit` and `ncclIbRecvCommInit`. -/
def commInit (env : ShakeEnv) : CCall PUnit := do
  modify (fun s => s.setNqps (-1))
  ask env .commInit

/-- `lComm->stage`, which is allocated when it is NULL. -/
def callocStage (env : ShakeEnv) : CCall PUnit := do
  let s ← get
  if s.hasStage then pure ⟨⟩
  else do
    ask env .callocStage
    modify (fun s => { s with hasStage := true, stage := ⟨.start, none, none⟩ })

end net_ib.lifecycle
