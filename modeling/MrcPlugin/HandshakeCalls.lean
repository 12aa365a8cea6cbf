-- ncclIbConnectImpl and ncclIbAcceptImpl (connect.cc). Each is called until it returns a
-- comm. A call goes on at the label of its stage. Some errors go to the label `fail`,
-- which destroys the QPs and frees the comm, and others return from where they are.
import MrcPlugin.HandshakeState

namespace net_ib.lifecycle

open calls

/-! ## The exits -/

/-- How the code before the labels `exit` and `fail` is left: by a return, by the label
`fail`, or by a bad pointer. -/
inductive Exit
  | ret (res : NcclResult)
  | fail (res : NcclResult)
  | badPointer
deriving DecidableEq, Repr

abbrev BodyCall := Call Exit Shake

def Exit.ofCheck : Stop → Exit
  | .ret res => .ret res
  | _ => .badPointer

def Exit.ofGoto : Stop → Exit
  | .ret res => .fail res
  | _ => .badPointer

def NCCLCHECK (m : CCall PUnit) : BodyCall PUnit := m.rethrow Exit.ofCheck

def NCCLCHECKGOTO (m : CCall PUnit) : BodyCall PUnit := m.rethrow Exit.ofGoto

/-- A step of the socket. The call returns success when it has to be called again. -/
def waitFor (check : CCall PUnit → BodyCall PUnit) (env : ShakeEnv) (w : Wait) : BodyCall PUnit := do
  check (ask env (.wait w))
  if env.incomplete w then throw (.ret ncclSuccess) else pure ⟨⟩

def IBV_LINK_LAYER_UNSPECIFIED : Nat := 0

/-- The variable `link_layer` when `n` devices have been looked at. -/
def linkLayerAfter (linkLayer : Nat → Nat) : Nat → Nat
  | 0 => IBV_LINK_LAYER_UNSPECIFIED
  | n + 1 =>
    if linkLayerAfter linkLayer n = IBV_LINK_LAYER_UNSPECIFIED then linkLayer n
    else linkLayerAfter linkLayer n

/-- Device `i` has the link layer of those before it. -/
def checkLinkLayer (env : ShakeEnv) (i : Nat) : BodyCall PUnit :=
  if linkLayerAfter env.linkLayer (i + 1) ≠ env.linkLayer i then throw (.ret ncclInternalError)
  else pure ⟨⟩

/-- The devices of the peer have the link layer. -/
def checkRemLinkLayer (env : ShakeEnv) (linkLayer : Nat) : BodyCall PUnit :=
  if env.remDevs.any (fun d => d.linkLayer ≠ linkLayer) then throw (.ret ncclInternalError)
  else pure ⟨⟩

/-- The label `fail`. What `ncclIbDestroyDataQps` returns is not looked at. -/
def failLabel (env : ShakeEnv) : CCall PUnit := do
  let s ← get
  let _ ← Call.attempt (onQps (ncclIbDestroyDataQps s.base.nqps env.cleanup))
  modify Shake.freeComm

/-- A call from its first line to its last. It returns its result and `*sendComm` or
`*recvComm`. -/
def wholeCall (env : ShakeEnv) (body : BodyCall PUnit) (exitLabel : Shake → Shake) :
    CCall (NcclResult × Option Nat) := do
  let r ← Call.attempt body
  match r with
  | .ok _ => do
    let s ← get
    modify exitLabel
    pure (ncclSuccess, s.comm)
  | .error (.ret res) => pure (res, none)
  | .error (.fail res) => do
    failLabel env
    modify exitLabel
    pure (res, none)
  | .error .badPointer => throw .badPointer

/-! ## Connect -/

namespace connect

/-- The first line, which every call runs. -/
def findDev (host : Host) (env : ShakeEnv) : BodyCall Nat :=
  match connectDev host env.gids env.listenGids env.dev with
  | .ok dev => pure dev
  | .error stop => throw (Exit.ofCheck stop)

def ib_send_ready (env : ShakeEnv) : BodyCall PUnit := waitFor NCCLCHECKGOTO env .ready

/-- The metadata of the peer, and the QPs that are connected. -/
def recvMeta (env : ShakeEnv) : BodyCall PUnit := do
  waitFor NCCLCHECKGOTO env .metaIn
  checkRemLinkLayer env env.portLinkLayer
  forM (List.range env.remDevs.length) (fun i => NCCLCHECKGOTO (ask env (.cmplsRecords i)))
  let s ← get
  forM (List.range s.base.vProps.length) (fun i => NCCLCHECKGOTO (ask env (.cmplsRecordsMr i)))
  NCCLCHECKGOTO (ncclIbSenderQpsToRts env)
  modify (fun s => s.setState .connected)

def ib_connect (env : ShakeEnv) : BodyCall PUnit := do
  recvMeta env
  ib_send_ready env

def sendMeta (env : ShakeEnv) : BodyCall PUnit := do
  waitFor NCCLCHECKGOTO env .metaOut
  modify (fun s => s.setState .connecting)

def ib_send (env : ShakeEnv) : BodyCall PUnit := do
  sendMeta env
  ib_connect env

/-- The turn of the loop over the devices, which are counted by `d.2`. -/
def initDev (env : ShakeEnv) (d : Nat × Nat) : BodyCall PUnit := do
  NCCLCHECKGOTO (ask env (.cqSize d.2))
  NCCLCHECKGOTO (ncclIbInitCommDevBase env d.2 d.1)
  NCCLCHECKGOTO (ask env (.devInit d.2))

/-- The turn of the loop that fills the metadata. -/
def regMrs (env : ShakeEnv) (i : Nat) : BodyCall PUnit := do
  NCCLCHECKGOTO (ask env (.putSignalMr i))
  NCCLCHECKGOTO (ask env (.ctsFifoMr i))
  checkLinkLayer env i

/-- The device list of the peer, and all that comes from it. `dev` is not compared with
the number of devices here. -/
def recvDevList (host : Host) (env : ShakeEnv) (dev : Nat) : BodyCall PUnit := do
  waitFor NCCLCHECK env .devListIn
  match host.mergedDevs[dev]? with
  | none => throw .badPointer
  | some mergedDev => do
    let devs := mergedDev.devs
    modify (fun s => (s.setVProps devs).setNqps (maxNqps env.nQpsPerDev devs.length env.remNdevs))
    NCCLCHECK (ask env .deviceNum)
    forM devs.zipIdx (initDev env)
    NCCLCHECKGOTO (ncclIbSenderQpsCreate host env)
    forM (List.range devs.length) (regMrs env)
    NCCLCHECKGOTO (ask env (.speedMr 0))
    modify (fun s => s.setState .send)

def ib_recv_dev_list (host : Host) (env : ShakeEnv) (dev : Nat) : BodyCall PUnit := do
  recvDevList host env dev
  ib_send env

def sendDevList (env : ShakeEnv) : BodyCall PUnit := do
  waitFor NCCLCHECK env .devListOut
  modify (fun s => s.setState .recvDevList)

def ib_send_dev_list (host : Host) (env : ShakeEnv) (dev : Nat) : BodyCall PUnit := do
  sendDevList env
  ib_recv_dev_list host env dev

/-- The socket is connected, and the device is looked up. -/
def checkSocket (host : Host) (env : ShakeEnv) (dev : Nat) : BodyCall PUnit := do
  waitFor NCCLCHECKGOTO env .socket
  match host.mergedDevs[dev]? with
  | none => throw (.ret ncclInternalError)
  | some mergedDev => do
    modify (fun s => (s.setVProps mergedDev.devs).setState .sendDevList)
    NCCLCHECKGOTO (mallocBuffer env .mallocBuffer)

def ib_connect_check (host : Host) (env : ShakeEnv) (dev : Nat) : BodyCall PUnit := do
  checkSocket host env dev
  ib_send_dev_list host env dev

/-- The first call, as far as the comm and its socket. -/
def openSocket (env : ShakeEnv) : BodyCall PUnit := do
  modify (fun s => s.setBuffer none)
  NCCLCHECK (mallocComm env)
  NCCLCHECKGOTO (commInit env)
  NCCLCHECKGOTO (ask env .statsInit)
  NCCLCHECKGOTO (ask env .socketInit)
  modify (fun s => s.keepComm.setState .connect)
  NCCLCHECKGOTO (ask env .socketConnect)

def start (host : Host) (env : ShakeEnv) (dev : Nat) : BodyCall PUnit := do
  openSocket env
  ib_connect_check host env dev

/-- The label that a call goes to. -/
def label (host : Host) (env : ShakeEnv) (dev : Nat) : NcclIbCommState → BodyCall PUnit
  | .connect => ib_connect_check host env dev
  | .sendDevList => ib_send_dev_list host env dev
  | .recvDevList => ib_recv_dev_list host env dev
  | .send => ib_send env
  | .connecting => ib_connect env
  | .connected => ib_send_ready env
  | .start => start host env dev
  | _ => throw (.ret ncclInternalError)

def body (host : Host) (env : ShakeEnv) : BodyCall PUnit := do
  let dev ← findDev host env
  modify (fun s => { s with comm := s.stage.comm })
  let s ← get
  label host env dev s.stage.state

/-- The label `exit`. The pointers of the stage stay. -/
def exitLabel (s : Shake) : Shake := s.freeBuffer.setState .start

end connect

def ncclIbConnectImpl (host : Host) (env : ShakeEnv) : CCall (NcclResult × Option Nat) :=
  wholeCall env (connect.body host env) connect.exitLabel

/-! ## Accept -/

namespace accept

def ib_recv_ready (env : ShakeEnv) : BodyCall PUnit := waitFor NCCLCHECKGOTO env .ready

def sendMeta (env : ShakeEnv) : BodyCall PUnit := do
  waitFor NCCLCHECKGOTO env .metaOut
  modify (fun s => s.setState .pendingReady)

def ib_send (env : ShakeEnv) : BodyCall PUnit := do
  sendMeta env
  ib_recv_ready env

/-- The device that suits the GIDs of the peer. The lookup of another device is in the
table, because its index comes from there. -/
def subnet (host : Host) (env : ShakeEnv) : CCall PUnit := do
  let s ← get
  let remDevs := env.remDevs.map (fun d => RemDev.mk (d.linkLayer = IBV_LINK_LAYER_ETHERNET) d.gid)
  match acceptDev host env.gids remDevs s.dev with
  | .error stop => throw stop
  | .ok effectiveDev =>
    if effectiveDev = s.dev then pure ⟨⟩
    else
      match host.mergedDevs[effectiveDev]? with
      | none => throw .badPointer
      | some mergedDev => modify (fun s => { s.setVProps mergedDev.devs with dev := effectiveDev })

/-- The turn of the loop over the devices, which are counted by `d.2`. -/
def initDev (env : ShakeEnv) (d : Nat × Nat) : BodyCall PUnit := do
  NCCLCHECKGOTO (ask env (.cqSize d.2))
  NCCLCHECKGOTO (ncclIbInitCommDevBase env d.2 d.1)
  NCCLCHECKGOTO (ask env (.devInit d.2))
  checkLinkLayer env d.2

/-- The turn of the loop that registers the memory. -/
def regMrs (env : ShakeEnv) (i : Nat) : BodyCall PUnit := do
  NCCLCHECKGOTO (ask env (.ctsFifoMr i))
  NCCLCHECKGOTO (ask env (.cmplsRecordsMr i))
  NCCLCHECKGOTO (ask env (.speedMr i))

/-- The metadata of the peer, and all that comes from it. The staging buffer is freed and
allocated again. -/
def recvMeta (host : Host) (env : ShakeEnv) : BodyCall PUnit := do
  waitFor NCCLCHECKGOTO env .metaIn
  NCCLCHECKGOTO (subnet host env)
  let s ← get
  let ndevs := s.base.vProps.length
  forM s.base.vProps.zipIdx (initDev env)
  checkRemLinkLayer env (linkLayerAfter env.linkLayer ndevs)
  NCCLCHECKGOTO (ncclIbReceiverQpsCreateToRts host env)
  NCCLCHECKGOTO (ask env .prepost)
  forM (List.range ndevs) (regMrs env)
  modify (fun s => (s.setState .send).freeBuffer.setBuffer none)
  NCCLCHECKGOTO (mallocBuffer env .mallocMeta)

def ib_recv (host : Host) (env : ShakeEnv) : BodyCall PUnit := do
  recvMeta host env
  ib_send env

def sendDevList (env : ShakeEnv) : BodyCall PUnit := do
  waitFor NCCLCHECKGOTO env .devListOut
  modify (fun s => s.setState .recv)

def ib_send_dev_list (host : Host) (env : ShakeEnv) : BodyCall PUnit := do
  sendDevList env
  ib_recv host env

/-- The device list of the peer. -/
def recvDevList (host : Host) (env : ShakeEnv) : BodyCall PUnit := do
  waitFor NCCLCHECK env .devListIn
  let s ← get
  match host.mergedDevs[s.dev]? with
  | none => throw (.ret ncclInternalError)
  | some mergedDev => do
    let devs := mergedDev.devs
    modify (fun s => (s.setVProps devs).setNqps (maxNqps env.nQpsPerDev devs.length env.remNdevs))
    NCCLCHECK (ask env .deviceNum)
    modify (fun s => s.setState .sendDevList)

def ib_recv_dev_list (host : Host) (env : ShakeEnv) : BodyCall PUnit := do
  recvDevList host env
  ib_send_dev_list host env

def checkSocket (env : ShakeEnv) : BodyCall PUnit := do
  waitFor NCCLCHECKGOTO env .socket
  modify (fun s => s.setState .recvDevList)

def ib_accept_check (host : Host) (env : ShakeEnv) : BodyCall PUnit := do
  checkSocket env
  ib_recv_dev_list host env

/-- The first call, as far as the comm, its socket and the staging buffer. -/
def openSocket (env : ShakeEnv) : BodyCall PUnit := do
  NCCLCHECK (mallocComm env)
  NCCLCHECKGOTO (commInit env)
  NCCLCHECKGOTO (ask env .statsInit)
  modify (fun s => s.keepComm.setState .accept)
  NCCLCHECKGOTO (ask env .socketInit)
  NCCLCHECKGOTO (ask env .socketConnect)
  NCCLCHECK (mallocBuffer env .mallocBuffer)

def start (host : Host) (env : ShakeEnv) : BodyCall PUnit := do
  openSocket env
  ib_accept_check host env

/-- The label that a call goes to. -/
def label (host : Host) (env : ShakeEnv) : NcclIbCommState → BodyCall PUnit
  | .accept => ib_accept_check host env
  | .recvDevList => ib_recv_dev_list host env
  | .sendDevList => ib_send_dev_list host env
  | .recv => ib_recv host env
  | .send => ib_send env
  | .pendingReady => ib_recv_ready env
  | .start => start host env
  | _ => throw (.ret ncclInternalError)

def body (host : Host) (env : ShakeEnv) : BodyCall PUnit := do
  NCCLCHECK (callocStage env)
  modify (fun s => { s with comm := s.stage.comm })
  let s ← get
  label host env s.stage.state

/-- The label `exit`. The stage is freed. -/
def exitLabel (s : Shake) : Shake := { s.freeBuffer with hasStage := false }

end accept

def ncclIbAcceptImpl (host : Host) (env : ShakeEnv) : CCall (NcclResult × Option Nat) :=
  wholeCall env (accept.body host env) accept.exitLabel

end net_ib.lifecycle
