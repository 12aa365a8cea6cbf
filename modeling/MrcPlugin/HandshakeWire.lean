-- The handshake of a connection over its socket (connect.cc). Both sides are called again
-- until they return a comm. A call goes on at the label of its stage, and a message goes
-- out of the staging buffer, or into it, as far as the socket takes or gives bytes. The
-- counts of the QPs come with the device lists, and all else with the metadata. With
-- subnet-aware routing each side may take another device than the one it was called with,
-- the accepting side not before it has the metadata of its peer.
import MrcPlugin.GidIndex
import MrcPlugin.HandshakeState
import MrcPlugin.QpAddress
import MrcPlugin.RkeyTables
import MrcPlugin.Lib.Layouts
import MrcPlugin.Lib.Streams
import MrcPlugin.Lib.Runs

namespace net_ib.wire

open p2p resiliency lifecycle streams layouts

/-! ## The messages -/

/-- `ncclNetVDeviceProps_t` and `ncclIbDevExtraProps`, which go over the wire together. -/
structure DevList where
  ndevs : Nat
  devs : Nat → Nat
  oooRq : Bool

/-- `ncclIbConnectionMetadata` with all that the handshake reads. -/
structure Metadata extends NcclIbConnectionMetadata where
  portRecoveryQpsInfo : Nat → NcclIbQpInfo
  sl : Int
  tc : Nat

/-- The fields of the addresses. -/
def Metadata.addrs (m : Metadata) : AddrMetadata :=
  { qpInfo := m.qpInfo
    probingQpsInfo := m.probingQpsInfo
    portRecoveryQpsInfo := m.portRecoveryQpsInfo
    devs := m.devs
    sl := m.sl
    tc := m.tc }

def devListLayout : Layout DevList :=
  ((word 4).pair (((word 4).array 0 NCCL_IB_MAX_DEVS_PER_NIC).pair bool)).map
    (fun l => (l.ndevs, l.devs, l.oooRq)) (fun p => ⟨p.1, p.2.1, p.2.2⟩)

/-- `ncclIbQpInfo`. The fields of ECE are skipped. -/
def qpInfoLayout : Layout NcclIbQpInfo :=
  (((word 4).padded 16).pair (word 4)).map (fun q => (q.qpn, q.devIndex)) (fun p => ⟨p.1, p.2⟩)

def devInfoLayout : Layout NcclIbDevInfo :=
  ((word 4).pair (((word 1).padded 3).pair ((word 4).pair (((word 1).padded 3).pair
    ((word 16).pair (((word 4).padded 4).pair ((word 16).pair
      ((word 8).pair ((word 4).padded 4))))))))).map
    (fun d => (d.lid, d.ib_port, d.mtu, d.link_layer, d.gid, d.rkey, d.remoteGid, d.currSpeed,
      d.remSpeedBufRkey))
    (fun p => ⟨p.1, p.2.1, p.2.2.1, p.2.2.2.1, p.2.2.2.2.1, p.2.2.2.2.2.1, p.2.2.2.2.2.2.1,
      p.2.2.2.2.2.2.2.1, p.2.2.2.2.2.2.2.2⟩)

def qpTable (n : Nat) : Layout (Nat → NcclIbQpInfo) := qpInfoLayout.array ⟨0, 0⟩ n

/-- `ncclIbConnectionMetadata`. The name of the device is skipped. -/
def metadataLayout : Layout Metadata :=
  ((qpTable NCCL_IB_MAX_QPS).pair ((qpTable NCCL_IB_MAX_DEVS_PER_NIC).pair
    ((qpTable NCCL_IB_MAX_DEVS_PER_NIC).pair
      (((devInfoLayout.array NcclIbDevInfo.zero NCCL_IB_MAX_DEVS_PER_NIC).padded 648).pair
        ((word 8).pair ((word 8).pair ((word 4).pair ((word 4).pair
          ((word 4).pair (int 4)))))))))).map
    (fun m => (m.qpInfo, m.probingQpsInfo, m.portRecoveryQpsInfo, m.devs, m.addr,
      m.remSpeedBufAddr, m.remSpeedBufRkey, m.ndevs, m.tc, m.sl))
    (fun p =>
      { qpInfo := p.1
        probingQpsInfo := p.2.1
        portRecoveryQpsInfo := p.2.2.1
        devs := p.2.2.2.1
        addr := p.2.2.2.2.1
        remSpeedBufAddr := p.2.2.2.2.2.1
        remSpeedBufRkey := p.2.2.2.2.2.2.1
        ndevs := p.2.2.2.2.2.2.2.1
        tc := p.2.2.2.2.2.2.2.2.1
        sl := p.2.2.2.2.2.2.2.2.2 })

/-- What the peer reads from a message. -/
def copy {α : Type} (l : Layout α) (a : α) : α := l.decode (l.encode a)

/-! ## The two comms -/

/-- A send comm in the handshake: its tables and its context, its QPs with their
addresses, and how many QPs there are of each kind. -/
structure SenderComm where
  res : ResSendComm
  conn : ConnComm
  counts : QpCounts

/-- A receive comm in the handshake. `dev` is the device of its listen comm. -/
structure ReceiverComm where
  dev : Nat
  res : ResRecvComm
  conn : ConnComm
  counts : QpCounts

/-- The host of a side: what `ncclIbDevs` and the parameters say of each physical device,
and the GID that a query of its port gives, if any. -/
structure WireHost where
  host : Host
  ibDevs : Nat → CommDev
  mlx5 : Nat → Bool
  ibOooRq : Bool
  oooRqSize : Nat → Nat
  ar : Nat → Bool
  currSpeed : Nat → Nat
  gids : Nat → Option IbvGid
  ethernet : ∀ ibDevN, host.ethernet ibDevN =
    decide ((ibDevs ibDevN).ibDev.portAttr.link_layer = IBV_LINK_LAYER_ETHERNET)

/-- What both sides begin with. The comms are as the init functions leave them, the
device of `recv` is the one that listens, `listenGids` are in its handle, and the provider
gives numbers, addresses and rkeys. -/
structure WireInput where
  sender : WireHost
  receiver : WireHost
  send : SenderComm
  recv : ReceiverComm
  sendDev : Nat
  listenGids : List IbvGid
  sendNums : QpNums
  recvNums : QpNums
  sendInline : Nat → Nat
  recvInline : Nat → Nat
  sendMem : SendMem
  recvMem : RecvMem
  sl : Int
  tc : Nat
  ibFifoTc : Int
  net : NetEnv

/-- The physical device at a place of a merged device. -/
def devOf (mergedDev : NcclIbMergedDev) (d : Nat) : Nat := mergedDev.devs.getD d 0

/-- What a side tells of a merged device. -/
def devList (w : WireHost) (mergedDev : NcclIbMergedDev) : DevList :=
  { ndevs := mergedDev.devs.length
    devs := devOf mergedDev
    oooRq := mergedDev.devs.all fun ibDevN => w.oooRqSize ibDevN ≠ 0 }

/-- `comm->base.vProps = mergedDev->vProps`. -/
def takeVProps (mergedDev : NcclIbMergedDev) (base : NcclIbNetCommBase) : NcclIbNetCommBase :=
  { base with ndevs := mergedDev.devs.length, devs := devOf mergedDev }

/-- The devices of the comm after `ncclIbInitCommDevBase` for each of them. -/
def takeDevs (w : WireHost) (mergedDev : NcclIbMergedDev) (conn : ConnComm) : ConnComm :=
  { conn with
    ndevs := mergedDev.devs.length
    pos := mergedDev.pos
    devs := fun d => w.ibDevs (devOf mergedDev d) }

/-- `ncclIbResiliencyDeviceNumSet`: the probing QPs and the recovery QPs. -/
def ncclIbResiliencyDeviceNumSet (isSend recoveryEnabled : Bool) (nLocalDevs nRemDevs : Nat) :
    Option (Nat × Nat) :=
  let nProbingQps := if isSend then nLocalDevs else nRemDevs
  let nPortRecoveryQps := if recoveryEnabled then max nLocalDevs nRemDevs else 0
  if nLocalDevs = 0 ∨ nRemDevs = 0 ∨ nProbingQps > NCCL_IB_MAX_DEVS_PER_NIC ∨
      nPortRecoveryQps > NCCL_IB_MAX_DEVS_PER_NIC then none
  else some (nProbingQps, nPortRecoveryQps)

/-- The counts that the lists of both sides give. The loops over the QPs read `nqps` as a
`uint`. -/
def exchange (nQpsPerDev : Int) (isSend recoveryEnabled : Bool) (rem : DevList)
    (base : NcclIbNetCommBase) : Option (NcclIbNetCommBase × QpCounts) :=
  let nqps := maxNqps nQpsPerDev base.ndevs rem.ndevs
  let base := { base.withCounts base.ndevs nqps (max base.ndevs rem.ndevs) with
    remOooRq := rem.oooRq }
  if base.resiliency then
    (ncclIbResiliencyDeviceNumSet isSend recoveryEnabled base.ndevs rem.ndevs).map
      fun n => (base, ⟨u32 nqps, n.1, n.2⟩)
  else some (base, ⟨u32 nqps, 0, 0⟩)

/-- What the loops over the QPs check before the provider is asked. `NCCL_IB_OOO_RQ` on an
MLX5 device always ends in an error: without AR, without support on both sides, or at last
because an MRC QP does not have it. -/
def qpAllowed (w : WireHost) (nqps : Nat) (ibDevN : Nat) : Bool :=
  !(w.mlx5 ibDevN && w.ibOooRq) && (ncclIbQpCreateMrcHint w.host nqps).toBool

/-- All QPs of the loops have a place in `qps` and pass the checks. -/
def qpsAllowed (w : WireHost) (mergedDev : NcclIbMergedDev) (counts : QpCounts) : Bool :=
  counts.nqps ≤ NCCL_IB_MAX_QPS &&
    (List.range counts.nqps).all fun q =>
      qpAllowed w counts.nqps (devOf mergedDev (q % mergedDev.devs.length))

/-- The devices of the metadata that `ncclIbAcceptImpl` looks at for its own. -/
def remDevList (remMeta : Metadata) : List RemDev :=
  (List.range (min remMeta.ndevs NCCL_IB_MAX_DEVS_PER_NIC)).map fun i =>
    ⟨(remMeta.devs i).link_layer = IBV_LINK_LAYER_ETHERNET, .ofNumber (remMeta.devs i).gid⟩

/-- `remMeta.devs` have the link layer. -/
def linkLayersMatch (remMeta : Metadata) (link_layer : Nat) : Bool :=
  (List.range remMeta.ndevs).all fun i => (remMeta.devs i).link_layer = link_layer

/-! ## What a side does with a message

`none` is an error, or an access behind the end of an array. -/

/-- The device that each call of `ncclIbConnectImpl` begins with. -/
def connectingDev (i : WireInput) : Option Nat :=
  (connectDev i.sender.host i.sender.gids i.listenGids i.sendDev).toOption

/-- `ncclIbConnectImpl` up to the device list that it sends. -/
def connectStart (i : WireInput) (dev : Nat) (x : SenderComm) : Option (SenderComm × DevList) :=
  match i.sender.host.mergedDevs[dev]? with
  | none => none
  | some mergedDev =>
    let list := devList i.sender mergedDev
    let base := { takeVProps mergedDev x.res.comm.base with localOooRq := list.oooRq }
    some ({ x with res := { x.res with comm := { x.res.comm with base } } }, list)

/-- `ncclIbConnectImpl` from the device list of the peer to the metadata that it sends. -/
def connectDevList (i : WireInput) (dev : Nat) (rem : DevList) (x : SenderComm) :
    Option (SenderComm × Metadata) :=
  match i.sender.host.mergedDevs[dev]? with
  | none => none
  | some mergedDev =>
    match exchange i.sender.host.nQpsPerDev true x.res.res.base.recoveryEnabled rem
        (takeVProps mergedDev x.res.comm.base) with
    | none => none
    | some (base, counts) =>
      let comm := { x.res.comm with
        base
        ibDevN := devOf mergedDev
        ar := mergedDev.devs.all i.sender.ar }
      let res := { x.res.res with base := { x.res.res.base with ndevs := base.ndevs } }
      let conn := takeDevs i.sender mergedDev x.conn
      let (res, info) := connectSend ⟨i.sendNums.data, i.sendInline, i.sendNums.probing⟩ i.sendMem
        (fun d => (conn.devs d).info) ⟨comm, res⟩
      let conn := senderCreate i.sendNums counts conn
      if !qpsAllowed i.sender mergedDev counts then none
      else if (List.range conn.ndevs).all fun d =>
          (conn.devs d).gidInfo.link_layer = (conn.devs 0).gidInfo.link_layer then
        some (⟨res, conn, counts⟩, { info with
          portRecoveryQpsInfo := (conn.metadata counts i.sl i.tc).portRecoveryQpsInfo
          sl := i.sl
          tc := i.tc })
      else none

/-- `ncclIbConnectImpl` from the metadata of the peer on. -/
def connectMetadata (i : WireInput) (remMeta : Metadata) (x : SenderComm) : Option SenderComm :=
  if !linkLayersMatch remMeta (x.conn.devs 0).ibDev.portAttr.link_layer then none
  else
    match connectFinish x.res remMeta.toNcclIbConnectionMetadata with
    | .error _ => none
    | .ok res =>
      let base := ncclIbComputeLbWeights i.net
        (ncclIbComputeDevSpeeds i.net res.comm.ibDevN res.comm.base)
      some { x with
        res := { res with comm := { res.comm with base := { base with ready := true } } }
        conn := senderToRts x.counts remMeta.addrs x.conn }

/-- `ncclIbAcceptImpl` from the device list of the peer to the one that it sends. -/
def acceptDevList (i : WireInput) (rem : DevList) (x : ReceiverComm) :
    Option (ReceiverComm × DevList) :=
  match i.receiver.host.mergedDevs[x.dev]? with
  | none => none
  | some mergedDev =>
    let list := devList i.receiver mergedDev
    match exchange i.receiver.host.nQpsPerDev false x.res.res.recoveryEnabled rem
        { takeVProps mergedDev x.res.comm.base with localOooRq := list.oooRq } with
    | none => none
    | some (base, counts) =>
      some ({ x with
        res := ⟨{ x.res.comm with base }, { x.res.res with ndevs := base.ndevs }⟩
        counts }, list)

/-- The choice of the device by the GIDs of the peer. The counts of the comm and of its
context stay those of the lists. -/
def acceptSubnet (w : WireHost) (remMeta : Metadata) (x : ReceiverComm) :
    Option (ReceiverComm × NcclIbMergedDev) :=
  match acceptDev w.host w.gids (remDevList remMeta) x.dev with
  | .error _ => none
  | .ok effectiveDev =>
    match w.host.mergedDevs[effectiveDev]? with
    | none => none
    | some mergedDev =>
      if effectiveDev = x.dev then some (x, mergedDev)
      else
        let base := takeVProps mergedDev x.res.comm.base
        some ({ x with
          dev := effectiveDev
          res := { x.res with comm := { x.res.comm with base } } }, mergedDev)

/-- `ncclIbAcceptImpl` with the devices of the comm, up to the metadata that it sends. -/
def acceptQps (i : WireInput) (remMeta : Metadata) (mergedDev : NcclIbMergedDev)
    (x : ReceiverComm) : ReceiverComm × Metadata :=
  let conn := receiverCreateToRts i.ibFifoTc i.recvNums x.counts remMeta.addrs
    (takeDevs i.receiver mergedDev x.conn)
  let currSpeed := fun d => i.receiver.currSpeed (devOf mergedDev d)
  let comm := { x.res.comm with ibDevN := devOf mergedDev }
  let (res, info) := acceptSend ⟨i.recvNums.data, i.recvInline, i.recvNums.probing⟩ i.recvMem
    (fun d => { (conn.devs d).info with currSpeed := currSpeed d }) x.counts.nProbingQps
    ⟨comm, x.res.res⟩ remMeta.toNcclIbConnectionMetadata
  let lastSentSpeeds := fillTo conn.ndevs (fun d => currSpeed d / 1000 % 2 ^ 16)
    res.comm.lastSentSpeeds
  ({ x with res := { res with comm := { res.comm with lastSentSpeeds } }, conn }, { info with
    portRecoveryQpsInfo := (conn.metadata x.counts remMeta.sl remMeta.tc).portRecoveryQpsInfo
    sl := remMeta.sl
    tc := remMeta.tc })

/-- `ncclIbAcceptImpl` from the metadata of the peer to the metadata that it sends. A
resiliency context has no device past those of the lists. -/
def acceptMetadata (i : WireInput) (remMeta : Metadata) (x : ReceiverComm) :
    Option (ReceiverComm × Metadata) :=
  match acceptSubnet i.receiver remMeta x with
  | none => none
  | some (x, mergedDev) =>
    let link_layer := fun d => (i.receiver.ibDevs (devOf mergedDev d)).ibDev.portAttr.link_layer
    if x.res.comm.base.resiliency ∧ mergedDev.devs.length > x.res.res.ndevs then none
    else if !((List.range mergedDev.devs.length).all fun d => link_layer d = link_layer 0) then none
    else if !linkLayersMatch remMeta (link_layer 0) then none
    else if !qpsAllowed i.receiver mergedDev x.counts then none
    else some (acceptQps i remMeta mergedDev x)

/-- `rComm->base.ready`, which the last message writes. -/
def acceptReady (ready : Bool) (x : ReceiverComm) : ReceiverComm :=
  { x with res := { x.res with comm := { x.res.comm with
      base := { x.res.comm.base with ready } } } }

/-! ## The sides -/

/-- The memory that a message goes out of or into. -/
inductive Place
  | staging
  | ready
deriving DecidableEq, Repr

/-- A side between two calls: its stage, the bytes of `base.ready`, its comm, and whether a
call has returned the comm or an error. -/
structure Side (C : Type) where
  state : NcclIbCommState
  offset : Nat
  buffer : List Byte
  ready : List Byte
  comm : C
  outcome : Option Bool

/-- A side and its socket: the bytes on their way to the peer and from it. -/
structure View (C : Type) where
  side : Side C
  out : List Byte
  inp : List Byte

/-- What a call finds: whether the socket is connected, how many bytes it takes or gives
at each message, and whether the provider does all that follows on it. -/
structure CallEnv where
  connected : Bool
  moves : Wait → Nat
  ok : Wait → Bool

section
variable {C : Type}

def Side.load (x : Side C) : Place → List Byte
  | .staging => x.buffer
  | .ready => x.ready

def Side.store (x : Side C) (bytes : List Byte) : Place → Side C
  | .staging => { x with buffer := bytes }
  | .ready => { x with ready := bytes }

/-- An error return. -/
def View.fail (v : View C) : View C := { v with side := { v.side with outcome := some false } }

/-- The next state of the stage, whose offset begins again. -/
def View.enter (v : View C) (state : NcclIbCommState) : View C :=
  { v with side := { v.side with state, offset := 0 } }

/-- `ncclSocketProgress` that sends, and the return when the message is not out. -/
def sendMessage (p : Place) (size k : Nat) (v : View C) (done : View C → View C) : View C :=
  let offset := v.side.offset + outLen size v.side.offset k
  let v := { v with
    side := { v.side with offset }
    out := v.out ++ outPiece (v.side.load p) size v.side.offset k }
  if offset ≠ size then v else done v

/-- `ncclSocketProgress` that receives, and the return when the message is not there. A
`recv` of no bytes looks like a closed connection. -/
def recvMessage (p : Place) (size k : Nat) (v : View C) (done : View C → View C) : View C :=
  if size ≤ v.side.offset then v.fail
  else
    let n := inLen size v.side.offset k v.inp
    let side := v.side.store (write (v.side.load p) v.side.offset (v.inp.take n)) p
    let v := { v with
      side := { side with offset := v.side.offset + n }
      inp := v.inp.drop n }
    if v.side.offset ≠ size then v else done v

end

/-! ## `ncclIbConnectImpl` -/

namespace connect

def ib_send_ready (e : CallEnv) (v : View SenderComm) : View SenderComm :=
  sendMessage .ready 4 (e.moves .ready) v fun v =>
    { v with side := { v.side with state := .start, outcome := some true } }

def ib_connect (i : WireInput) (e : CallEnv) (v : View SenderComm) : View SenderComm :=
  recvMessage .staging metadataLayout.size (e.moves .metaIn) v fun v =>
    let remMeta := metadataLayout.decode (v.side.buffer.take metadataLayout.size)
    match if e.ok .metaIn then connectMetadata i remMeta v.side.comm else none with
    | none => v.fail
    | some comm =>
      ib_send_ready e (View.enter { v with side :=
        { v.side with comm, ready := (word 4).encode 1 } } .connected)

def ib_send (i : WireInput) (e : CallEnv) (v : View SenderComm) : View SenderComm :=
  sendMessage .staging metadataLayout.size (e.moves .metaOut) v fun v =>
    ib_connect i e (View.enter { v with side :=
      { v.side with buffer := List.replicate metadataLayout.size 0 } } .connecting)

def ib_recv_dev_list (i : WireInput) (dev : Nat) (e : CallEnv) (v : View SenderComm) :
    View SenderComm :=
  recvMessage .staging devListLayout.size (e.moves .devListIn) v fun v =>
    let rem := devListLayout.decode (v.side.buffer.take devListLayout.size)
    match if e.ok .devListIn then connectDevList i dev rem v.side.comm else none with
    | none => v.fail
    | some (comm, info) =>
      ib_send i e (View.enter { v with side :=
        { v.side with comm, buffer := write v.side.buffer 0 (metadataLayout.encode info) } } .send)

def ib_send_dev_list (i : WireInput) (dev : Nat) (e : CallEnv) (v : View SenderComm) :
    View SenderComm :=
  sendMessage .staging devListLayout.size (e.moves .devListOut) v fun v =>
    ib_recv_dev_list i dev e (v.enter .recvDevList)

def ib_connect_check (i : WireInput) (dev : Nat) (e : CallEnv) (v : View SenderComm) :
    View SenderComm :=
  if !e.connected then v
  else
    match if e.ok .socket then connectStart i dev v.side.comm else none with
    | none => v.fail
    | some (comm, list) =>
      let buffer := write (List.replicate metadataLayout.size 0) 0 (devListLayout.encode list)
      ib_send_dev_list i dev e (View.enter { v with side :=
        { v.side with comm, buffer } } .sendDevList)

end connect

/-- A call of `ncclIbConnectImpl`. -/
def ncclIbConnectImpl (i : WireInput) (e : CallEnv) (v : View SenderComm) : View SenderComm :=
  match connectingDev i with
  | none => v.fail
  | some dev =>
    match v.side.state with
    | .connect => connect.ib_connect_check i dev e v
    | .sendDevList => connect.ib_send_dev_list i dev e v
    | .recvDevList => connect.ib_recv_dev_list i dev e v
    | .send => connect.ib_send i e v
    | .connecting => connect.ib_connect i e v
    | .connected => connect.ib_send_ready e v
    | .start =>
      connect.ib_connect_check i dev e (View.enter { v with side :=
        { v.side with comm := i.send, ready := (word 4).encode 0 } } .connect)
    | _ => v.fail

/-! ## `ncclIbAcceptImpl` -/

namespace accept

def ib_recv_ready (e : CallEnv) (v : View ReceiverComm) : View ReceiverComm :=
  recvMessage .ready 4 (e.moves .ready) v fun v =>
    { v with side := { v.side with
      comm := acceptReady ((word 4).decode v.side.ready ≠ 0) v.side.comm
      outcome := some true } }

def ib_send (e : CallEnv) (v : View ReceiverComm) : View ReceiverComm :=
  sendMessage .staging metadataLayout.size (e.moves .metaOut) v fun v =>
    ib_recv_ready e (v.enter .pendingReady)

/-- The staging buffer is freed and allocated again. -/
def ib_recv (i : WireInput) (e : CallEnv) (v : View ReceiverComm) : View ReceiverComm :=
  recvMessage .staging metadataLayout.size (e.moves .metaIn) v fun v =>
    let remMeta := metadataLayout.decode (v.side.buffer.take metadataLayout.size)
    match if e.ok .metaIn then acceptMetadata i remMeta v.side.comm else none with
    | none => v.fail
    | some (comm, info) =>
      ib_send e (View.enter { v with side :=
        { v.side with comm, buffer := metadataLayout.encode info } } .send)

def ib_send_dev_list (i : WireInput) (e : CallEnv) (v : View ReceiverComm) : View ReceiverComm :=
  sendMessage .staging devListLayout.size (e.moves .devListOut) v fun v =>
    ib_recv i e (v.enter .recv)

def ib_recv_dev_list (i : WireInput) (e : CallEnv) (v : View ReceiverComm) : View ReceiverComm :=
  recvMessage .staging devListLayout.size (e.moves .devListIn) v fun v =>
    let rem := devListLayout.decode (v.side.buffer.take devListLayout.size)
    match if e.ok .devListIn then acceptDevList i rem v.side.comm else none with
    | none => v.fail
    | some (comm, list) =>
      ib_send_dev_list i e (View.enter { v with side :=
        { v.side with comm, buffer := write v.side.buffer 0 (devListLayout.encode list) } }
          .sendDevList)

def ib_accept_check (i : WireInput) (e : CallEnv) (v : View ReceiverComm) : View ReceiverComm :=
  if !e.connected then v
  else if !e.ok .socket then v.fail
  else ib_recv_dev_list i e (v.enter .recvDevList)

end accept

/-- A call of `ncclIbAcceptImpl`. -/
def ncclIbAcceptImpl (i : WireInput) (e : CallEnv) (v : View ReceiverComm) : View ReceiverComm :=
  match v.side.state with
  | .accept => accept.ib_accept_check i e v
  | .recvDevList => accept.ib_recv_dev_list i e v
  | .sendDevList => accept.ib_send_dev_list i e v
  | .recv => accept.ib_recv i e v
  | .send => accept.ib_send e v
  | .pendingReady => accept.ib_recv_ready e v
  | .start =>
    accept.ib_accept_check i e (View.enter { v with side :=
      { v.side with
        comm := i.recv
        ready := (word 4).encode 0
        buffer := List.replicate metadataLayout.size 0 } } .accept)
  | _ => v.fail

/-! ## The runs -/

/-- Both sides and the bytes that are on their way. -/
structure WireWorld where
  connect : Side SenderComm
  accept : Side ReceiverComm
  toAccept : List Byte
  toConnect : List Byte

inductive WireAct
  | connect (e : CallEnv)
  | accept (e : CallEnv)

/-- One call of one side, as long as no call of it has returned a comm or an error. -/
def WireWorld.next (i : WireInput) : WireAct → WireWorld → Option WireWorld
  | .connect e, w =>
    if w.connect.outcome = none then
      let v := ncclIbConnectImpl i e ⟨w.connect, w.toAccept, w.toConnect⟩
      some { w with connect := v.side, toAccept := v.out, toConnect := v.inp }
    else none
  | .accept e, w =>
    if w.accept.outcome = none then
      let v := ncclIbAcceptImpl i e ⟨w.accept, w.toConnect, w.toAccept⟩
      some { w with accept := v.side, toAccept := v.inp, toConnect := v.out }
    else none

/-- Before the first call. -/
structure StartWire (w : WireWorld) : Prop where
  connect : w.connect.state = .start ∧ w.connect.outcome = none
  accept : w.accept.state = .start ∧ w.accept.outcome = none
  toAccept : w.toAccept = []
  toConnect : w.toConnect = []

/-- Any number of calls of both sides in any order. -/
def wireSystem (i : WireInput) : runs.System WireWorld where
  init := StartWire
  step := fun w w' => ∃ act, w.next i act = some w'

/-! ## The handshake in one piece -/

/-- The send comm when it has sent its device list, with the list. -/
def connectListed (i : WireInput) : Option (SenderComm × DevList) := do
  let dev ← connectingDev i
  connectStart i dev i.send

/-- The receive comm when it has sent its device list, with the list. -/
def acceptListed (i : WireInput) : Option (ReceiverComm × DevList) := do
  let (_, list) ← connectListed i
  acceptDevList i (copy devListLayout list) i.recv

/-- The send comm when it has sent its metadata, with the metadata. -/
def connectSent (i : WireInput) : Option (SenderComm × Metadata) := do
  let dev ← connectingDev i
  let (s, _) ← connectListed i
  let (_, list) ← acceptListed i
  connectDevList i dev (copy devListLayout list) s

/-- The receive comm when it has sent its metadata, with the metadata. -/
def acceptSent (i : WireInput) : Option (ReceiverComm × Metadata) := do
  let (r, _) ← acceptListed i
  let (_, info) ← connectSent i
  acceptMetadata i (copy metadataLayout info) r

def connectDone (i : WireInput) : Option SenderComm := do
  let (s, _) ← connectSent i
  let (_, info) ← acceptSent i
  connectMetadata i (copy metadataLayout info) s

/-- The two comms when each message arrives at once and whole. -/
def unfragmented (i : WireInput) : Option (SenderComm × ReceiverComm) := do
  let s ← connectDone i
  let (r, _) ← acceptSent i
  some (s, acceptReady true r)

end net_ib.wire
