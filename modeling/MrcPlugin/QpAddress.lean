-- The addresses with which the QPs are connected (connect.cc, p2p_resiliency.cc,
-- p2p_resiliency_recovery.cc). Each QP takes some values from the device that it was
-- created on and some from the device of its peer, and both come in records of the
-- same types.
import MrcPlugin.IbDevs
import MrcPlugin.Handshake

namespace net_ib

/-! ## The data -/

/-- A device of a comm: `ncclIbNetCommDevBase` and the device behind it. -/
structure CommDev where
  ibDev : NcclIbDev
  gidInfo : NcclIbGidInfo
  pkeyIndex : Int

/-- `ncclIbQpInitAttr`. -/
structure NcclIbQpInitAttr where
  pkeyIndex : Int
  portNum : Nat
  qpAccessFlags : Nat
deriving DecidableEq, Repr

/-- `ncclIbQpRtrAttr`. -/
structure NcclIbQpRtrAttr where
  mtu : Nat
  linkLayer : Nat
  tc : Nat
  sl : Int
  remoteQpNum : Nat
  remoteLid : Nat
  remoteGid : Nat
  localIbPort : Nat
  localPortFlags : Nat
  localGid : Nat
  localGidIndex : Int
deriving DecidableEq, Repr

/-- `ncclIbQp`, the fields of its connection. -/
structure ConnQp where
  qpn : Nat
  devIndex : Nat
  remDevIdx : Nat
  initAttr : NcclIbQpInitAttr
  rtrAttr : NcclIbQpRtrAttr
deriving DecidableEq, Repr

def ConnQp.zero : ConnQp := ⟨0, 0, 0, ⟨0, 0, 0⟩, ⟨0, 0, 0, 0, 0, 0, 0, 0, 0, 0, 0⟩⟩

/-- `ncclIbConnectionMetadata`, the fields of the addresses. -/
structure AddrMetadata where
  qpInfo : Nat → NcclIbQpInfo
  probingQpsInfo : Nat → NcclIbQpInfo
  portRecoveryQpsInfo : Nat → NcclIbQpInfo
  devs : Nat → NcclIbDevInfo
  sl : Int
  tc : Nat

/-- A comm: its devices, at least one, and its QPs. -/
structure ConnComm where
  ndevs : Nat
  pos : 0 < ndevs
  devs : Nat → CommDev
  qps : Nat → ConnQp
  probingQps : Nat → ConnQp
  portRecoveryQps : Nat → ConnQp
  flushQps : Nat → ConnQp

/-- `ah_attr` of `ibv_qp_attr`. -/
structure IbvAhAttr where
  is_global : Bool := false
  dgid : Nat := 0
  sgid_index : Int := 0
  hop_limit : Nat := 0
  traffic_class : Nat := 0
  dlid : Nat := 0
  sl : Int := 0
  port_num : Nat := 0

/-- `ibv_qp_attr`, the fields that `ncclIbQpRtr` sets from its QP. -/
structure IbvQpAttr where
  path_mtu : Nat
  dest_qp_num : Nat
  ah_attr : IbvAhAttr

/-! ## The move to RTR -/

def IBV_ACCESS_LOCAL_WRITE : Nat := 1

def IBV_ACCESS_REMOTE_WRITE : Nat := 2

def IBV_ACCESS_REMOTE_READ : Nat := 4

def IBV_ACCESS_REMOTE_ATOMIC : Nat := 8

/-- `ncclIbExtractLocalSubnetPrefix`. -/
def ncclIbExtractLocalSubnetPrefix (gid : Nat) : Nat := gid / 2 ^ 64 % 2 ^ 16

/-- The address of `ncclIbQpRtr` on a link that is not Ethernet. Bit 0 of the flags is
`IBV_QPF_GRH_REQUIRED`. -/
def ibAhAttr (rtrAttr : NcclIbQpRtrAttr) : IbvAhAttr :=
  let sameSubnet := ncclIbExtractLocalSubnetPrefix rtrAttr.localGid =
    ncclIbExtractLocalSubnetPrefix rtrAttr.remoteGid
  let flid := ncclIbExtractFlid rtrAttr.remoteGid
  let dlid := if ¬sameSubnet ∧ flid ≠ 0 then flid else rtrAttr.remoteLid
  if ¬sameSubnet ∨ rtrAttr.localPortFlags % 2 = 1 then
    { is_global := true
      dgid := rtrAttr.remoteGid
      sgid_index := rtrAttr.localGidIndex
      hop_limit := 255
      dlid }
  else { dlid }

/-- `ncclIbQpRtr`. -/
def ncclIbQpRtr (rtrAttr : NcclIbQpRtrAttr) : IbvQpAttr :=
  let ah_attr :=
    if rtrAttr.linkLayer = IBV_LINK_LAYER_ETHERNET then
      { is_global := true
        dgid := rtrAttr.remoteGid
        sgid_index := rtrAttr.localGidIndex
        hop_limit := 255
        traffic_class := rtrAttr.tc }
    else ibAhAttr rtrAttr
  { path_mtu := rtrAttr.mtu
    dest_qp_num := rtrAttr.remoteQpNum
    ah_attr := { ah_attr with sl := rtrAttr.sl, port_num := rtrAttr.localIbPort } }

/-- The part of the attributes that all connected QPs fill in the same way. -/
def connectedRtrAttr (own : CommDev) (remMeta : AddrMetadata) (remQpInfo : NcclIbQpInfo)
    (mtu tc : Nat) : NcclIbQpRtrAttr :=
  let remDevInfo := remMeta.devs remQpInfo.devIndex
  { mtu, tc
    linkLayer := remDevInfo.link_layer
    sl := remMeta.sl
    remoteQpNum := remQpInfo.qpn
    remoteLid := remDevInfo.lid
    remoteGid := remDevInfo.gid
    localIbPort := remDevInfo.ib_port
    localPortFlags := own.ibDev.portAttr.flags
    localGid := own.gidInfo.localGid
    localGidIndex := own.gidInfo.localGidIndex }

/-- The smaller MTU of the two devices. -/
def pairMtu (own : CommDev) (remDevInfo : NcclIbDevInfo) : Nat :=
  min remDevInfo.mtu own.ibDev.portAttr.active_mtu

/-- The traffic class of every QP but the receiver's data QPs. -/
def senderTc (remMeta : AddrMetadata) (remDevInfo : NcclIbDevInfo) : Nat :=
  if remDevInfo.link_layer = IBV_LINK_LAYER_ETHERNET then remMeta.tc else 255

/-- The traffic class of the receiver's data QPs. -/
def receiverTc (ibFifoTc : Int) (remMeta : AddrMetadata) (remDevInfo : NcclIbDevInfo) : Nat :=
  if remDevInfo.link_layer = IBV_LINK_LAYER_ETHERNET ∧ ibFifoTc ≠ -1 then (ibFifoTc % 256).toNat
  else remMeta.tc

/-- A new QP on this device, in the state INIT. -/
def createQp (comm : ConnComm) (flags qpn devIndex : Nat) (qp : ConnQp) : ConnQp :=
  { qp with
    qpn
    devIndex
    initAttr := ⟨(comm.devs devIndex).pkeyIndex, (comm.devs devIndex).ibDev.portNum, flags⟩ }

/-- A QP that all but the receiver's data QPs are connected like. -/
def connectQp (comm : ConnComm) (remMeta : AddrMetadata) (remQpInfo : NcclIbQpInfo) (qp : ConnQp) :
    ConnQp :=
  let own := comm.devs qp.devIndex
  let remDevInfo := remMeta.devs remQpInfo.devIndex
  { qp with
    remDevIdx := remQpInfo.devIndex
    rtrAttr := connectedRtrAttr own remMeta remQpInfo (pairMtu own remDevInfo)
      (senderTc remMeta remDevInfo) }

/-! ## The functions that connect -/

/-- The numbers that the provider gives the QPs of a side. -/
structure QpNums where
  data : Nat → Nat
  probing : Nat → Nat
  recovery : Nat → Nat
  flush : Nat → Nat

/-- How many QPs of each kind a connection has, on both sides. -/
structure QpCounts where
  nqps : Nat
  nProbingQps : Nat
  nPortRecoveryQps : Nat

/-- What a side tells of one of its QPs. -/
def ConnQp.info (qp : ConnQp) : NcclIbQpInfo := ⟨qp.qpn, qp.devIndex⟩

/-- What a side tells of one of its devices. -/
def CommDev.info (d : CommDev) : NcclIbDevInfo :=
  { NcclIbDevInfo.zero with
    lid := d.ibDev.portAttr.lid
    ib_port := d.ibDev.portNum
    mtu := d.ibDev.portAttr.active_mtu
    link_layer := d.gidInfo.link_layer
    gid := d.gidInfo.localGid }

/-- The metadata of a side whose QPs are created. -/
def ConnComm.metadata (comm : ConnComm) (n : QpCounts) (sl : Int) (tc : Nat) : AddrMetadata :=
  { qpInfo := fillTo n.nqps (fun q => (comm.qps q).info) (fun _ => ⟨0, 0⟩)
    probingQpsInfo := fillTo n.nProbingQps (fun i => (comm.probingQps i).info) (fun _ => ⟨0, 0⟩)
    portRecoveryQpsInfo :=
      fillTo n.nPortRecoveryQps (fun i => (comm.portRecoveryQps i).info) (fun _ => ⟨0, 0⟩)
    devs := fillTo comm.ndevs (fun i => (comm.devs i).info) (fun _ => NcclIbDevInfo.zero)
    sl
    tc }

/-- `ncclIbSenderQpsCreate`, with `ncclIbResiliencySenderCreateQps` and
`ncclIbPortRecoverySenderQpsCreate`. -/
def senderCreate (nums : QpNums) (n : QpCounts) (comm : ConnComm) : ConnComm :=
  { comm with
    qps := fillTo n.nqps
      (fun q => createQp comm IBV_ACCESS_REMOTE_WRITE (nums.data q) (q % comm.ndevs) (comm.qps q))
      comm.qps
    probingQps := fillTo n.nProbingQps
      (fun i => createQp comm IBV_ACCESS_LOCAL_WRITE (nums.probing i) i (comm.probingQps i))
      comm.probingQps
    portRecoveryQps := fillTo n.nPortRecoveryQps
      (fun i => createQp comm IBV_ACCESS_LOCAL_WRITE (nums.recovery i) (i % comm.ndevs)
        (comm.portRecoveryQps i)) comm.portRecoveryQps }

/-- `ncclIbSenderQpsToRts`, with `ncclIbResiliencySenderQpsToRts` and
`ncclIbPortRecoverySenderQpsToRts`. -/
def senderToRts (n : QpCounts) (remMeta : AddrMetadata) (comm : ConnComm) : ConnComm :=
  { comm with
    qps := fillTo n.nqps (fun q => connectQp comm remMeta (remMeta.qpInfo q) (comm.qps q)) comm.qps
    probingQps := fillTo n.nProbingQps
      (fun i => connectQp comm remMeta (remMeta.probingQpsInfo i) (comm.probingQps i))
      comm.probingQps
    portRecoveryQps := fillTo n.nPortRecoveryQps
      (fun i => connectQp comm remMeta (remMeta.portRecoveryQpsInfo i) (comm.portRecoveryQps i))
      comm.portRecoveryQps }

/-- The device after its MTU is reduced to that of the peer. -/
def CommDev.reduceMtu (d : CommDev) (remDevInfo : NcclIbDevInfo) : CommDev :=
  { d with ibDev := { d.ibDev with
      portAttr := { d.ibDev.portAttr with
        active_mtu := min d.ibDev.portAttr.active_mtu remDevInfo.mtu } } }

/-- One turn of the loop of `ncclIbReceiverQpsCreateToRts`, which also reduces the MTU of
the device. -/
def receiverDataQp (ibFifoTc : Int) (nums : QpNums) (remMeta : AddrMetadata) (comm : ConnComm)
    (q : Nat) : ConnComm :=
  let devIndex := q % comm.ndevs
  let remQpInfo := remMeta.qpInfo q
  let remDevInfo := remMeta.devs remQpInfo.devIndex
  let own := (comm.devs devIndex).reduceMtu remDevInfo
  let flags := IBV_ACCESS_REMOTE_WRITE + IBV_ACCESS_REMOTE_ATOMIC + IBV_ACCESS_REMOTE_READ
  let qp := createQp comm flags (nums.data q) devIndex (comm.qps q)
  { comm with
    devs := Function.update comm.devs devIndex own
    qps := Function.update comm.qps q
      { qp with
        remDevIdx := remQpInfo.devIndex
        rtrAttr := connectedRtrAttr own remMeta remQpInfo own.ibDev.portAttr.active_mtu
          (receiverTc ibFifoTc remMeta remDevInfo) } }

/-- `ncclIbReceiverQpsCreateToRts`, with `ncclIbResiliencyReceiverQpsCreateToRts` and
`ncclIbPortRecoveryReceiverQpsCreateToRts`. -/
def receiverCreateToRts (ibFifoTc : Int) (nums : QpNums) (n : QpCounts) (remMeta : AddrMetadata)
    (comm : ConnComm) : ConnComm :=
  let comm := (List.range n.nqps).foldl (receiverDataQp ibFifoTc nums remMeta) comm
  { comm with
    probingQps := fillTo n.nProbingQps
      (fun i => connectQp comm remMeta (remMeta.probingQpsInfo i)
        (createQp comm IBV_ACCESS_REMOTE_READ (nums.probing i) (i % comm.ndevs)
          (comm.probingQps i))) comm.probingQps
    portRecoveryQps := fillTo n.nPortRecoveryQps
      (fun i => connectQp comm remMeta (remMeta.portRecoveryQpsInfo i)
        (createQp comm IBV_ACCESS_LOCAL_WRITE (nums.recovery i) (i % comm.ndevs)
          (comm.portRecoveryQps i))) comm.portRecoveryQps }

/-- The flush QP of a device, which is connected to itself. -/
def flushQp (nums : QpNums) (sl : Int) (tc : Nat) (comm : ConnComm) (i : Nat) : ConnQp :=
  let own := comm.devs i
  let flags := IBV_ACCESS_LOCAL_WRITE + IBV_ACCESS_REMOTE_READ
  { createQp comm flags (nums.flush i) i (comm.flushQps i) with
    rtrAttr :=
      { mtu := own.ibDev.portAttr.active_mtu
        linkLayer := own.ibDev.portAttr.link_layer
        tc := if own.ibDev.portAttr.link_layer = IBV_LINK_LAYER_ETHERNET then tc else 255
        sl
        remoteQpNum := nums.flush i
        remoteLid := own.ibDev.portAttr.lid
        remoteGid := own.gidInfo.localGid
        localIbPort := own.ibDev.portNum
        localPortFlags := own.ibDev.portAttr.flags
        localGid := own.gidInfo.localGid
        localGidIndex := own.gidInfo.localGidIndex } }

/-- `ncclIbCreateFlushQp`. -/
def ncclIbCreateFlushQp (nums : QpNums) (sl : Int) (tc : Nat) (comm : ConnComm) : ConnComm :=
  { comm with flushQps := fillTo comm.ndevs (flushQp nums sl tc comm) comm.flushQps }

/-! ## The moves -/

/-- The two sides of a connection before it, and what the sender and the provider add. -/
structure ConnInput where
  sender : ConnComm
  receiver : ConnComm
  senderNums : QpNums
  receiverNums : QpNums
  nqps : Nat
  failover : Bool
  recovery : Bool
  sl : Int
  tc : Nat
  ibFifoTc : Int

/-- The QPs of the connection. `ncclIbResiliencyDeviceNumSet` sets the last two. -/
def ConnInput.counts (i : ConnInput) : QpCounts where
  nqps := i.nqps
  nProbingQps := if i.failover then i.sender.ndevs else 0
  nPortRecoveryQps := if i.failover ∧ i.recovery then max i.sender.ndevs i.receiver.ndevs else 0

/-- The sender with its QPs, and the metadata that it sends. -/
def ConnInput.created (i : ConnInput) : ConnComm := senderCreate i.senderNums i.counts i.sender

def ConnInput.senderMeta (i : ConnInput) : AddrMetadata := i.created.metadata i.counts i.sl i.tc

/-- The receiver with all its QPs. The flush QPs come with the first flush. -/
def ConnInput.accepted (i : ConnInput) : ConnComm :=
  ncclIbCreateFlushQp i.receiverNums i.sl i.tc
    (receiverCreateToRts i.ibFifoTc i.receiverNums i.counts i.senderMeta i.receiver)

def ConnInput.connected (i : ConnInput) : ConnComm :=
  senderToRts i.counts (i.accepted.metadata i.counts i.sl i.tc) i.created

/-- A move of a QP to RTR: the device that the QP was created on, and the QP and the
device at its other end. A flush QP is its own other end. -/
structure QpMove where
  qp : ConnQp
  own : CommDev
  peer : CommDev
  peerQpn : Nat
  loopback : Bool

/-- The move of a QP whose other end is this QP of the other side. -/
def moveTo (comm other : ConnComm) (qp peerQp : ConnQp) : QpMove :=
  ⟨qp, comm.devs qp.devIndex, other.devs peerQp.devIndex, peerQp.qpn, false⟩

/-- The moves of a side. QP number `i` of a kind is connected to QP number `i` of the
same kind of the other side. -/
def sideMoves (n : QpCounts) (comm other : ConnComm) : List QpMove :=
  (List.range n.nqps).map (fun q => moveTo comm other (comm.qps q) (other.qps q)) ++
    (List.range n.nProbingQps).map
      (fun i => moveTo comm other (comm.probingQps i) (other.probingQps i)) ++
    (List.range n.nPortRecoveryQps).map
      (fun i => moveTo comm other (comm.portRecoveryQps i) (other.portRecoveryQps i))

def flushMoves (comm : ConnComm) : List QpMove :=
  (List.range comm.ndevs).map (fun i =>
    ⟨comm.flushQps i, comm.devs i, comm.devs i, (comm.flushQps i).qpn, true⟩)

/-- The move after a failure: `ncclIbResiliencyQpReconfigure` takes the local GID from a
new snapshot of the device, and `ncclIbPortRecoveryQpsRestore` the remote one of a
flush QP. -/
def QpMove.again (m : QpMove) (gidInfo : NcclIbGidInfo) : QpMove :=
  let own := { m.own with gidInfo }
  { m with
    own
    peer := if m.loopback then own else m.peer
    qp := { m.qp with rtrAttr := { m.qp.rtrAttr with
      localGid := gidInfo.localGid
      localGidIndex := gidInfo.localGidIndex
      remoteGid := if m.loopback then gidInfo.localGid else m.qp.rtrAttr.remoteGid } } }

/-- The moves of all QPs of a connection, the first ones and the later ones. -/
inductive Moved (i : ConnInput) : QpMove → Prop
  | sender {m : QpMove} : m ∈ sideMoves i.counts i.connected i.accepted → Moved i m
  | receiver {m : QpMove} : m ∈ sideMoves i.counts i.accepted i.created → Moved i m
  | flush {m : QpMove} : m ∈ flushMoves i.accepted → Moved i m
  | again {m : QpMove} (gidInfo : NcclIbGidInfo) : Moved i m → Moved i (m.again gidInfo)

/-- Every local value is from the device of the QP and every remote one from its peer. -/
structure RightAddress (m : QpMove) : Prop where
  localIbPort : m.qp.rtrAttr.localIbPort = m.own.ibDev.portNum
  localPortFlags : m.qp.rtrAttr.localPortFlags = m.own.ibDev.portAttr.flags
  localGid : m.qp.rtrAttr.localGid = m.own.gidInfo.localGid
  localGidIndex : m.qp.rtrAttr.localGidIndex = m.own.gidInfo.localGidIndex
  remoteQpNum : m.qp.rtrAttr.remoteQpNum = m.peerQpn
  remoteLid : m.qp.rtrAttr.remoteLid = m.peer.ibDev.portAttr.lid
  remoteGid : m.qp.rtrAttr.remoteGid = m.peer.gidInfo.localGid
  port_num : (ncclIbQpRtr m.qp.rtrAttr).ah_attr.port_num = m.qp.initAttr.portNum

/-! ## Where the values come from -/

/-- The values of a move, as the code takes them: the port comes from the peer. -/
structure Provenance (m : QpMove) : Prop where
  localIbPort : m.qp.rtrAttr.localIbPort = m.peer.ibDev.portNum
  initPort : m.qp.initAttr.portNum = m.own.ibDev.portNum
  localPortFlags : m.qp.rtrAttr.localPortFlags = m.own.ibDev.portAttr.flags
  localGid : m.qp.rtrAttr.localGid = m.own.gidInfo.localGid
  localGidIndex : m.qp.rtrAttr.localGidIndex = m.own.gidInfo.localGidIndex
  remoteQpNum : m.qp.rtrAttr.remoteQpNum = m.peerQpn
  remoteLid : m.qp.rtrAttr.remoteLid = m.peer.ibDev.portAttr.lid
  remoteGid : m.qp.rtrAttr.remoteGid = m.peer.gidInfo.localGid
  loopback : m.loopback = true → m.peer = m.own

theorem ncclIbQpRtr_port (rtrAttr : NcclIbQpRtrAttr) :
    (ncclIbQpRtr rtrAttr).ah_attr.port_num = rtrAttr.localIbPort := rfl

theorem Provenance.right_iff {m : QpMove} (h : Provenance m) :
    RightAddress m ↔ m.own.ibDev.portNum = m.peer.ibDev.portNum := by
  constructor
  · intro hright
    exact hright.localIbPort.symm.trans h.localIbPort
  · intro hports
    have hport := h.localIbPort.trans hports.symm
    refine ⟨hport, h.localPortFlags, h.localGid, h.localGidIndex, h.remoteQpNum, h.remoteLid,
      h.remoteGid, ?_⟩
    rw [ncclIbQpRtr_port, hport, h.initPort]

theorem Provenance.again {m : QpMove} (h : Provenance m) (gidInfo : NcclIbGidInfo) :
    Provenance (m.again gidInfo) := by
  unfold QpMove.again
  cases hloop : m.loopback with
  | false =>
    exact ⟨h.localIbPort, h.initPort, h.localPortFlags, rfl, rfl, h.remoteQpNum, h.remoteLid,
      h.remoteGid, fun hf => by cases hf⟩
  | true =>
    have hpeer := h.loopback hloop
    refine ⟨?_, h.initPort, h.localPortFlags, rfl, rfl, h.remoteQpNum, ?_, rfl, fun _ => ?_⟩
    · simpa [hpeer] using h.localIbPort
    · simpa [hpeer] using h.remoteLid
    · rfl

/-- The QP has taken its values from this device and from this part of the metadata. -/
structure Connects (own : CommDev) (remMeta : AddrMetadata) (remQpInfo : NcclIbQpInfo) (qp : ConnQp) :
    Prop where
  initPort : qp.initAttr.portNum = own.ibDev.portNum
  localIbPort : qp.rtrAttr.localIbPort = (remMeta.devs remQpInfo.devIndex).ib_port
  localPortFlags : qp.rtrAttr.localPortFlags = own.ibDev.portAttr.flags
  localGid : qp.rtrAttr.localGid = own.gidInfo.localGid
  localGidIndex : qp.rtrAttr.localGidIndex = own.gidInfo.localGidIndex
  remoteQpNum : qp.rtrAttr.remoteQpNum = remQpInfo.qpn
  remoteLid : qp.rtrAttr.remoteLid = (remMeta.devs remQpInfo.devIndex).lid
  remoteGid : qp.rtrAttr.remoteGid = (remMeta.devs remQpInfo.devIndex).gid

/-- A QP that has taken the metadata of its peer has its remote values from there. -/
theorem Connects.provenance {comm other : ConnComm} {remMeta : AddrMetadata} {qp peerQp : ConnQp}
    (h : Connects (comm.devs qp.devIndex) remMeta peerQp.info qp)
    (hdev : remMeta.devs peerQp.devIndex = (other.devs peerQp.devIndex).info) :
    Provenance (moveTo comm other qp peerQp) := by
  have hport := h.localIbPort
  have hlid := h.remoteLid
  have hgid := h.remoteGid
  simp only [ConnQp.info, hdev] at hport hlid hgid
  exact ⟨hport, h.initPort, h.localPortFlags, h.localGid, h.localGidIndex, h.remoteQpNum, hlid, hgid,
    fun hf => by cases hf⟩

theorem connectQp_connects {comm : ConnComm} {remMeta : AddrMetadata} {remQpInfo : NcclIbQpInfo}
    {qp : ConnQp} (hinit : qp.initAttr.portNum = (comm.devs qp.devIndex).ibDev.portNum) :
    Connects (comm.devs qp.devIndex) remMeta remQpInfo (connectQp comm remMeta remQpInfo qp) :=
  ⟨hinit, rfl, rfl, rfl, rfl, rfl, rfl, rfl⟩

/-! ## The receiver's data QPs -/

/-- What an address takes from a device. The MTU is no part of it. -/
structure SameAddress (d d' : CommDev) : Prop where
  portNum : d'.ibDev.portNum = d.ibDev.portNum
  flags : d'.ibDev.portAttr.flags = d.ibDev.portAttr.flags
  lid : d'.ibDev.portAttr.lid = d.ibDev.portAttr.lid
  gidInfo : d'.gidInfo = d.gidInfo

theorem SameAddress.trans {d d' d'' : CommDev} (h : SameAddress d d') (h' : SameAddress d' d'') :
    SameAddress d d'' :=
  ⟨h'.portNum.trans h.portNum, h'.flags.trans h.flags, h'.lid.trans h.lid, h'.gidInfo.trans h.gidInfo⟩

theorem Connects.same {own own' : CommDev} {remMeta : AddrMetadata} {remQpInfo : NcclIbQpInfo}
    {qp : ConnQp} (h : Connects own remMeta remQpInfo qp) (hsame : SameAddress own own') :
    Connects own' remMeta remQpInfo qp :=
  ⟨h.initPort.trans hsame.portNum.symm, h.localIbPort, h.localPortFlags.trans hsame.flags.symm,
    h.localGid.trans (congrArg _ hsame.gidInfo.symm),
    h.localGidIndex.trans (congrArg _ hsame.gidInfo.symm), h.remoteQpNum, h.remoteLid, h.remoteGid⟩

/-- The comm after the first `k` turns of the loop. -/
structure DataDone (nums : QpNums) (remMeta : AddrMetadata) (comm : ConnComm) (k : Nat) (c : ConnComm) :
    Prop where
  ndevs : c.ndevs = comm.ndevs
  devs : ∀ d, SameAddress (comm.devs d) (c.devs d)
  number : ∀ q < k, (c.qps q).qpn = nums.data q ∧ (c.qps q).devIndex = q % comm.ndevs
  connects : ∀ q < k, Connects (c.devs (c.qps q).devIndex) remMeta (remMeta.qpInfo q) (c.qps q)

theorem DataDone.turn {ibFifoTc : Int} {nums : QpNums} {remMeta : AddrMetadata} {comm c : ConnComm}
    {k : Nat} (h : DataDone nums remMeta comm k c) :
    DataDone nums remMeta comm (k + 1) (receiverDataQp ibFifoTc nums remMeta c k) := by
  have hdevs : ∀ d, SameAddress (c.devs d) ((receiverDataQp ibFifoTc nums remMeta c k).devs d) := by
    intro d
    unfold receiverDataQp
    simp only [Function.update_apply]
    split
    · rename_i hd
      subst hd
      exact ⟨rfl, rfl, rfl, rfl⟩
    · exact ⟨rfl, rfl, rfl, rfl⟩
  have hqp : ∀ q, q ≠ k → (receiverDataQp ibFifoTc nums remMeta c k).qps q = c.qps q :=
    fun q hq => Function.update_of_ne hq ..
  refine ⟨h.ndevs, fun d => (h.devs d).trans (hdevs d), fun q hq => ?_, fun q hq => ?_⟩
  · rcases Nat.lt_succ_iff_lt_or_eq.mp hq with hlt | rfl
    · rw [hqp q (Nat.ne_of_lt hlt)]
      exact h.number q hlt
    · rw [← h.ndevs]
      simp [receiverDataQp, createQp]
  · rcases Nat.lt_succ_iff_lt_or_eq.mp hq with hlt | rfl
    · rw [hqp q (Nat.ne_of_lt hlt)]
      exact (h.connects q hlt).same (hdevs _)
    · simp only [receiverDataQp, createQp, Function.update_self]
      exact ⟨rfl, rfl, rfl, rfl, rfl, rfl, rfl, rfl⟩

theorem dataDone (ibFifoTc : Int) (nums : QpNums) (remMeta : AddrMetadata) (comm : ConnComm) (k : Nat) :
    DataDone nums remMeta comm k ((List.range k).foldl (receiverDataQp ibFifoTc nums remMeta) comm) := by
  induction k with
  | zero =>
    exact ⟨rfl, fun _ => ⟨rfl, rfl, rfl, rfl⟩, fun q hq => absurd hq (Nat.not_lt_zero q),
      fun q hq => absurd hq (Nat.not_lt_zero q)⟩
  | succ k ih =>
    rw [List.range_succ, List.foldl_append]
    exact ih.turn

/-! ## The two sides -/

/-- QP number `q` of this array has taken what the other side told of its own one. -/
def Pairs (comm other : ConnComm) (remMeta : AddrMetadata) (qp peerQp : ConnQp) : Prop :=
  Connects (comm.devs qp.devIndex) remMeta peerQp.info qp ∧ peerQp.devIndex < other.ndevs

theorem sideMoves_provenance {n : QpCounts} {comm other : ConnComm} {remMeta : AddrMetadata}
    (hdevs : ∀ d < other.ndevs, remMeta.devs d = (other.devs d).info)
    (hdata : ∀ q < n.nqps, Pairs comm other remMeta (comm.qps q) (other.qps q))
    (hprobing : ∀ i < n.nProbingQps, Pairs comm other remMeta (comm.probingQps i) (other.probingQps i))
    (hrecovery : ∀ i < n.nPortRecoveryQps,
      Pairs comm other remMeta (comm.portRecoveryQps i) (other.portRecoveryQps i))
    {m : QpMove} (hm : m ∈ sideMoves n comm other) : Provenance m := by
  have hpair : ∀ {qp peerQp : ConnQp}, Pairs comm other remMeta qp peerQp →
      Provenance (moveTo comm other qp peerQp) := by
    rintro qp peerQp ⟨hconnects, hlt⟩
    exact hconnects.provenance (hdevs _ hlt)
  simp only [sideMoves, List.mem_append, List.mem_map, List.mem_range] at hm
  rcases hm with (⟨q, hq, rfl⟩ | ⟨i, hi, rfl⟩) | ⟨i, hi, rfl⟩
  · exact hpair (hdata q hq)
  · exact hpair (hprobing i hi)
  · exact hpair (hrecovery i hi)

section
variable (i : ConnInput)

theorem senderMeta_devs {d : Nat} (hd : d < i.created.ndevs) :
    i.senderMeta.devs d = (i.created.devs d).info := if_pos hd

theorem receiverMeta_devs {d : Nat} (hd : d < i.accepted.ndevs) :
    (i.accepted.metadata i.counts i.sl i.tc).devs d = (i.accepted.devs d).info := if_pos hd

/-- The comm of the receiver after the loop over its data QPs. -/
def ConnInput.dataConnected : ConnComm :=
  (List.range i.nqps).foldl (receiverDataQp i.ibFifoTc i.receiverNums i.senderMeta) i.receiver

theorem dataConnected_done :
    DataDone i.receiverNums i.senderMeta i.receiver i.nqps i.dataConnected := dataDone ..

theorem accepted_fields : i.accepted.ndevs = i.receiver.ndevs ∧
    i.accepted.devs = i.dataConnected.devs ∧ i.accepted.qps = i.dataConnected.qps :=
  ⟨(dataConnected_done i).ndevs, rfl, rfl⟩

theorem accepted_probing {j : Nat} (hj : j < i.counts.nProbingQps) :
    i.accepted.probingQps j = connectQp i.dataConnected i.senderMeta (i.senderMeta.probingQpsInfo j)
      (createQp i.dataConnected IBV_ACCESS_REMOTE_READ (i.receiverNums.probing j)
        (j % i.dataConnected.ndevs) (i.dataConnected.probingQps j)) := if_pos hj

theorem accepted_recovery {j : Nat} (hj : j < i.counts.nPortRecoveryQps) :
    i.accepted.portRecoveryQps j =
      connectQp i.dataConnected i.senderMeta (i.senderMeta.portRecoveryQpsInfo j)
        (createQp i.dataConnected IBV_ACCESS_LOCAL_WRITE (i.receiverNums.recovery j)
          (j % i.dataConnected.ndevs) (i.dataConnected.portRecoveryQps j)) := if_pos hj

theorem created_data {q : Nat} (hq : q < i.nqps) :
    i.created.qps q = createQp i.sender IBV_ACCESS_REMOTE_WRITE (i.senderNums.data q)
      (q % i.sender.ndevs) (i.sender.qps q) := if_pos hq

theorem created_probing {j : Nat} (hj : j < i.counts.nProbingQps) :
    i.created.probingQps j = createQp i.sender IBV_ACCESS_LOCAL_WRITE (i.senderNums.probing j) j
      (i.sender.probingQps j) := if_pos hj

theorem created_recovery {j : Nat} (hj : j < i.counts.nPortRecoveryQps) :
    i.created.portRecoveryQps j = createQp i.sender IBV_ACCESS_LOCAL_WRITE (i.senderNums.recovery j)
      (j % i.sender.ndevs) (i.sender.portRecoveryQps j) := if_pos hj

theorem probing_lt {j : Nat} (hj : j < i.counts.nProbingQps) : j < i.sender.ndevs := by
  simp only [ConnInput.counts] at hj
  split at hj
  · exact hj
  · exact absurd hj (Nat.not_lt_zero j)

theorem dataConnected_dev_lt (j : Nat) : j % i.dataConnected.ndevs < i.accepted.ndevs :=
  Nat.mod_lt _ i.dataConnected.pos

theorem receiver_provenance {m : QpMove} (hm : m ∈ sideMoves i.counts i.accepted i.created) :
    Provenance m := by
  apply sideMoves_provenance (fun d hd => senderMeta_devs i hd) ?_ ?_ ?_ hm
  · intro q hq
    have hconnects := (dataConnected_done i).connects q hq
    have hinfo : i.senderMeta.qpInfo q = (i.created.qps q).info := if_pos hq
    rw [hinfo] at hconnects
    refine ⟨hconnects, ?_⟩
    rw [created_data i hq]
    exact Nat.mod_lt _ i.sender.pos
  · intro j hj
    have hinfo : i.senderMeta.probingQpsInfo j = (i.created.probingQps j).info := if_pos hj
    rw [accepted_probing i hj, hinfo]
    refine ⟨connectQp_connects rfl, ?_⟩
    rw [created_probing i hj]
    exact probing_lt i hj
  · intro j hj
    have hinfo : i.senderMeta.portRecoveryQpsInfo j = (i.created.portRecoveryQps j).info :=
      if_pos hj
    rw [accepted_recovery i hj, hinfo]
    refine ⟨connectQp_connects rfl, ?_⟩
    rw [created_recovery i hj]
    exact Nat.mod_lt _ i.sender.pos

theorem sender_provenance {m : QpMove} (hm : m ∈ sideMoves i.counts i.connected i.accepted) :
    Provenance m := by
  apply sideMoves_provenance (fun d hd => receiverMeta_devs i hd) ?_ ?_ ?_ hm
  · intro q hq
    have hinfo : (i.accepted.metadata i.counts i.sl i.tc).qpInfo q = (i.accepted.qps q).info :=
      if_pos hq
    have hqp : i.connected.qps q = connectQp i.created (i.accepted.metadata i.counts i.sl i.tc)
        ((i.accepted.metadata i.counts i.sl i.tc).qpInfo q) (i.created.qps q) := if_pos hq
    rw [hqp, hinfo]
    refine ⟨connectQp_connects ?_, ?_⟩
    · rw [created_data i hq]
      rfl
    · rw [(accepted_fields i).2.2, ((dataConnected_done i).number q hq).2, (accepted_fields i).1]
      exact Nat.mod_lt _ i.receiver.pos
  · intro j hj
    have hinfo : (i.accepted.metadata i.counts i.sl i.tc).probingQpsInfo j =
        (i.accepted.probingQps j).info := if_pos hj
    have hqp : i.connected.probingQps j = connectQp i.created (i.accepted.metadata i.counts i.sl i.tc)
        ((i.accepted.metadata i.counts i.sl i.tc).probingQpsInfo j) (i.created.probingQps j) :=
      if_pos hj
    rw [hqp, hinfo]
    refine ⟨connectQp_connects ?_, ?_⟩
    · rw [created_probing i hj]
      rfl
    · rw [accepted_probing i hj]
      exact dataConnected_dev_lt i j
  · intro j hj
    have hinfo : (i.accepted.metadata i.counts i.sl i.tc).portRecoveryQpsInfo j =
        (i.accepted.portRecoveryQps j).info := if_pos hj
    have hqp : i.connected.portRecoveryQps j =
        connectQp i.created (i.accepted.metadata i.counts i.sl i.tc)
          ((i.accepted.metadata i.counts i.sl i.tc).portRecoveryQpsInfo j)
          (i.created.portRecoveryQps j) := if_pos hj
    rw [hqp, hinfo]
    refine ⟨connectQp_connects ?_, ?_⟩
    · rw [created_recovery i hj]
      rfl
    · rw [accepted_recovery i hj]
      exact dataConnected_dev_lt i j

theorem flush_provenance {m : QpMove} (hm : m ∈ flushMoves i.accepted) : Provenance m := by
  obtain ⟨j, hj, rfl⟩ := List.mem_map.mp hm
  have hlt : j < i.dataConnected.ndevs := List.mem_range.mp hj
  have hqp : i.accepted.flushQps j = flushQp i.receiverNums i.sl i.tc
      (receiverCreateToRts i.ibFifoTc i.receiverNums i.counts i.senderMeta i.receiver) j :=
    if_pos hlt
  simp only [hqp]
  exact ⟨rfl, rfl, rfl, rfl, rfl, rfl, rfl, rfl, fun _ => rfl⟩

theorem moved_provenance {m : QpMove} (h : Moved i m) : Provenance m := by
  induction h with
  | sender hm => exact sender_provenance i hm
  | receiver hm => exact receiver_provenance i hm
  | flush hm => exact flush_provenance i hm
  | again gidInfo _ ih => exact ih.again gidInfo

end

/-! ## The law -/

/-- A QP is moved to RTR with the right address exactly when its two devices have the
same port number. -/
theorem an_address_is_right_iff_the_ports_agree (i : ConnInput) (m : QpMove) (h : Moved i m) :
    RightAddress m ↔ m.own.ibDev.portNum = m.peer.ibDev.portNum :=
  (moved_provenance i h).right_iff

/-- A device of a comm that is port `portNum` of its card. -/
def portDev (portNum lid gid : Nat) : CommDev where
  ibDev := { context := 1, portNum, portAttr := ⟨lid, 5, IBV_LINK_LAYER_INFINIBAND, 0, 2⟩
             gidInfo := ⟨IBV_LINK_LAYER_INFINIBAND, gid, 0⟩, pciPath := none, fullPciPath := []
             railId := -1, planeId := -1, planeIdx := 0, realPort := 0, fatalErrorCount := 0 }
  gidInfo := ⟨IBV_LINK_LAYER_INFINIBAND, gid, 0⟩
  pkeyIndex := 0

/-- A comm with this one device. -/
def oneDevComm (d : CommDev) : ConnComm :=
  ⟨1, Nat.zero_lt_one, fun _ => d, fun _ => ConnQp.zero, fun _ => ConnQp.zero,
    fun _ => ConnQp.zero, fun _ => ConnQp.zero⟩

/-- One QP between port 1 of the sender and this port of the receiver. -/
def onePair (portNum : Nat) : ConnInput where
  sender := oneDevComm (portDev 1 11 101)
  receiver := oneDevComm (portDev portNum 12 102)
  senderNums := ⟨fun _ => 201, fun _ => 0, fun _ => 0, fun _ => 0⟩
  receiverNums := ⟨fun _ => 202, fun _ => 0, fun _ => 0, fun _ => 0⟩
  nqps := 1
  failover := false
  recovery := false
  sl := 0
  tc := 0
  ibFifoTc := -1

/-- The move of the sender's QP. -/
def senderMove (portNum : Nat) : QpMove :=
  moveTo (onePair portNum).connected (onePair portNum).accepted ((onePair portNum).connected.qps 0)
    ((onePair portNum).accepted.qps 0)

theorem moved_senderMove (portNum : Nat) : Moved (onePair portNum) (senderMove portNum) := by
  apply Moved.sender
  simp [sideMoves, senderMove, ConnInput.counts, onePair]

theorem two_first_ports_have_right_addresses : RightAddress (senderMove 1) :=
  (an_address_is_right_iff_the_ports_agree (onePair 1) (senderMove 1) (moved_senderMove 1)).mpr rfl

/-- The sender's QP, initialised with port 1, is moved with port 2 in its address. -/
theorem a_second_port_is_taken_for_the_local_one : Moved (onePair 2) (senderMove 2) ∧
    ¬RightAddress (senderMove 2) ∧ (senderMove 2).qp.initAttr.portNum = 1 ∧
      (ncclIbQpRtr (senderMove 2).qp.rtrAttr).ah_attr.port_num = 2 :=
  ⟨moved_senderMove 2, fun h => absurd h.localIbPort (by decide), rfl, rfl⟩

end net_ib
