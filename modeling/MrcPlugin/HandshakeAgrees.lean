-- What the two sides of a handshake have when both calls have returned a comm. Each QP is
-- connected to the QP of the same number of the peer, and each side has the addresses and
-- the rkeys of the memory that the peer registered.
import MrcPlugin.HandshakeTogether
import MrcPlugin.HandshakeTold
import MrcPlugin.ReplayLayout

namespace net_ib.wire

open p2p resiliency lifecycle streams layouts

variable {i : WireInput}

/-! ## The QPs of the two comms -/

/-- The QP is connected to the QP `peer` of the other comm. -/
structure Joined (other : ConnComm) (qp peer : ConnQp) : Prop where
  remoteQpNum : qp.rtrAttr.remoteQpNum = peer.qpn
  remoteLid : qp.rtrAttr.remoteLid = (other.devs peer.devIndex).ibDev.portAttr.lid
  remoteGid : qp.rtrAttr.remoteGid = (other.devs peer.devIndex).gidInfo.localGid

/-- Each QP is connected to the one of its kind and its number. -/
structure JoinedAll (n : QpCounts) (comm other : ConnComm) : Prop where
  data : ∀ q < n.nqps, Joined other (comm.qps q) (other.qps q)
  probing : ∀ k < n.nProbingQps, Joined other (comm.probingQps k) (other.probingQps k)
  recovery : ∀ k < n.nPortRecoveryQps,
    Joined other (comm.portRecoveryQps k) (other.portRecoveryQps k)

/-- The QPs have the numbers of the provider, and their devices go round. -/
structure Listed (n : QpCounts) (nums : QpNums) (ndevs : Nat) (comm : ConnComm) : Prop where
  data : ∀ q < n.nqps, (comm.qps q).info = ⟨nums.data q, q % ndevs⟩
  probing : ∀ k < n.nProbingQps, (comm.probingQps k).info = ⟨nums.probing k, k % ndevs⟩
  recovery : ∀ k < n.nPortRecoveryQps,
    (comm.portRecoveryQps k).info = ⟨nums.recovery k, k % ndevs⟩
  ndevs : comm.ndevs = ndevs

/-- The QPs are connected with what the metadata tells. -/
structure Wired (n : QpCounts) (remMeta : Metadata) (comm : ConnComm) : Prop where
  data : ∀ q < n.nqps, Connects (comm.devs (comm.qps q).devIndex) remMeta.addrs
    (remMeta.qpInfo q) (comm.qps q)
  probing : ∀ k < n.nProbingQps, Connects (comm.devs (comm.probingQps k).devIndex) remMeta.addrs
    (remMeta.probingQpsInfo k) (comm.probingQps k)
  recovery : ∀ k < n.nPortRecoveryQps, Connects (comm.devs (comm.portRecoveryQps k).devIndex)
    remMeta.addrs (remMeta.portRecoveryQpsInfo k) (comm.portRecoveryQps k)

/-- The metadata tells the addresses of the devices. -/
def Describes (m : Metadata) (comm : ConnComm) : Prop :=
  ∀ d < comm.ndevs, (m.devs d).lid = (comm.devs d).ibDev.portAttr.lid ∧
    (m.devs d).gid = (comm.devs d).gidInfo.localGid

section
variable {n : QpCounts} {nums : QpNums} {ndevs : Nat} {devs : Nat → NcclIbDevInfo}
  {m remMeta : Metadata} {comm other : ConnComm}

theorem joined {own : CommDev} {info : NcclIbQpInfo} {qp peer : ConnQp}
    (h : Connects own m.addrs info qp) (hinfo : info = peer.info) (hdesc : Describes m other)
    (hdev : peer.devIndex < other.ndevs) : Joined other qp peer := by
  subst hinfo
  obtain ⟨hlid, hgid⟩ := hdesc _ hdev
  exact ⟨h.remoteQpNum, h.remoteLid.trans hlid, h.remoteGid.trans hgid⟩

/-- What a side tells of its QPs is what its QPs are. -/
theorem Wired.joinedAll (h : Wired n m comm) (ht : Told n nums ndevs devs m)
    (hl : Listed n nums ndevs other) (hdesc : Describes m other) : JoinedAll n comm other := by
  have hlt : ∀ {qp : ConnQp} {qpn k : Nat}, qp.info = ⟨qpn, k % ndevs⟩ →
      qp.devIndex < other.ndevs := by
    intro qp qpn k hqp
    rw [show qp.devIndex = k % ndevs from congrArg NcclIbQpInfo.devIndex hqp, ← hl.ndevs]
    exact Nat.mod_lt _ other.pos
  refine ⟨fun q hq => ?_, fun k hk => ?_, fun k hk => ?_⟩
  · refine joined (h.data q hq) ?_ hdesc (hlt (hl.data q hq))
    rw [ht.qps, hl.data q hq]
    exact if_pos hq
  · refine joined (h.probing k hk) ?_ hdesc (hlt (hl.probing k hk))
    rw [ht.probing, hl.probing k hk]
    exact if_pos hk
  · refine joined (h.recovery k hk) ?_ hdesc (hlt (hl.recovery k hk))
    rw [ht.recovery, hl.recovery k hk]
    exact if_pos hk

/-- The QPs of the connecting side in the end. Probing QP `k` is on device `k`. -/
theorem sender_listed (hprobing : n.nProbingQps ≤ comm.ndevs) :
    Listed n nums comm.ndevs (senderToRts n remMeta.addrs (senderCreate nums n comm)) := by
  refine ⟨fun q hq => ?_, fun k hk => ?_, fun k hk => ?_, rfl⟩
  · simp only [senderToRts, senderCreate, fillTo, if_pos hq]
    rfl
  · simp only [senderToRts, senderCreate, fillTo, if_pos hk, connectQp, createQp, ConnQp.info]
    rw [Nat.mod_eq_of_lt (by omega)]
  · simp only [senderToRts, senderCreate, fillTo, if_pos hk]
    rfl

theorem sender_wired : Wired n remMeta (senderToRts n remMeta.addrs (senderCreate nums n comm)) := by
  refine ⟨fun q hq => ?_, fun k hk => ?_, fun k hk => ?_⟩
  · simp only [senderToRts, senderCreate, fillTo, if_pos hq]
    exact connectQp_connects rfl
  · simp only [senderToRts, senderCreate, fillTo, if_pos hk]
    exact connectQp_connects rfl
  · simp only [senderToRts, senderCreate, fillTo, if_pos hk]
    exact connectQp_connects rfl

theorem receiver_listed (ibFifoTc : Int) :
    Listed n nums comm.ndevs (receiverCreateToRts ibFifoTc nums n remMeta.addrs comm) := by
  have hdone := dataDone ibFifoTc nums remMeta.addrs comm n.nqps
  refine ⟨fun q hq => ?_, fun k hk => ?_, fun k hk => ?_, hdone.ndevs⟩
  · obtain ⟨hqpn, hdev⟩ := hdone.number q hq
    unfold ConnQp.info
    rw [← hqpn, ← hdev]
    rfl
  · simp only [receiverCreateToRts, fillTo, if_pos hk, connectQp, createQp, ConnQp.info,
      hdone.ndevs]
  · simp only [receiverCreateToRts, fillTo, if_pos hk, connectQp, createQp, ConnQp.info,
      hdone.ndevs]

theorem receiver_wired (ibFifoTc : Int) :
    Wired n remMeta (receiverCreateToRts ibFifoTc nums n remMeta.addrs comm) := by
  have hdone := dataDone ibFifoTc nums remMeta.addrs comm n.nqps
  refine ⟨hdone.connects, fun k hk => ?_, fun k hk => ?_⟩
  · simp only [receiverCreateToRts, fillTo, if_pos hk]
    exact connectQp_connects rfl
  · simp only [receiverCreateToRts, fillTo, if_pos hk]
    exact connectQp_connects rfl

end

/-! ## The agreement -/

/-- What a side tells of a device has the types of `ncclIbDevInfo`. -/
structure CommDevTyped (d : CommDev) : Prop where
  lid : d.ibDev.portAttr.lid < 2 ^ 32
  ib_port : d.ibDev.portNum < 2 ^ 8
  mtu : d.ibDev.portAttr.active_mtu < 2 ^ 32
  link_layer : d.gidInfo.link_layer < 2 ^ 8
  gid : d.gidInfo.localGid < 2 ^ 128

/-- The list of a merged device, which has one device at least. -/
structure DevListTyped (l : DevList) : Prop where
  pos : 0 < l.ndevs
  le : l.ndevs ≤ NCCL_IB_MAX_DEVS_PER_NIC
  devs : ∀ d, l.devs d < 2 ^ 32
  devs_zero : ∀ d, NCCL_IB_MAX_DEVS_PER_NIC ≤ d → l.devs d = 0

/-- What a host says of its devices has the type of its field. -/
structure WireHost.Typed (w : WireHost) : Prop where
  devs : ∀ mergedDev ∈ w.host.mergedDevs, ∀ ibDevN ∈ mergedDev.devs, ibDevN < 2 ^ 32
  ibDevs : ∀ ibDevN, CommDevTyped (w.ibDevs ibDevN)
  currSpeed : ∀ ibDevN, w.currSpeed ibDevN < 2 ^ 64

/-- All that the two sides tell each other has the type of its field. -/
structure WireInput.Typed (i : WireInput) : Prop where
  sender : i.sender.Typed
  receiver : i.receiver.Typed
  sendNums : NumsTyped i.sendNums
  recvNums : NumsTyped i.recvNums
  ctsFifoAddr : i.sendMem.ctsFifoAddr < 2 ^ 64
  ctsFifoRkey : ∀ d, i.sendMem.ctsFifoRkey d < 2 ^ 32
  remoteSpeed : ∀ x ∈ i.sendMem.remoteSpeed, x.1 < 2 ^ 64 ∧ x.2 < 2 ^ 32
  cmplsRecordsAddr : i.recvMem.cmplsRecordsAddr < 2 ^ 64
  cmplsRecordsRkey : ∀ d, i.recvMem.cmplsRecordsRkey d < 2 ^ 32
  sl : -2 ^ 31 ≤ i.sl ∧ i.sl < 2 ^ 31
  tc : i.tc < 2 ^ 32

/-- Both sides have the same parameters. -/
structure WireInput.SameParams (i : WireInput) : Prop where
  nQpsPerDev : i.receiver.host.nQpsPerDev = i.sender.host.nQpsPerDev
  resiliency : i.recv.res.comm.base.resiliency = i.send.res.comm.base.resiliency
  recovery : i.recv.res.res.recoveryEnabled = i.send.res.res.base.recoveryEnabled

/-- The two comms of a connection belong together. -/
structure Agree (i : WireInput) (s : SenderComm) (r : ReceiverComm) : Prop where
  counts : s.counts = r.counts
  nDataQps : s.res.comm.base.nDataQps = r.res.comm.base.nDataQps
  sender : JoinedAll s.counts s.conn r.conn
  receiver : JoinedAll s.counts r.conn s.conn
  senderDev : ∀ q < s.counts.nqps,
    (s.res.comm.base.qps q).remDevIdx = (r.res.comm.base.qps q).devIndex
  receiverDev : ∀ q < s.counts.nqps,
    (r.res.comm.base.qps q).remDevIdx = (s.res.comm.base.qps q).devIndex
  ctsFifo : r.res.comm.remCtsFifo.addr = i.sendMem.ctsFifoAddr ∧
    ∀ d < s.conn.ndevs, (r.res.comm.base.remDevs d).rkey = i.sendMem.ctsFifoRkey d
  cmplsRecords : s.res.comm.remCmplsRecords.addr = i.recvMem.cmplsRecordsAddr ∧
    ∀ d < r.conn.ndevs,
      s.res.comm.remCmplsRecords.rkeys d = i.recvMem.cmplsRecordsRkey d
  ready : s.res.comm.base.ready = true ∧ r.res.comm.base.ready = true

theorem DevListTyped.fits {l : DevList} (h : DevListTyped l) : devListLayout.Fits l := by
  have := h.le
  unfold NCCL_IB_MAX_DEVS_PER_NIC at this
  exact devList_fits (by omega) (fun d _ => h.devs d) h.devs_zero

/-- The list of a merged device of the host. -/
theorem devList_typed {w : WireHost} (h : w.Typed) {dev : Nat} {mergedDev : NcclIbMergedDev}
    (hfound : w.host.mergedDevs[dev]? = some mergedDev) : DevListTyped (devList w mergedDev) := by
  have hmem := List.mem_of_getElem? hfound
  refine ⟨mergedDev.pos, mergedDev.le, fun d => ?_, fun d hd => ?_⟩
  · show mergedDev.devs.getD d 0 < 2 ^ 32
    rw [List.getD_eq_getElem?_getD]
    cases hd : mergedDev.devs[d]? with
    | none => decide
    | some ibDevN => exact h.devs _ hmem _ (List.mem_of_getElem? hd)
  · show mergedDev.devs.getD d 0 = 0
    rw [List.getD_eq_getElem?_getD, List.getElem?_eq_none (Nat.le_trans mergedDev.le hd)]
    rfl

/-- The MTU of a device never grows in the loop of the receiver. -/
theorem dataMtu_le (ibFifoTc : Int) (nums : QpNums) (remMeta : AddrMetadata) (comm : ConnComm)
    (k d : Nat) :
    (((List.range k).foldl (receiverDataQp ibFifoTc nums remMeta) comm).devs d).ibDev.portAttr.active_mtu
      ≤ (comm.devs d).ibDev.portAttr.active_mtu := by
  induction k with
  | zero => exact Nat.le_refl _
  | succ k ih =>
    rw [List.range_succ, List.foldl_append]
    refine Nat.le_trans ?_ ih
    simp only [List.foldl_cons, List.foldl_nil, receiverDataQp, Function.update_apply]
    split
    · rename_i hd
      rw [hd]
      exact Nat.min_le_left _ _
    · exact Nat.le_refl _

/-- The devices of the receiver in the end. -/
theorem receiver_commDevs (ibFifoTc : Int) (nums : QpNums) (n : QpCounts) (remMeta : AddrMetadata)
    {comm : ConnComm} (h : ∀ d, CommDevTyped (comm.devs d)) (d : Nat) :
    CommDevTyped ((receiverCreateToRts ibFifoTc nums n remMeta comm).devs d) := by
  have hsame := (dataDone ibFifoTc nums remMeta comm n.nqps).devs d
  have hmtu := dataMtu_le ibFifoTc nums remMeta comm n.nqps d
  refine ⟨?_, ?_, Nat.lt_of_le_of_lt hmtu (h d).mtu, ?_, ?_⟩
  · exact lt_of_eq_of_lt hsame.lid (h d).lid
  · exact lt_of_eq_of_lt hsame.portNum (h d).ib_port
  · exact lt_of_eq_of_lt (congrArg NcclIbGidInfo.link_layer hsame.gidInfo) (h d).link_layer
  · exact lt_of_eq_of_lt (congrArg NcclIbGidInfo.localGid hsame.gidInfo) (h d).gid

theorem CommDevTyped.devTyped {d : CommDev} (h : CommDevTyped d) {rkey currSpeed : Nat}
    (hrkey : rkey < 2 ^ 32) (hspeed : currSpeed < 2 ^ 64) :
    DevTyped { d.info with rkey, currSpeed } :=
  ⟨h.lid, h.ib_port, h.mtu, h.link_layer, h.gid, hrkey, devTyped_zero.remoteGid, hspeed,
    devTyped_zero.remSpeedBufRkey⟩

section
variable {s s0 : SenderComm} {r x y : ReceiverComm} {info info' : Metadata} {list : DevList}
  {mergedDev listed finalDev : NcclIbMergedDev}

/-- The connecting side has told `info`. Both lists were read as they were sent, and the
accepting side was `x` then. -/
structure ConnectGiven (i : WireInput) (mergedDev listed : NcclIbMergedDev) (x : ReceiverComm)
    (s0 s : SenderComm) (info : Metadata) : Prop where
  started : ∃ dev, connectingDev i = some dev ∧
    ConnectStarted i dev mergedDev i.send s0 (devList i.sender mergedDev)
  answered : AcceptListed i listed (devList i.sender mergedDev) i.recv x (devList i.receiver listed)
  told : ConnectTold i mergedDev (devList i.receiver listed) s0 s info

theorem connectListed_told (h : connectListed i = some (s, list)) :
    ∃ dev mergedDev, connectingDev i = some dev ∧ list = devList i.sender mergedDev ∧
      ConnectStarted i dev mergedDev i.send s (devList i.sender mergedDev) := by
  unfold connectListed at h
  obtain ⟨dev, hdev, h⟩ := Option.bind_eq_some_iff.mp h
  obtain ⟨mergedDev, hstarted⟩ := connectStart_spec h
  exact ⟨dev, mergedDev, hdev, hstarted.list, hstarted.list ▸ hstarted⟩

theorem acceptListed_told (ht : i.Typed) {dev : Nat}
    (hstarted : ConnectStarted i dev mergedDev i.send s0 (devList i.sender mergedDev))
    (hs : connectListed i = some (s0, devList i.sender mergedDev))
    (h : acceptListed i = some (x, list)) :
    ∃ listed, list = devList i.receiver listed ∧
      AcceptListed i listed (devList i.sender mergedDev) i.recv x (devList i.receiver listed) := by
  have hcopy : copy devListLayout (devList i.sender mergedDev) = devList i.sender mergedDev :=
    (devList_typed ht.sender hstarted.found).fits
  rw [accept.acceptListed_eq hs, hcopy] at h
  obtain ⟨listed, hlisted⟩ := acceptDevList_spec h
  exact ⟨listed, hlisted.list, hlisted.list ▸ hlisted⟩

theorem connectSent_told (ht : i.Typed) (h : connectSent i = some (s, info)) :
    ∃ mergedDev listed x s0, acceptListed i = some (x, devList i.receiver listed) ∧
      ConnectGiven i mergedDev listed x s0 s info := by
  obtain ⟨⟨⟨s0, list⟩, hs⟩, ⟨x, list'⟩, hr⟩ := connectSent_listed h
  obtain ⟨dev, mergedDev, hdev, rfl, hstarted⟩ := connectListed_told hs
  obtain ⟨listed, rfl, hlisted⟩ := acceptListed_told ht hstarted hs hr
  have hcopy : copy devListLayout (devList i.receiver listed) = devList i.receiver listed :=
    (devList_typed ht.receiver hlisted.found).fits
  rw [connect.connectSent_eq hdev hs hr, hcopy] at h
  exact ⟨mergedDev, listed, x, s0, hr, ⟨dev, hdev, hstarted⟩, hlisted,
    connectDevList_spec hstarted.found h⟩

theorem ConnectGiven.typed (ht : i.Typed) (h : ConnectGiven i mergedDev listed x s0 s info) :
    MetaTyped info := by
  obtain ⟨base, base', hex, -, -⟩ := h.told.counts
  have hspeed : (i.sendMem.remoteSpeed.map Prod.fst).getD 0 < 2 ^ 64 ∧
      (i.sendMem.remoteSpeed.map Prod.snd).getD 0 < 2 ^ 32 := by
    cases hx : i.sendMem.remoteSpeed with
    | none => exact ⟨by decide, by decide⟩
    | some x => exact ht.remoteSpeed x hx
  refine h.told.told.metaTyped ht.sendNums (nqps_le_of_allowed h.told.allowed) hex.probing_le
    hex.recovery_le mergedDev.pos mergedDev.le (fun d => ?_) ?_ ?_ ?_ ?_ ?_
  · exact (ht.sender.ibDevs _).devTyped (ht.ctsFifoRkey d) devTyped_zero.currSpeed
  · rw [h.told.addr]
    exact ht.ctsFifoAddr
  · rw [h.told.remSpeedBufAddr]
    exact hspeed.1
  · rw [h.told.remSpeedBufRkey]
    exact hspeed.2
  · rw [h.told.tc]
    exact ht.tc
  · rw [h.told.sl]
    exact ht.sl

/-- The accepting side has chosen its device and told `info'`. -/
structure AcceptGiven (i : WireInput) (info : Metadata) (x y r : ReceiverComm)
    (finalDev : NcclIbMergedDev) (info' : Metadata) : Prop where
  chosen : Chosen i.receiver info x y finalDev
  told : AcceptTold i info finalDev y r info'

/-- The base of a listed comm has the counts of the exchange. -/
theorem AcceptListed.base {rem : DevList} (h : AcceptListed i listed rem y x list) :
    x.res.comm.base.ndevs = listed.devs.length ∧
      (x.counts.nqps ≤ NCCL_IB_MAX_QPS → x.res.comm.base.nqps = some x.counts.nqps) ∧
      x.res.comm.base.nDataQps = some (max listed.devs.length rem.ndevs) ∧
      (x.res.comm.base.resiliency = false → x.counts.nProbingQps = 0) := by
  obtain ⟨base, base', hex, hndevs, hres, hcomm⟩ := h.counts
  rw [hcomm]
  simp only
  refine ⟨?_, hex.fits, ?_, fun hoff => ?_⟩
  · rw [hex.base, ← hndevs]
    rfl
  · rw [hex.base, ← hndevs]
    rfl
  · rw [hex.base] at hoff
    rw [hex.probing, if_neg]
    exact Bool.eq_false_iff.mp hoff

theorem acceptSent_told (ht : i.Typed) (hr : acceptListed i = some (x, devList i.receiver listed))
    (hs : connectSent i = some (s, info)) (hgiven : ConnectGiven i mergedDev listed x s0 s info)
    (h : acceptSent i = some (r, info')) : ∃ y finalDev, AcceptGiven i info x y r finalDev info' := by
  have hcopy : copy metadataLayout info = info := (hgiven.typed ht).copied
  rw [accept.acceptSent_eq hr hs, hcopy] at h
  obtain ⟨hndevs, hnqps, -, hprobing⟩ := hgiven.answered.base
  obtain ⟨y, finalDev, hchosen, htold⟩ := acceptMetadata_spec h
    (hgiven.answered.dev ▸ hgiven.answered.found) hndevs hnqps hprobing
  exact ⟨y, finalDev, hchosen, htold⟩

theorem AcceptGiven.typed (ht : i.Typed) (hmeta : MetaTyped info) {rem : DevList}
    (hlisted : AcceptListed i listed rem i.recv x list)
    (h : AcceptGiven i info x y r finalDev info') : MetaTyped info' := by
  obtain ⟨base, base', hex, -⟩ := hlisted.counts
  have hdevs : ∀ d, CommDevTyped (r.conn.devs d) := by
    intro d
    rw [h.told.conn]
    exact receiver_commDevs _ _ _ _ (fun d => ht.receiver.ibDevs _) d
  refine h.told.told.metaTyped ht.recvNums (nqps_le_of_allowed h.told.allowed) ?_ ?_ finalDev.pos
    finalDev.le
    (fun d => ?_) ?_ ?_ ?_ ?_ ?_
  · rw [h.chosen.counts]
    exact hex.probing_le
  · rw [h.chosen.counts]
    exact hex.recovery_le
  · exact (hdevs d).devTyped (ht.cmplsRecordsRkey d) (ht.receiver.currSpeed _)
  · rw [h.told.addr]
    exact ht.cmplsRecordsAddr
  · rw [h.told.remSpeedBufAddr]
    decide
  · rw [h.told.remSpeedBufRkey]
    decide
  · rw [h.told.tc]
    exact hmeta.tc
  · rw [h.told.sl]
    exact hmeta.sl

/-! ## The QPs of each side -/

/-- A comm has the counts and the QPs of a side. -/
structure SameSide (base : NcclIbNetCommBase) (n : QpCounts) (side : net_ib.Side) : Prop where
  ndevs : base.ndevs = side.base.ndevs
  nqps : base.nqps = side.base.nqps
  nDataQps : base.nDataQps = side.base.nDataQps
  created : side.created = (List.range n.nqps).map fun q => (q, (base.qps q).devIndex)

theorem sideCreate_same {w : WireHost} {base base' : NcclIbNetCommBase} {n : QpCounts}
    {nDataQps : Nat} (cqSize : Int) (hallowed : qpsAllowed w mergedDev n = true)
    (hndevs : base.ndevs = mergedDev.devs.length) (hnqps : base.nqps = some n.nqps)
    (hnDataQps : base.nDataQps = some nDataQps)
    (hdev : ∀ q < n.nqps, (base.qps q).devIndex = q % mergedDev.devs.length) :
    ∃ side, sideCreate w.host .willing base' mergedDev.devs n.nqps nDataQps cqSize = .ok side ∧
      SameSide base n side := by
  have hle := nqps_le_of_allowed hallowed
  have hu : u32 (n.nqps : Int) = n.nqps := by
    unfold u32
    unfold NCCL_IB_MAX_QPS at hle
    omega
  refine ⟨_, sideCreate_willing nDataQps cqSize fun q hq => hint_of_allowed hallowed (hu ▸ hq),
    hndevs, ?_, hnDataQps, ?_⟩
  · rw [hnqps]
    unfold NcclIbNetCommBase.withCounts
    simp only
    rw [if_neg (by omega), Int.toNat_natCast]
  · simp only [hu]
    refine List.map_congr_left fun q hq => ?_
    rw [hdev q (List.mem_range.mp hq)]

/-- The QPs of the connecting side are those of `ncclIbConnectImpl` with the length of the
peer's list. -/
theorem connectSent_side (ht : i.Typed) (hr : acceptListed i = some (x, list))
    (h : connectSent i = some (s, info)) :
    ∃ side, net_ib.ncclIbConnectImpl i.sender.host .willing i.send.res.comm.base i.sender.gids
        i.sender.gids i.listenGids i.sendDev list.ndevs = .ok side ∧
      SameSide s.res.comm.base s.counts side := by
  obtain ⟨mergedDev, listed, x', s0, hr', hgiven⟩ := connectSent_told ht h
  cases hr.symm.trans hr'
  obtain ⟨dev, hdev, hstarted⟩ := hgiven.started
  obtain ⟨base, base', hex, hndevs, -⟩ := hgiven.told.counts
  have hconnect : connectDev i.sender.host i.sender.gids i.listenGids i.sendDev = .ok dev := by
    unfold connectingDev at hdev
    cases hres : connectDev i.sender.host i.sender.gids i.listenGids i.sendDev with
    | ok d =>
      rw [hres] at hdev
      cases hdev
      rfl
    | error e =>
      rw [hres] at hdev
      cases hdev
  have hlt : ¬dev ≥ i.sender.host.mergedDevs.length :=
    Nat.not_le_of_lt (List.getElem?_eq_some_iff.mp hstarted.found).1
  have hmax := hex.maxNqps_eq (nqps_le_of_allowed hgiven.told.allowed)
  rw [hndevs] at hmax
  unfold net_ib.ncclIbConnectImpl
  simp only [hconnect, if_neg hlt, hstarted.found, hmax]
  exact sideCreate_same _ hgiven.told.allowed hgiven.told.ndevs hgiven.told.nqps
    hgiven.told.nDataQps hgiven.told.devIndex

/-- The QPs of the accepting side are those of `ncclIbAcceptImpl` with the length of the
peer's list and its metadata. -/
theorem acceptSent_side (ht : i.Typed) (hl : connectListed i = some (s0, list))
    (hs : connectSent i = some (s, info)) (h : acceptSent i = some (r, info')) :
    ∃ side, net_ib.ncclIbAcceptImpl i.receiver.host .willing i.recv.res.comm.base i.receiver.gids
        i.recv.dev list.ndevs (remDevList info) = .ok side ∧
      SameSide r.res.comm.base r.counts side := by
  obtain ⟨mergedDev, listed, x, s0', hr, hgiven⟩ := connectSent_told ht hs
  obtain ⟨y, finalDev, hanswer⟩ := acceptSent_told ht hr hs hgiven h
  -- the list of the peer is the one that it has told
  obtain ⟨dev, hdev, hstarted⟩ := hgiven.started
  obtain ⟨dev', mergedDev', hdev', rfl, hstarted'⟩ := connectListed_told hl
  cases hdev.symm.trans hdev'
  cases hstarted.found.symm.trans hstarted'.found
  obtain ⟨base, base', hex, hndevs, -⟩ := hgiven.answered.counts
  obtain ⟨-, hnqps, hnDataQps, -⟩ := hgiven.answered.base
  have hallowed := hanswer.told.allowed
  have hcounts := hanswer.told.counts.trans hanswer.chosen.counts
  have hdevIndex := hanswer.told.devIndex
  rw [hanswer.chosen.counts] at hallowed hdevIndex
  have hle := nqps_le_of_allowed hallowed
  have hmax := hex.maxNqps_eq hle
  rw [hndevs] at hmax
  have haccept := hanswer.chosen.accept
  rw [hgiven.answered.dev] at haccept
  unfold net_ib.ncclIbAcceptImpl
  simp only [hgiven.answered.found, haccept, hanswer.chosen.found, hmax]
  rw [hcounts]
  refine sideCreate_same _ hallowed hanswer.told.ndevs ?_ ?_ hdevIndex
  · exact (hanswer.told.nqps.trans hanswer.chosen.nqps).trans (hnqps hle)
  · exact (hanswer.told.nDataQps.trans hanswer.chosen.nDataQps).trans hnDataQps

/-- Both sides count the same QPs, also when the accepting side takes another device in
the end. -/
theorem same_counts (hp : i.SameParams) (h : ConnectGiven i mergedDev listed x s0 s info) :
    s.counts = x.counts := by
  obtain ⟨base, _, hs, hndevs, hres⟩ := h.told.counts
  obtain ⟨base', _, hr, hndevs', hres', -⟩ := h.answered.counts
  obtain ⟨dev, -, hstarted⟩ := h.started
  rw [hstarted.resiliency] at hres
  rw [hstarted.recovery] at hs
  have hsame : base'.resiliency = base.resiliency := by
    rw [hres, hres', hp.resiliency]
  have hnqps : s.counts.nqps = x.counts.nqps := by
    rw [hs.nqps, hr.nqps, hndevs, hndevs', hp.nQpsPerDev, maxNqps_comm]
    rfl
  have hprobing : s.counts.nProbingQps = x.counts.nProbingQps := by
    rw [hs.probing, hr.probing, hsame, hndevs]
    rfl
  have hrecovery : s.counts.nPortRecoveryQps = x.counts.nPortRecoveryQps := by
    rw [hs.recovery, hr.recovery, hsame, hp.recovery, hndevs, hndevs', Nat.max_comm]
    rfl
  cases hsc : s.counts with
  | mk a b c =>
    cases hxc : x.counts with
    | mk a' b' c' =>
      rw [hsc, hxc] at hnqps hprobing hrecovery
      rw [show a = a' from hnqps, show b = b' from hprobing, show c = c' from hrecovery]

/-- The last part of the handshake: both sides have told all, and the connecting side has
taken it. -/
theorem taken_agree (hcounts : s.counts = x.counts)
    (hs : ConnectGiven i mergedDev listed x s0 s info)
    (hr : AcceptGiven i info x y r finalDev info') {t : SenderComm} (hf : ConnectTaken info' s t) :
    Agree i t (acceptReady true r) := by
  have hnqps : ∀ q < s.counts.nqps, q < s.res.comm.base.nqps.getD 0 := by
    intro q hq
    rw [hs.told.nqps]
    exact hq
  have hconn := hf.conn
  rw [hs.told.conn] at hconn
  -- The metadata of each side describes its devices.
  have hsdesc : Describes info t.conn := by
    intro d hd
    rw [hconn] at hd
    rw [hconn, hs.told.told.devs]
    exact ⟨congrArg NcclIbDevInfo.lid (if_pos hd), congrArg NcclIbDevInfo.gid (if_pos hd)⟩
  have hrlisted : Listed y.counts i.recvNums finalDev.devs.length r.conn := by
    rw [hr.told.conn]
    have hl := @receiver_listed y.counts i.recvNums info (takeDevs i.receiver finalDev y.conn)
    exact hl i.ibFifoTc
  have hrdesc : Describes info' r.conn := by
    intro d hd
    rw [hrlisted.ndevs] at hd
    rw [hr.told.told.devs]
    exact ⟨congrArg NcclIbDevInfo.lid (if_pos hd), congrArg NcclIbDevInfo.gid (if_pos hd)⟩
  have hprobing : s.counts.nProbingQps ≤ mergedDev.devs.length := by
    obtain ⟨base, _, hex, hndevs, -⟩ := hs.told.counts
    rw [hex.probing, ← hndevs]
    split
    · exact Nat.le_refl _
    · exact Nat.zero_le _
  have hslisted : Listed s.counts i.sendNums mergedDev.devs.length t.conn := by
    rw [hconn]
    have hl := @sender_listed s.counts i.sendNums info' (takeDevs i.sender mergedDev s0.conn)
    exact hl hprobing
  have hswired : Wired s.counts info' t.conn := by
    rw [hconn]
    exact sender_wired
  have hrwired : Wired y.counts info r.conn := by
    rw [hr.told.conn]
    exact receiver_wired i.ibFifoTc
  have hycounts : y.counts = s.counts := hr.chosen.counts.trans hcounts.symm
  have hrtold := hr.told.told
  have hdevIndex := hr.told.devIndex
  have hremDevIdx := hr.told.remDevIdx
  rw [hycounts] at hrlisted hrwired hrtold hdevIndex hremDevIdx
  obtain ⟨-, -, hnDataQps, -⟩ := hs.answered.base
  refine
    { counts := hf.counts.trans (hr.told.counts.trans hycounts).symm
      nDataQps := ?_
      sender := ?_
      receiver := ?_
      senderDev := fun q hq => ?_
      receiverDev := fun q hq => ?_
      ctsFifo := ⟨hr.told.ctsAddr.trans hs.told.addr, fun d hd => ?_⟩
      cmplsRecords := ⟨hf.recordsAddr.trans hr.told.addr, fun d hd => ?_⟩
      ready := ⟨hf.ready, rfl⟩ }
  · rw [hf.nDataQps, hs.told.nDataQps]
    refine Eq.trans ?_ (hr.told.nDataQps.trans (hr.chosen.nDataQps.trans hnDataQps)).symm
    rw [Nat.max_comm]
    rfl
  · rw [hf.counts]
    exact hswired.joinedAll hrtold hrlisted hrdesc
  · rw [hf.counts]
    exact hrwired.joinedAll hs.told.told hslisted hsdesc
  · rw [hf.counts] at hq
    rw [hf.remDevIdx q (hnqps q hq), hrtold.qps]
    refine Eq.trans (congrArg NcclIbQpInfo.devIndex (if_pos hq)) ?_
    exact (hdevIndex q hq).symm
  · rw [hf.counts] at hq
    rw [hf.devIndex, hs.told.devIndex q hq]
    refine Eq.trans (hremDevIdx q hq) ?_
    rw [hs.told.told.qps]
    exact congrArg NcclIbQpInfo.devIndex (if_pos hq)
  · rw [hslisted.ndevs] at hd
    refine Eq.trans (hr.told.ctsRkeys d ?_) ?_
    · rw [hs.told.told.ndevs]
      exact hd
    · rw [hs.told.told.devs]
      exact congrArg NcclIbDevInfo.rkey (if_pos hd)
  · have hd : d < finalDev.devs.length := hrlisted.ndevs ▸ hd
    rw [hf.recordsRkeys d (by rw [hrtold.ndevs]; exact hd), hrtold.devs]
    exact congrArg NcclIbDevInfo.rkey (if_pos hd)

/-- The handshake in one piece. -/
theorem unfragmented_agree (ht : i.Typed) (hp : i.SameParams) (h : unfragmented i = some (s, r)) :
    Agree i s r := by
  unfold unfragmented at h
  obtain ⟨t, hdone, h⟩ := Option.bind_eq_some_iff.mp h
  obtain ⟨⟨r', info'⟩, hacc, h⟩ := Option.bind_eq_some_iff.mp h
  cases h
  unfold connectDone at hdone
  obtain ⟨⟨s1, info⟩, hsent, hdone⟩ := Option.bind_eq_some_iff.mp hdone
  obtain ⟨⟨r2, info2⟩, hacc2, hdone⟩ := Option.bind_eq_some_iff.mp hdone
  rw [hacc] at hacc2
  cases hacc2
  obtain ⟨mergedDev, listed, x, s0, hlisted, hgiven⟩ := connectSent_told ht hsent
  obtain ⟨y, finalDev, hanswer⟩ := acceptSent_told ht hlisted hsent hgiven hacc
  have hcopy : copy metadataLayout info' = info' :=
    (hanswer.typed ht (hgiven.typed ht) hgiven.answered).copied
  simp only [hcopy] at hdone
  exact taken_agree (same_counts hp hgiven) hgiven hanswer (connectMetadata_spec hdone)

/-- The handshake when the messages are the values that were sent. -/
def valueHandshake (i : WireInput) : Option (SenderComm × ReceiverComm) := do
  let dev ← connectingDev i
  let (s, list) ← connectStart i dev i.send
  let (x, list) ← acceptDevList i list i.recv
  let (s, info) ← connectDevList i dev list s
  let (r, info) ← acceptMetadata i info x
  let s ← connectMetadata i info s
  some (s, acceptReady true r)

/-- The peer reads what was sent. -/
theorem valueHandshake_done (ht : i.Typed) (h : valueHandshake i = some (s, r)) :
    unfragmented i = some (s, r) := by
  unfold valueHandshake at h
  obtain ⟨dev, hdev, h⟩ := Option.bind_eq_some_iff.mp h
  obtain ⟨⟨s0, list⟩, hs0, h⟩ := Option.bind_eq_some_iff.mp h
  obtain ⟨⟨x, list'⟩, hx, h⟩ := Option.bind_eq_some_iff.mp h
  obtain ⟨⟨s1, info⟩, hs1, h⟩ := Option.bind_eq_some_iff.mp h
  obtain ⟨⟨r1, info'⟩, hr1, h⟩ := Option.bind_eq_some_iff.mp h
  obtain ⟨s2, hs2, h⟩ := Option.bind_eq_some_iff.mp h
  cases h
  have hlisted : connectListed i = some (s0, list) := by
    unfold connectListed
    rw [hdev]
    exact hs0
  obtain ⟨mergedDev, hstarted⟩ := connectStart_spec hs0
  have hanswered : acceptListed i = some (x, list') := by
    rw [accept.acceptListed_eq hlisted, hstarted.list,
      show copy devListLayout (devList i.sender mergedDev) = devList i.sender mergedDev from
        (devList_typed ht.sender hstarted.found).fits, ← hstarted.list]
    exact hx
  obtain ⟨listed, haccepted⟩ := acceptDevList_spec hx
  have hsent : connectSent i = some (s1, info) := by
    rw [connect.connectSent_eq hdev hlisted hanswered, haccepted.list,
      show copy devListLayout (devList i.receiver listed) = devList i.receiver listed from
        (devList_typed ht.receiver haccepted.found).fits, ← haccepted.list]
    exact hs1
  obtain ⟨_, _, x', _, hlisted', hgiven⟩ := connectSent_told ht hsent
  have hmeta := hgiven.typed ht
  have hacc : acceptSent i = some (r1, info') := by
    rw [accept.acceptSent_eq hanswered hsent, show copy metadataLayout info = info from hmeta.copied]
    exact hr1
  obtain ⟨_, _, hanswer⟩ := acceptSent_told ht hlisted' hsent hgiven hacc
  have hdone : connectDone i = some s := by
    rw [connect.connectDone_eq hsent hacc,
      show copy metadataLayout info' = info' from (hanswer.typed ht hmeta hgiven.answered).copied]
    exact hs2
  unfold unfragmented
  rw [hdone, hacc]
  rfl

end

/-- However the calls interleave and however the socket cuts the messages, once the
accepting side has returned its comm both comms belong together. -/
theorem connected_comms_agree {w : WireWorld} (h : runs.Reachable (wireSystem i) w) (ht : i.Typed)
    (hp : i.SameParams) (haccept : w.accept.outcome = some true) :
    Agree i w.connect.comm w.accept.comm :=
  unfragmented_agree ht hp ((reachable_linked h).returned.2 haccept).2

/-! ## A run -/

/-- A RoCE port whose address is `10.1.subnet.host`. -/
def rocePort (subnet host : Nat) : CommDev :=
  let gid := IbvGid.number ⟨0, 0, 0xffff, 0x0a010000 + 256 * (subnet % 256) + host % 256⟩
  { ibDev := { context := 1, portNum := 1, portAttr := ⟨0, 5, IBV_LINK_LAYER_ETHERNET, 0, 2⟩
               gidInfo := ⟨IBV_LINK_LAYER_ETHERNET, gid, 0⟩, pciPath := none, fullPciPath := []
               railId := -1, planeId := -1, planeIdx := 0, realPort := 0, fatalErrorCount := 0 }
    gidInfo := ⟨IBV_LINK_LAYER_ETHERNET, gid, 0⟩
    pkeyIndex := 0 }

/-- A host with these merged devices, subnet-aware routing and two QPs for each device. -/
def roceHost (mergedDevs : List NcclIbMergedDev) (subnet : Nat → Nat) : WireHost where
  host := plainHost mergedDevs 2 true
  ibDevs := fun ibDevN => rocePort (subnet ibDevN) ibDevN
  mlx5 := fun _ => true
  ibOooRq := false
  oooRqSize := fun _ => 0
  ar := fun _ => false
  currSpeed := fun _ => 400000
  gids := fun ibDevN => some (.ofNumber (rocePort (subnet ibDevN) ibDevN).gidInfo.localGid)
  ethernet := fun _ => rfl

/-- Devices 3 and 4 connect from subnet 2. The peer listens on its devices 5 and 6 in
subnet 1, and has the devices 7 and 8 in subnet 2. Both have failover and recovery. -/
def twoPortWire : WireInput where
  sender := roceHost [⟨[3, 4], by decide, by decide⟩] fun _ => 2
  receiver := roceHost [⟨[5, 6], by decide, by decide⟩, ⟨[7, 8], by decide, by decide⟩]
    fun ibDevN => if ibDevN < 7 then 1 else 2
  send :=
    { res :=
        { comm := { freshSend Shape.two with base := { freshBase Shape.two true with
            resiliency := true } }
          res := { freshSendRes 0 with base := { freshRes 0 with recoveryEnabled := true } } }
      conn := oneDevComm (rocePort 0 0)
      counts := ⟨0, 0, 0⟩ }
  recv :=
    { dev := 0
      res :=
        { comm := { freshRecv Shape.two false with base := { freshBase Shape.two false with
            resiliency := true } }
          res := { freshRes 0 with recoveryEnabled := true } }
      conn := oneDevComm (rocePort 0 0)
      counts := ⟨0, 0, 0⟩ }
  sendDev := 0
  listenGids := [.ofNumber (rocePort 1 5).gidInfo.localGid, .ofNumber (rocePort 1 6).gidInfo.localGid]
  sendNums := ⟨fun q => 200 + q % 8, fun k => 300 + k % 8, fun k => 400 + k % 8, fun _ => 0⟩
  recvNums := ⟨fun q => 500 + q % 8, fun k => 600 + k % 8, fun k => 700 + k % 8, fun _ => 0⟩
  sendInline := fun _ => 0
  recvInline := fun _ => 0
  sendMem := ⟨0x10000, fun _ => 100, some (0x30000, 101)⟩
  recvMem := ⟨0x20000, fun _ => 200⟩
  sl := 0
  tc := 0
  ibFifoTc := -1
  net := plainEnv

theorem rocePort_typed (subnet host : Nat) : CommDevTyped (rocePort subnet host) := by
  refine ⟨of_decide_eq_true rfl, of_decide_eq_true rfl, of_decide_eq_true rfl,
    of_decide_eq_true rfl, ?_⟩
  simp only [rocePort, IbvGid.number]
  omega

theorem twoPortWire_typed : twoPortWire.Typed where
  sender := ⟨by decide, fun _ => rocePort_typed _ _, fun _ => show 400000 < 2 ^ 64 by decide⟩
  receiver := ⟨by decide, fun _ => rocePort_typed _ _, fun _ => show 400000 < 2 ^ 64 by decide⟩
  sendNums := ⟨fun q => by simp only [twoPortWire]; omega, fun q => by simp only [twoPortWire]; omega,
    fun q => by simp only [twoPortWire]; omega⟩
  recvNums := ⟨fun q => by simp only [twoPortWire]; omega, fun q => by simp only [twoPortWire]; omega,
    fun q => by simp only [twoPortWire]; omega⟩
  ctsFifoAddr := by decide
  ctsFifoRkey := fun _ => show 100 < 2 ^ 32 by decide
  remoteSpeed := fun x hx => by
    cases hx
    exact ⟨by decide, by decide⟩
  cmplsRecordsAddr := by decide
  cmplsRecordsRkey := fun _ => show 200 < 2 ^ 32 by decide
  sl := ⟨by decide, by decide⟩
  tc := by decide

theorem twoPortWire_params : twoPortWire.SameParams := ⟨rfl, rfl, rfl⟩

/-- The accepting side ends with its other merged device. -/
theorem twoPortWire_done :
    ∃ s r, unfragmented twoPortWire = some (s, r) ∧ r.dev = 1 ∧ r.conn.ndevs = 2 := by
  obtain ⟨z, hz⟩ : ∃ z, valueHandshake twoPortWire = some z ∧ z.2.dev = 1 ∧ z.2.conn.ndevs = 2 :=
    ⟨_, rfl, rfl, rfl⟩
  exact ⟨z.1, z.2, valueHandshake_done twoPortWire_typed hz.1, hz.2⟩

/-- A call that waits for nothing. -/
def servingCall : CallEnv := ⟨true, fun _ => metadataLayout.size, fun _ => true⟩

theorem servingCall_serves : Serves servingCall := ⟨rfl, fun _ => Nat.le_refl _, fun _ => rfl⟩

/-- A call of which the socket moves `k` bytes of each message. -/
def slowCall (k : Nat) : CallEnv := ⟨true, fun _ => k, fun _ => true⟩

/-- A call of which the socket takes 40 bytes of the metadata. -/
def cutMetadata : CallEnv :=
  ⟨true, fun m => if m = .metaOut then 40 else metadataLayout.size, fun _ => true⟩

def firstWorld (i : WireInput) : WireWorld where
  connect := ⟨.start, 0, [], [], i.send, none⟩
  accept := ⟨.start, 0, [], [], i.recv, none⟩
  toAccept := []
  toConnect := []

/-- The calls of both sides that leave a device list in pieces, and then the metadata. -/
def cuttingCalls : List WireAct :=
  [.connect (slowCall 10), .accept (slowCall 4), .connect servingCall, .accept servingCall,
    .connect cutMetadata, .accept (slowCall 16)]

/-- The world after these calls. Of the metadata 40 bytes have been sent and 16 received. -/
def cutWorld : WireWorld := (firstWorld twoPortWire).calls twoPortWire cuttingCalls

theorem cutWorld_cut : (cutWorld.connect.state = .send ∧ cutWorld.connect.offset = 40) ∧
    cutWorld.accept.state = .recv ∧ cutWorld.accept.offset = 16 := by
  decide +kernel

theorem cutWorld_reachable : runs.Reachable (grantedSystem twoPortWire) cutWorld := by
  refine calls_reachable (.init ⟨⟨rfl, rfl⟩, ⟨rfl, rfl⟩, rfl, rfl⟩) ?_
  intro act hact
  simp only [cuttingCalls, List.mem_cons, List.not_mem_nil, or_false] at hact
  rcases hact with rfl | rfl | rfl | rfl | rfl | rfl <;> exact fun _ => rfl

theorem twoPortWire_isSome : (unfragmented twoPortWire).isSome := by
  obtain ⟨s, r, h, -⟩ := twoPortWire_done
  rw [h]
  rfl

/-- Both sides go on from there. -/
def lastWorld : WireWorld := cutWorld.threeRounds twoPortWire servingCall

theorem lastWorld_reachable : runs.Reachable (wireSystem twoPortWire) lastWorld :=
  threeRounds_reachable (granted_reachable twoPortWire_isSome cutWorld_reachable).1

theorem lastWorld_returns : lastWorld.accept.outcome = some true := by
  obtain ⟨hcut, hconnect, haccept⟩ := granted_reachable twoPortWire_isSome cutWorld_reachable
  have halong := (reachable_linked hcut).along hconnect haccept
  unfold lastWorld
  exact (along_returns servingCall_serves twoPortWire_isSome halong).2.1

theorem cut_messages_give_the_same_comms :
    unfragmented twoPortWire = some (lastWorld.connect.comm, lastWorld.accept.comm) ∧
      lastWorld.accept.comm.dev = 1 := by
  have hcomms := ((unfragmented_comms lastWorld_reachable).2 lastWorld_returns).2
  obtain ⟨s, r, h, hdev, -⟩ := twoPortWire_done
  refine ⟨hcomms, ?_⟩
  rw [hcomms] at h
  rw [(Prod.mk.inj (Option.some.inj h)).2]
  exact hdev

theorem a_cut_handshake_returns_in_three_rounds :
    (cutWorld.connect.offset = 40 ∧ cutWorld.accept.offset = 16) ∧
      (cutWorld.threeRounds twoPortWire servingCall).connect.outcome = some true ∧
      (cutWorld.threeRounds twoPortWire servingCall).accept.outcome = some true := by
  obtain ⟨hcut, hconnect, haccept⟩ := granted_reachable twoPortWire_isSome cutWorld_reachable
  obtain ⟨hs, hr, -⟩ :=
    three_rounds servingCall_serves hcut hconnect haccept twoPortWire_isSome
  exact ⟨⟨cutWorld_cut.1.2, cutWorld_cut.2.2⟩, hs, hr⟩

theorem two_ports_each_agree :
    lastWorld.accept.comm.conn.ndevs = 2 ∧
      Agree twoPortWire lastWorld.connect.comm lastWorld.accept.comm := by
  have hagree :=
    connected_comms_agree lastWorld_reachable twoPortWire_typed twoPortWire_params lastWorld_returns
  obtain ⟨s, r, h, -, hndevs⟩ := twoPortWire_done
  refine ⟨?_, hagree⟩
  rw [((reachable_linked lastWorld_reachable).returned.2 lastWorld_returns).2] at h
  rw [(Prod.mk.inj (Option.some.inj h)).2]
  exact hndevs

end net_ib.wire
