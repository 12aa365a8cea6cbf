-- What each side of a handshake tells the other, and what it takes from the other. The
-- messages have room for all of it, so the peer reads what was sent.
import MrcPlugin.HandshakeWire

namespace net_ib.wire

open p2p resiliency lifecycle streams layouts

/-! ## What fits in the messages -/

/-- The fields of a device have the types of `ncclIbDevInfo`. -/
structure DevTyped (d : NcclIbDevInfo) : Prop where
  lid : d.lid < 2 ^ 32
  ib_port : d.ib_port < 2 ^ 8
  mtu : d.mtu < 2 ^ 32
  link_layer : d.link_layer < 2 ^ 8
  gid : d.gid < 2 ^ 128
  rkey : d.rkey < 2 ^ 32
  remoteGid : d.remoteGid < 2 ^ 128
  currSpeed : d.currSpeed < 2 ^ 64
  remSpeedBufRkey : d.remSpeedBufRkey < 2 ^ 32

theorem devTyped_zero : DevTyped NcclIbDevInfo.zero := by
  constructor <;> decide

theorem devInfo_fits {d : NcclIbDevInfo} (h : DevTyped d) : devInfoLayout.Fits d := by
  refine Layout.map_fits (Layout.pair_fits (word_fits h.lid) ?_) rfl
  refine Layout.pair_fits (Layout.padded_fits (word_fits h.ib_port) 3) ?_
  refine Layout.pair_fits (word_fits h.mtu) ?_
  refine Layout.pair_fits (Layout.padded_fits (word_fits h.link_layer) 3) ?_
  refine Layout.pair_fits (word_fits h.gid) ?_
  refine Layout.pair_fits (Layout.padded_fits (word_fits h.rkey) 4) ?_
  refine Layout.pair_fits (word_fits h.remoteGid) ?_
  exact Layout.pair_fits (word_fits h.currSpeed) (Layout.padded_fits (word_fits h.remSpeedBufRkey) 4)

/-- The fields of a QP have the types of `ncclIbQpInfo`. -/
def QpTyped (q : NcclIbQpInfo) : Prop := q.qpn < 2 ^ 32 ∧ q.devIndex < 2 ^ 32

theorem qpTable_fits {n : Nat} {f : Nat → NcclIbQpInfo} (h : ∀ q < n, QpTyped (f q))
    (hzero : ∀ q, n ≤ q → f q = ⟨0, 0⟩) : (qpTable n).Fits f := by
  refine Layout.array_fits (fun q hq => ?_) hzero
  obtain ⟨hqpn, hdev⟩ := h q hq
  exact Layout.map_fits
    (Layout.pair_fits (Layout.padded_fits (word_fits hqpn) 16) (word_fits hdev)) rfl

theorem devList_fits {l : DevList} (hndevs : l.ndevs < 2 ^ 32)
    (hdevs : ∀ d < NCCL_IB_MAX_DEVS_PER_NIC, l.devs d < 2 ^ 32)
    (hzero : ∀ d, NCCL_IB_MAX_DEVS_PER_NIC ≤ d → l.devs d = 0) : devListLayout.Fits l := by
  refine Layout.map_fits (Layout.pair_fits (word_fits hndevs) ?_) rfl
  exact Layout.pair_fits
    (Layout.array_fits (fun d hd => word_fits (hdevs d hd)) hzero) (bool_fits l.oooRq)

/-- The fields of the metadata have the types of `ncclIbConnectionMetadata`. -/
structure MetaTyped (m : Metadata) : Prop where
  qps : ∀ q, QpTyped (m.qpInfo q)
  qps_zero : ∀ q, NCCL_IB_MAX_QPS ≤ q → m.qpInfo q = ⟨0, 0⟩
  probing : ∀ k, QpTyped (m.probingQpsInfo k)
  probing_zero : ∀ k, NCCL_IB_MAX_DEVS_PER_NIC ≤ k → m.probingQpsInfo k = ⟨0, 0⟩
  recovery : ∀ k, QpTyped (m.portRecoveryQpsInfo k)
  recovery_zero : ∀ k, NCCL_IB_MAX_DEVS_PER_NIC ≤ k → m.portRecoveryQpsInfo k = ⟨0, 0⟩
  devs : ∀ d, DevTyped (m.devs d)
  devs_zero : ∀ d, NCCL_IB_MAX_DEVS_PER_NIC ≤ d → m.devs d = NcclIbDevInfo.zero
  addr : m.addr < 2 ^ 64
  remSpeedBufAddr : m.remSpeedBufAddr < 2 ^ 64
  remSpeedBufRkey : m.remSpeedBufRkey < 2 ^ 32
  ndevs : m.ndevs < 2 ^ 32
  tc : m.tc < 2 ^ 32
  sl : -2 ^ 31 ≤ m.sl ∧ m.sl < 2 ^ 31

theorem metadata_fits {m : Metadata} (h : MetaTyped m) : metadataLayout.Fits m := by
  refine Layout.map_fits (Layout.pair_fits (qpTable_fits (fun q _ => h.qps q) h.qps_zero) ?_) rfl
  refine Layout.pair_fits (qpTable_fits (fun k _ => h.probing k) h.probing_zero) ?_
  refine Layout.pair_fits (qpTable_fits (fun k _ => h.recovery k) h.recovery_zero) ?_
  refine Layout.pair_fits (Layout.padded_fits
    (Layout.array_fits (fun d _ => devInfo_fits (h.devs d)) h.devs_zero) 648) ?_
  refine Layout.pair_fits (word_fits h.addr) ?_
  refine Layout.pair_fits (word_fits h.remSpeedBufAddr) ?_
  refine Layout.pair_fits (word_fits h.remSpeedBufRkey) ?_
  refine Layout.pair_fits (word_fits h.ndevs) ?_
  refine Layout.pair_fits (word_fits h.tc) (int_fits ?_ ?_)
  · have := h.sl.1
    norm_num at this ⊢
    omega
  · have := h.sl.2
    norm_num at this ⊢
    omega

theorem MetaTyped.copied {m : Metadata} (h : MetaTyped m) : copy metadataLayout m = m :=
  metadata_fits h

/-! ## The counts -/

/-- What the exchange of the lists fixes. -/
structure Exchanged (nQpsPerDev : Int) (isSend recoveryEnabled : Bool) (rem : DevList)
    (base base' : NcclIbNetCommBase) (n : QpCounts) : Prop where
  nqps : n.nqps = u32 (maxNqps nQpsPerDev base.ndevs rem.ndevs)
  probing : n.nProbingQps =
    if base.resiliency then (if isSend then base.ndevs else rem.ndevs) else 0
  recovery : n.nPortRecoveryQps =
    if base.resiliency ∧ recoveryEnabled then max base.ndevs rem.ndevs else 0
  probing_le : n.nProbingQps ≤ NCCL_IB_MAX_DEVS_PER_NIC
  recovery_le : n.nPortRecoveryQps ≤ NCCL_IB_MAX_DEVS_PER_NIC
  base : base' = { base.withCounts base.ndevs (maxNqps nQpsPerDev base.ndevs rem.ndevs)
    (max base.ndevs rem.ndevs) with remOooRq := rem.oooRq }

theorem maxNqps_lt (nQpsPerDev : Int) (a b : Nat) :
    -2 ^ 31 ≤ maxNqps nQpsPerDev a b ∧ maxNqps nQpsPerDev a b < 2 ^ 31 := by
  have hlow := fun x : Int => Int.le_bmod (x := x) (m := 2 ^ 32) (by decide)
  have hhigh := fun x : Int => Int.bmod_lt (x := x) (m := 2 ^ 32) (by decide)
  unfold maxNqps i32
  simp only
  split
  · exact ⟨hlow _, hhigh _⟩
  · exact ⟨hlow _, hhigh _⟩

section
variable {nQpsPerDev : Int} {isSend recoveryEnabled : Bool} {rem : DevList}
  {base base' : NcclIbNetCommBase} {n : QpCounts}

/-- A number of QPs that fits the array is not negative. -/
theorem Exchanged.maxNqps_eq (h : Exchanged nQpsPerDev isSend recoveryEnabled rem base base' n)
    (hle : n.nqps ≤ NCCL_IB_MAX_QPS) : maxNqps nQpsPerDev base.ndevs rem.ndevs = n.nqps := by
  obtain ⟨hlow, hhigh⟩ := maxNqps_lt nQpsPerDev base.ndevs rem.ndevs
  have hnqps := h.nqps
  unfold u32 at hnqps
  unfold NCCL_IB_MAX_QPS at hle
  omega

/-- It is the one of the base. -/
theorem Exchanged.fits (h : Exchanged nQpsPerDev isSend recoveryEnabled rem base base' n)
    (hle : n.nqps ≤ NCCL_IB_MAX_QPS) : base'.nqps = some n.nqps := by
  have heq := h.maxNqps_eq hle
  rw [h.base, heq]
  unfold NcclIbNetCommBase.withCounts
  simp only
  rw [if_neg (by omega), Int.toNat_natCast]

end

theorem deviceNumSet_spec {isSend recoveryEnabled : Bool} {nLocalDevs nRemDevs : Nat} {k : Nat × Nat}
    (h : ncclIbResiliencyDeviceNumSet isSend recoveryEnabled nLocalDevs nRemDevs = some k) :
    k = (if isSend then nLocalDevs else nRemDevs,
        if recoveryEnabled then max nLocalDevs nRemDevs else 0) ∧
      k.1 ≤ NCCL_IB_MAX_DEVS_PER_NIC ∧ k.2 ≤ NCCL_IB_MAX_DEVS_PER_NIC := by
  obtain ⟨hrange, h⟩ := Option.ite_none_left_eq_some.mp h
  cases h
  exact ⟨rfl, by omega, by omega⟩

theorem exchange_spec {nQpsPerDev : Int} {isSend recoveryEnabled : Bool} {rem : DevList}
    {base base' : NcclIbNetCommBase} {n : QpCounts}
    (h : exchange nQpsPerDev isSend recoveryEnabled rem base = some (base', n)) :
    Exchanged nQpsPerDev isSend recoveryEnabled rem base base' n := by
  unfold exchange at h
  simp only at h
  split at h
  · rename_i hres
    have hres : base.resiliency = true := hres
    obtain ⟨k, hk, h⟩ := Option.map_eq_some_iff.mp h
    cases h
    obtain ⟨rfl, hprobing, hrecovery⟩ := deviceNumSet_spec hk
    exact
      { nqps := rfl
        probing := by rw [hres]; rfl
        recovery := by simp only [hres, true_and]; rfl
        probing_le := hprobing
        recovery_le := hrecovery
        base := rfl }
  · rename_i hres
    have hres : base.resiliency = false := Bool.eq_false_iff.mpr hres
    cases h
    exact
      { nqps := rfl
        probing := by rw [hres]; rfl
        recovery := by simp [hres]
        probing_le := Nat.zero_le _
        recovery_le := Nat.zero_le _
        base := rfl }

theorem maxNqps_comm (nQpsPerDev : Int) (a b : Nat) :
    maxNqps nQpsPerDev a b = maxNqps nQpsPerDev b a := by
  unfold maxNqps
  simp only
  split <;> split <;> omega

/-! ## What the metadata tells -/

/-- The QPs and the devices of a side, as it tells them. -/
structure Told (n : QpCounts) (nums : QpNums) (ndevs : Nat) (devs : Nat → NcclIbDevInfo)
    (m : Metadata) : Prop where
  qps : m.qpInfo = fillTo n.nqps (fun q => ⟨nums.data q, q % ndevs⟩) (fun _ => ⟨0, 0⟩)
  probing : m.probingQpsInfo =
    fillTo n.nProbingQps (fun k => ⟨nums.probing k, k % ndevs⟩) (fun _ => ⟨0, 0⟩)
  recovery : m.portRecoveryQpsInfo =
    fillTo n.nPortRecoveryQps (fun k => ⟨nums.recovery k, k % ndevs⟩) (fun _ => ⟨0, 0⟩)
  devs : m.devs = fillTo ndevs devs (fun _ => NcclIbDevInfo.zero)
  ndevs : m.ndevs = ndevs

theorem fillTo_all {α : Type} {P : α → Prop} {n : Nat} {new : Nat → α} {zero : α}
    (hnew : ∀ k < n, P (new k)) (hzero : P zero) (k : Nat) :
    P (fillTo n new (fun _ => zero) k) := by
  unfold fillTo
  split
  · rename_i hk
    exact hnew k hk
  · exact hzero

theorem fillTo_beyond {α : Type} {n size : Nat} {new : Nat → α} {zero : α} (hle : n ≤ size)
    (k : Nat) (hk : size ≤ k) : fillTo n new (fun _ => zero) k = zero :=
  if_neg (by omega)

/-- Numbers of QPs that are numbers. -/
structure NumsTyped (nums : QpNums) : Prop where
  data : ∀ q, nums.data q < 2 ^ 32
  probing : ∀ k, nums.probing k < 2 ^ 32
  recovery : ∀ k, nums.recovery k < 2 ^ 32

section
variable {n : QpCounts} {nums : QpNums} {ndevs : Nat} {devs : Nat → NcclIbDevInfo} {m : Metadata}

theorem Told.metaTyped (h : Told n nums ndevs devs m) (hnums : NumsTyped nums)
    (hnqps : n.nqps ≤ NCCL_IB_MAX_QPS) (hprobing : n.nProbingQps ≤ NCCL_IB_MAX_DEVS_PER_NIC)
    (hrecovery : n.nPortRecoveryQps ≤ NCCL_IB_MAX_DEVS_PER_NIC) (hpos : 0 < ndevs)
    (hndevs : ndevs ≤ NCCL_IB_MAX_DEVS_PER_NIC) (hdevs : ∀ d, DevTyped (devs d))
    (haddr : m.addr < 2 ^ 64) (hspeedAddr : m.remSpeedBufAddr < 2 ^ 64)
    (hspeedRkey : m.remSpeedBufRkey < 2 ^ 32) (htc : m.tc < 2 ^ 32)
    (hsl : -2 ^ 31 ≤ m.sl ∧ m.sl < 2 ^ 31) : MetaTyped m := by
  have hmod : ∀ k, k % ndevs < 2 ^ 32 := by
    intro k
    have := Nat.mod_lt k hpos
    unfold NCCL_IB_MAX_DEVS_PER_NIC at hndevs
    omega
  have hzero : QpTyped ⟨0, 0⟩ := ⟨by decide, by decide⟩
  refine
    { qps := ?_
      qps_zero := ?_
      probing := ?_
      probing_zero := ?_
      recovery := ?_
      recovery_zero := ?_
      devs := ?_
      devs_zero := ?_
      addr := haddr
      remSpeedBufAddr := hspeedAddr
      remSpeedBufRkey := hspeedRkey
      ndevs := ?_
      tc := htc
      sl := hsl }
  · rw [h.qps]
    exact fillTo_all (fun k _ => ⟨hnums.data k, hmod k⟩) hzero
  · rw [h.qps]
    exact fillTo_beyond hnqps
  · rw [h.probing]
    exact fillTo_all (fun k _ => ⟨hnums.probing k, hmod k⟩) hzero
  · rw [h.probing]
    exact fillTo_beyond hprobing
  · rw [h.recovery]
    exact fillTo_all (fun k _ => ⟨hnums.recovery k, hmod k⟩) hzero
  · rw [h.recovery]
    exact fillTo_beyond hrecovery
  · rw [h.devs]
    exact fillTo_all (fun d _ => hdevs d) devTyped_zero
  · rw [h.devs]
    exact fillTo_beyond hndevs
  · rw [h.ndevs]
    unfold NCCL_IB_MAX_DEVS_PER_NIC at hndevs
    omega

end

/-! ## The two sides -/

/-- `ncclIbSenderQpsCreate`, with all that it tells. -/
theorem senderQpsCreate_tells (new : NewQps) (s : ResSendComm) (info : NcclIbConnectionMetadata) :
    ∃ qps res probingQpsInfo, ncclIbSenderQpsCreate new s info = (⟨withSendQps s.comm qps, res⟩,
      { info with
        qpInfo := fillTo (s.comm.base.nqps.getD 0) (fun q => ⟨new.qpn q, q % s.comm.base.ndevs⟩)
          info.qpInfo
        probingQpsInfo }) ∧
      (probingQpsInfo = if s.comm.base.resiliency then
          fillTo s.res.base.ndevs (fun k => ⟨new.probingQpn k, k⟩) info.probingQpsInfo
        else info.probingQpsInfo) ∧
      ∀ q < s.comm.base.nqps.getD 0, (qps q).devIndex = q % s.comm.base.ndevs := by
  unfold ncclIbSenderQpsCreate
  simp only
  split
  · rename_i hres
    refine ⟨_, _, _, rfl, rfl, fun q hq => ?_⟩
    exact (fillTo_field NcclIbQp.devIndex ..).trans (if_pos hq)
  · rename_i hres
    refine ⟨_, _, _, rfl, rfl, fun q hq => ?_⟩
    exact (fillTo_field NcclIbQp.devIndex ..).trans (if_pos hq)

/-- `ncclIbReceiverQpsCreateToRts`, with all that it tells. -/
theorem receiverQpsCreate_tells (new : NewQps) (r : ResRecvComm) (nProbingQps : Nat)
    (remMeta info : NcclIbConnectionMetadata) :
    ∃ qps res probingQpsInfo, ncclIbReceiverQpsCreateToRts new r nProbingQps remMeta info =
      (⟨withRecvQps r.comm qps, res⟩,
        { info with
          qpInfo := fillTo (r.comm.base.nqps.getD 0)
            (fun q => ⟨new.qpn q, q % r.comm.base.ndevs⟩) info.qpInfo
          probingQpsInfo }) ∧
      (probingQpsInfo = if r.comm.base.resiliency then
          fillTo nProbingQps (fun k => ⟨new.probingQpn k, k % r.comm.base.ndevs⟩)
            info.probingQpsInfo
        else info.probingQpsInfo) ∧
      (∀ q < r.comm.base.nqps.getD 0, (qps q).devIndex = q % r.comm.base.ndevs) ∧
      ∀ q < r.comm.base.nqps.getD 0, (qps q).remDevIdx = (remMeta.qpInfo q).devIndex := by
  unfold ncclIbReceiverQpsCreateToRts
  simp only
  split
  · refine ⟨_, _, _, rfl, rfl, fun q hq => ?_, fun q hq => ?_⟩
    · exact (fillTo_field NcclIbQp.devIndex ..).trans (if_pos hq)
    · exact (fillTo_field NcclIbQp.remDevIdx ..).trans (if_pos hq)
  · refine ⟨_, _, _, rfl, rfl, fun q hq => ?_, fun q hq => ?_⟩
    · exact (fillTo_field NcclIbQp.devIndex ..).trans (if_pos hq)
    · exact (fillTo_field NcclIbQp.remDevIdx ..).trans (if_pos hq)

variable {i : WireInput}

/-- The connecting side when it has sent its device list, which is the one of its merged
device. -/
structure ConnectStarted (i : WireInput) (dev : Nat) (mergedDev : NcclIbMergedDev)
    (x s : SenderComm) (list : DevList) : Prop where
  found : i.sender.host.mergedDevs[dev]? = some mergedDev
  list : list = devList i.sender mergedDev
  conn : s.conn = x.conn
  resiliency : s.res.comm.base.resiliency = x.res.comm.base.resiliency
  recovery : s.res.res.base.recoveryEnabled = x.res.res.base.recoveryEnabled

theorem connectStart_spec {dev : Nat} {x s : SenderComm} {list : DevList}
    (h : connectStart i dev x = some (s, list)) :
    ∃ mergedDev, ConnectStarted i dev mergedDev x s list := by
  unfold connectStart at h
  split at h
  · cases h
  rename_i mergedDev hmerged
  cases h
  exact ⟨mergedDev, ⟨hmerged, rfl, rfl, rfl, rfl⟩⟩

theorem nqps_le_of_allowed {w : WireHost} {mergedDev : NcclIbMergedDev} {n : QpCounts}
    (h : qpsAllowed w mergedDev n = true) : n.nqps ≤ NCCL_IB_MAX_QPS :=
  of_decide_eq_true (Bool.and_eq_true_iff.mp h).1

theorem hint_of_allowed {w : WireHost} {mergedDev : NcclIbMergedDev} {n : QpCounts}
    (h : qpsAllowed w mergedDev n = true) {q : Nat} (hq : q < n.nqps) :
    ncclIbQpCreateMrcHint w.host n.nqps = .ok () := by
  have hall := List.all_eq_true.mp (Bool.and_eq_true_iff.mp h).2 q (List.mem_range.mpr hq)
  have hhint := (Bool.and_eq_true_iff.mp hall).2
  cases hres : ncclIbQpCreateMrcHint w.host n.nqps with
  | ok u => rfl
  | error e =>
    rw [hres] at hhint
    cases hhint

/-- The connecting side when it has sent its metadata. -/
structure ConnectTold (i : WireInput) (mergedDev : NcclIbMergedDev) (rem : DevList)
    (x s : SenderComm) (info : Metadata) : Prop where
  counts : ∃ base base', Exchanged i.sender.host.nQpsPerDev true x.res.res.base.recoveryEnabled rem
    base base' s.counts ∧ base.ndevs = mergedDev.devs.length ∧
      base.resiliency = x.res.comm.base.resiliency
  allowed : qpsAllowed i.sender mergedDev s.counts = true
  ndevs : s.res.comm.base.ndevs = mergedDev.devs.length
  nqps : s.res.comm.base.nqps = some s.counts.nqps
  nDataQps : s.res.comm.base.nDataQps = some (max mergedDev.devs.length rem.ndevs)
  conn : s.conn = senderCreate i.sendNums s.counts (takeDevs i.sender mergedDev x.conn)
  devIndex : ∀ q < s.counts.nqps,
    (s.res.comm.base.qps q).devIndex = q % mergedDev.devs.length
  told : Told s.counts i.sendNums mergedDev.devs.length
    (fun d => { (i.sender.ibDevs (devOf mergedDev d)).info with
      rkey := i.sendMem.ctsFifoRkey d }) info
  addr : info.addr = i.sendMem.ctsFifoAddr
  remSpeedBufAddr : info.remSpeedBufAddr = (i.sendMem.remoteSpeed.map Prod.fst).getD 0
  remSpeedBufRkey : info.remSpeedBufRkey = (i.sendMem.remoteSpeed.map Prod.snd).getD 0
  sl : info.sl = i.sl
  tc : info.tc = i.tc

theorem connectDevList_spec {dev : Nat} {rem : DevList} {x s : SenderComm} {info : Metadata}
    {mergedDev : NcclIbMergedDev} (hmerged : i.sender.host.mergedDevs[dev]? = some mergedDev)
    (h : connectDevList i dev rem x = some (s, info)) : ConnectTold i mergedDev rem x s info := by
  unfold connectDevList at h
  rw [hmerged] at h
  simp only at h
  split at h
  · cases h
  rename_i base n hexchange
  have hex := exchange_spec hexchange
  have hbase := hex.base
  have hndevs : base.ndevs = mergedDev.devs.length := by
    rw [hbase]
    rfl
  obtain ⟨qps, res, probingQpsInfo, hcreate, hprobingInfo, hdev⟩ := senderQpsCreate_tells
    ⟨i.sendNums.data, i.sendInline, i.sendNums.probing⟩
    ⟨{ x.res.comm with
        base
        ibDevN := devOf mergedDev
        ar := mergedDev.devs.all i.sender.ar },
      { x.res.res with base := { x.res.res.base with ndevs := base.ndevs } }⟩
    { NcclIbConnectionMetadata.zero with ndevs := base.ndevs }
  unfold connectSend at h
  simp only [hcreate] at h
  obtain ⟨hallowed, h⟩ := Option.ite_none_left_eq_some.mp h
  obtain ⟨-, h⟩ := Option.ite_none_right_eq_some.mp h
  cases h
  have hallowed : qpsAllowed i.sender mergedDev n = true := by simpa using hallowed
  have hle := nqps_le_of_allowed hallowed
  have hnqps := hex.fits hle
  refine
    { counts := ⟨_, _, hex, rfl, rfl⟩
      allowed := hallowed
      ndevs := hndevs
      nqps := hnqps
      nDataQps := by
        show base.nDataQps = _
        rw [hbase]
        rfl
      conn := rfl
      devIndex := fun q hq => by
        rw [← hndevs]
        exact hdev q (by simp only [hnqps]; exact hq)
      told := ?_
      addr := rfl
      remSpeedBufAddr := rfl
      remSpeedBufRkey := rfl
      sl := rfl
      tc := rfl }
  refine ⟨?_, ?_, ?_, ?_, hndevs⟩
  · rw [← hndevs]
    simp only [hnqps]
    rfl
  · -- The probing QPs are as many as the devices, one on each.
    have hprobing := hex.probing
    rw [if_pos rfl] at hprobing
    refine hprobingInfo.trans ?_
    funext k
    unfold fillTo
    rw [hprobing]
    have hres : base.resiliency = x.res.comm.base.resiliency := by
      rw [hbase]
      rfl
    simp only [hres, hndevs]
    cases hx : x.res.comm.base.resiliency with
    | false => simp [takeVProps, hx, NcclIbConnectionMetadata.zero]
    | true =>
      simp only [takeVProps, hx, if_true]
      split
      · rename_i hk
        rw [Nat.mod_eq_of_lt hk]
      · rfl
  · funext k
    unfold ConnComm.metadata senderCreate fillTo
    simp only
    split <;> rfl
  · rw [← hndevs]
    rfl

/-- The accepting side when it has the device list of the peer, and its own list. -/
structure AcceptListed (i : WireInput) (mergedDev : NcclIbMergedDev) (rem : DevList)
    (x r : ReceiverComm) (list : DevList) : Prop where
  found : i.receiver.host.mergedDevs[x.dev]? = some mergedDev
  dev : r.dev = x.dev
  list : list = devList i.receiver mergedDev
  counts : ∃ base base', Exchanged i.receiver.host.nQpsPerDev false x.res.res.recoveryEnabled rem
    base base' r.counts ∧ base.ndevs = mergedDev.devs.length ∧
      base.resiliency = x.res.comm.base.resiliency ∧ r.res.comm = { x.res.comm with base := base' }
  conn : r.conn = x.conn

theorem acceptDevList_spec {rem list : DevList} {x r : ReceiverComm}
    (h : acceptDevList i rem x = some (r, list)) :
    ∃ mergedDev, AcceptListed i mergedDev rem x r list := by
  unfold acceptDevList at h
  split at h
  · cases h
  rename_i mergedDev hmerged
  simp only at h
  split at h
  · cases h
  rename_i base n hexchange
  cases h
  exact ⟨mergedDev, ⟨hmerged, rfl, rfl, ⟨_, _, exchange_spec hexchange, rfl, rfl, rfl⟩, rfl⟩⟩

/-- The accepting side after the choice of the device. The base has the devices of the
merged device of the comm, as it had before. -/
structure Chosen (w : WireHost) (remMeta : Metadata) (x y : ReceiverComm)
    (mergedDev : NcclIbMergedDev) : Prop where
  accept : acceptDev w.host w.gids (remDevList remMeta) x.dev = .ok y.dev
  found : w.host.mergedDevs[y.dev]? = some mergedDev
  ndevs : y.res.comm.base.ndevs = mergedDev.devs.length
  counts : y.counts = x.counts
  conn : y.conn = x.conn
  nqps : y.res.comm.base.nqps = x.res.comm.base.nqps
  nDataQps : y.res.comm.base.nDataQps = x.res.comm.base.nDataQps
  resiliency : y.res.comm.base.resiliency = x.res.comm.base.resiliency

theorem acceptSubnet_spec {w : WireHost} {remMeta : Metadata} {x y : ReceiverComm}
    {listed mergedDev : NcclIbMergedDev} (hlisted : w.host.mergedDevs[x.dev]? = some listed)
    (hndevs : x.res.comm.base.ndevs = listed.devs.length)
    (h : acceptSubnet w remMeta x = some (y, mergedDev)) : Chosen w remMeta x y mergedDev := by
  unfold acceptSubnet at h
  split at h
  · cases h
  rename_i effectiveDev haccept
  split at h
  · cases h
  rename_i found hfound
  split at h
  · rename_i heq
    cases h
    rw [heq, hlisted] at hfound
    cases hfound
    exact ⟨heq ▸ haccept, hlisted, hndevs, rfl, rfl, rfl, rfl, rfl⟩
  · cases h
    exact ⟨haccept, hfound, rfl, rfl, rfl, rfl, rfl, rfl⟩

/-- The accepting side when it has sent its metadata. -/
structure AcceptTold (i : WireInput) (remMeta : Metadata) (mergedDev : NcclIbMergedDev)
    (x r : ReceiverComm) (info : Metadata) : Prop where
  counts : r.counts = x.counts
  allowed : qpsAllowed i.receiver mergedDev x.counts = true
  ndevs : r.res.comm.base.ndevs = mergedDev.devs.length
  nqps : r.res.comm.base.nqps = x.res.comm.base.nqps
  conn : r.conn = receiverCreateToRts i.ibFifoTc i.recvNums x.counts remMeta.addrs
    (takeDevs i.receiver mergedDev x.conn)
  devIndex : ∀ q < x.counts.nqps,
    (r.res.comm.base.qps q).devIndex = q % mergedDev.devs.length
  remDevIdx : ∀ q < x.counts.nqps,
    (r.res.comm.base.qps q).remDevIdx = (remMeta.qpInfo q).devIndex
  nDataQps : r.res.comm.base.nDataQps = x.res.comm.base.nDataQps
  ctsAddr : r.res.comm.remCtsFifo.addr = remMeta.addr
  ctsRkeys : ∀ d < remMeta.ndevs, (r.res.comm.base.remDevs d).rkey = (remMeta.devs d).rkey
  told : Told x.counts i.recvNums mergedDev.devs.length
    (fun d => { (r.conn.devs d).info with
      currSpeed := i.receiver.currSpeed (devOf mergedDev d)
      rkey := i.recvMem.cmplsRecordsRkey d }) info
  addr : info.addr = i.recvMem.cmplsRecordsAddr
  remSpeedBufAddr : info.remSpeedBufAddr = 0
  remSpeedBufRkey : info.remSpeedBufRkey = 0
  sl : info.sl = remMeta.sl
  tc : info.tc = remMeta.tc

/-- The accepting side with the devices of its comm, whose counts are fixed. -/
theorem acceptQps_spec {remMeta info : Metadata} {mergedDev : NcclIbMergedDev} {x r : ReceiverComm}
    (h : acceptQps i remMeta mergedDev x = (r, info))
    (hndevs : x.res.comm.base.ndevs = mergedDev.devs.length)
    (hallowed : qpsAllowed i.receiver mergedDev x.counts = true)
    (hnqps : x.res.comm.base.nqps = some x.counts.nqps)
    (hprobing : x.res.comm.base.resiliency = false → x.counts.nProbingQps = 0) :
    AcceptTold i remMeta mergedDev x r info := by
  obtain ⟨qps, res, probingQpsInfo, hcreate, hprobingInfo, hdev, hrem⟩ := receiverQpsCreate_tells
    ⟨i.recvNums.data, i.recvInline, i.recvNums.probing⟩
    ⟨{ x.res.comm with
      base := { x.res.comm.base with
        nRemDevs := remMeta.ndevs
        remDevs := fillTo remMeta.ndevs
          (fun d => { remDevOf remMeta.toNcclIbConnectionMetadata d with
            remSpeedBufRkey := remMeta.remSpeedBufRkey }) x.res.comm.base.remDevs }
      ibDevN := devOf mergedDev
      remSpeedBufAddr := remMeta.remSpeedBufAddr }, x.res.res⟩ x.counts.nProbingQps
    remMeta.toNcclIbConnectionMetadata NcclIbConnectionMetadata.zero
  unfold acceptQps acceptSend at h
  simp only [hcreate] at h
  cases h
  have hqps : ∀ q < x.counts.nqps, q < x.res.comm.base.nqps.getD 0 := by
    intro q hq
    rw [hnqps]
    exact hq
  refine
    { counts := rfl
      allowed := hallowed
      ndevs := hndevs
      nqps := rfl
      conn := rfl
      devIndex := fun q hq => by rw [← hndevs]; exact hdev q (hqps q hq)
      remDevIdx := fun q hq => hrem q (hqps q hq)
      nDataQps := rfl
      ctsAddr := rfl
      ctsRkeys := fun d hd => (fillTo_field NcclIbDevInfo.rkey ..).trans (if_pos hd)
      told := ?_
      addr := rfl
      remSpeedBufAddr := rfl
      remSpeedBufRkey := rfl
      sl := rfl
      tc := rfl }
  refine ⟨by rw [← hndevs]; simp only [hnqps]; rfl, ?_, ?_, by rw [← hndevs]; rfl, hndevs⟩
  · refine hprobingInfo.trans ?_
    rw [← hndevs]
    simp only
    split
    · rfl
    · rename_i hres
      rw [hprobing (Bool.eq_false_iff.mpr hres)]
      rfl
  · have hcount := (dataDone i.ibFifoTc i.recvNums remMeta.addrs
      (takeDevs i.receiver mergedDev x.conn) x.counts.nqps).ndevs
    funext k
    unfold ConnComm.metadata receiverCreateToRts fillTo
    simp only
    split
    · simp only [connectQp, createQp, ConnQp.info, hcount]
      rfl
    · rfl

theorem acceptMetadata_spec {remMeta info : Metadata} {x r : ReceiverComm}
    {listed : NcclIbMergedDev} (h : acceptMetadata i remMeta x = some (r, info))
    (hlisted : i.receiver.host.mergedDevs[x.dev]? = some listed)
    (hndevs : x.res.comm.base.ndevs = listed.devs.length)
    (hnqps : x.counts.nqps ≤ NCCL_IB_MAX_QPS → x.res.comm.base.nqps = some x.counts.nqps)
    (hprobing : x.res.comm.base.resiliency = false → x.counts.nProbingQps = 0) :
    ∃ y mergedDev, Chosen i.receiver remMeta x y mergedDev ∧ AcceptTold i remMeta mergedDev y r info := by
  unfold acceptMetadata at h
  split at h
  · cases h
  rename_i y mergedDev hchosen
  obtain ⟨-, h⟩ := Option.ite_none_left_eq_some.mp h
  obtain ⟨-, h⟩ := Option.ite_none_left_eq_some.mp h
  obtain ⟨-, h⟩ := Option.ite_none_left_eq_some.mp h
  obtain ⟨hallowed, h⟩ := Option.ite_none_left_eq_some.mp h
  have hc := acceptSubnet_spec hlisted hndevs hchosen
  have hallowed : qpsAllowed i.receiver mergedDev y.counts = true := by simpa using hallowed
  have hle := nqps_le_of_allowed hallowed
  refine ⟨y, mergedDev, hc, acceptQps_spec (Option.some.inj h) hc.ndevs hallowed ?_ fun hres => ?_⟩
  · rw [hc.nqps, hc.counts]
    exact hnqps (hc.counts ▸ hle)
  · rw [hc.counts]
    exact hprobing (hc.resiliency ▸ hres)

/-- The connecting side in the end. -/
structure ConnectTaken (remMeta : Metadata) (x s : SenderComm) : Prop where
  counts : s.counts = x.counts
  conn : s.conn = senderToRts x.counts remMeta.addrs x.conn
  devIndex : ∀ q, (s.res.comm.base.qps q).devIndex = (x.res.comm.base.qps q).devIndex
  remDevIdx : ∀ q < x.res.comm.base.nqps.getD 0,
    (s.res.comm.base.qps q).remDevIdx = (remMeta.qpInfo q).devIndex
  nDataQps : s.res.comm.base.nDataQps = x.res.comm.base.nDataQps
  recordsAddr : s.res.comm.remCmplsRecords.addr = remMeta.addr
  recordsRkeys : ∀ d < remMeta.ndevs,
    s.res.comm.remCmplsRecords.rkeys d = (remMeta.devs d).rkey
  ready : s.res.comm.base.ready = true

theorem connectFinish_records {s t : ResSendComm} {remMeta : NcclIbConnectionMetadata}
    (h : connectFinish s remMeta = .ok t) :
    t.comm.base.nDataQps = s.comm.base.nDataQps ∧ t.comm.remCmplsRecords.addr = remMeta.addr := by
  unfold connectFinish at h
  simp only at h
  split at h
  · cases hctx : recordsToContext remMeta (List.range remMeta.ndevs) s.res with
    | error e =>
      rw [hctx] at h
      cases h
    | ok res =>
      rw [hctx] at h
      obtain ⟨qps, res', hrts, -⟩ := senderQpsToRts_spec
        ⟨{ s.comm with
          base := { s.comm.base with
            nRemDevs := remMeta.ndevs
            remDevs := fillTo remMeta.ndevs (remDevOf remMeta) s.comm.base.remDevs }
          remCmplsRecords := { s.comm.remCmplsRecords with
            addr := remMeta.addr
            rkeys := fillTo remMeta.ndevs (fun i => (remMeta.devs i).rkey)
              s.comm.remCmplsRecords.rkeys } }, res⟩ remMeta
      rw [← Except.ok.inj h, hrts]
      exact ⟨rfl, rfl⟩
  · obtain ⟨qps, res', hrts, -⟩ := senderQpsToRts_spec
      ⟨{ s.comm with
        base := { s.comm.base with
          nRemDevs := remMeta.ndevs
          remDevs := fillTo remMeta.ndevs (remDevOf remMeta) s.comm.base.remDevs }
        remCmplsRecords := { s.comm.remCmplsRecords with
          addr := remMeta.addr
          rkeys := fillTo remMeta.ndevs (fun i => (remMeta.devs i).rkey)
            s.comm.remCmplsRecords.rkeys } }, s.res⟩ remMeta
    rw [← Except.ok.inj h, hrts]
    exact ⟨rfl, rfl⟩

theorem connectMetadata_spec {remMeta : Metadata} {x s : SenderComm}
    (h : connectMetadata i remMeta x = some s) : ConnectTaken remMeta x s := by
  unfold connectMetadata at h
  obtain ⟨-, h⟩ := Option.ite_none_left_eq_some.mp h
  split at h
  · cases h
  rename_i res hfinish
  cases h
  obtain ⟨-, -, hdev, hrem, hrkeys, -, -⟩ := connectFinish_spec hfinish
  obtain ⟨hcount, haddr⟩ := connectFinish_records hfinish
  refine
    { counts := rfl
      conn := rfl
      devIndex := hdev
      remDevIdx := hrem
      nDataQps := hcount
      recordsAddr := haddr
      recordsRkeys := fun d hd => ?_
      ready := rfl }
  rw [hrkeys]
  exact if_pos hd

end net_ib.wire
