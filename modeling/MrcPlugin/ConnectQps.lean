-- The device lists of a handshake and the QPs that come from them (connect.cc).
-- The number of QPs is fixed when the lists are exchanged. With subnet-aware
-- routing, the accepting side may take another device after that.
import MrcPlugin.CommInit

namespace net_ib

/-! ## The GIDs -/

/-- `ibv_gid`: its four words, read in the byte order of the network. -/
structure IbvGid where
  w0 : Nat
  w1 : Nat
  w2 : Nat
  w3 : Nat
deriving DecidableEq, Repr

/-- Whether `getGidAddrFamily` is `AF_INET`. -/
def isInetGid (gid : IbvGid) : Bool :=
  (gid.w0 = 0 || gid.w0 = 0xff0e0000) && gid.w1 = 0 && gid.w2 = 0xffff

def configuredGid (gid : IbvGid) : Bool :=
  !((gid.w0 = 0 || gid.w0 = 0xfe800000) && gid.w1 = 0 && gid.w2 = 0 && gid.w3 = 0)

def linkLocalGid (gid : IbvGid) : Bool := gid.w0 = 0xfe800000 && gid.w1 = 0

def validGid (gid : IbvGid) : Bool := configuredGid gid && !linkLocalGid gid

def gidSameSubnet (localGid remoteGid : IbvGid) (prefixLen : Nat) : Bool :=
  if isInetGid localGid ≠ isInetGid remoteGid then false
  else if isInetGid localGid then
    localGid.w3 / 2 ^ (32 - prefixLen) = remoteGid.w3 / 2 ^ (32 - prefixLen)
  else localGid.w0 = remoteGid.w0 && localGid.w1 = remoteGid.w1

def subnetMatchesAny (localGid : IbvGid) (remoteGids : List IbvGid) (prefixLen : Nat) : Bool :=
  remoteGids.any (fun remoteGid => validGid remoteGid && gidSameSubnet localGid remoteGid prefixLen)

/-! ## The devices of a side -/

/-- `ncclIbMergedDev`: the physical devices of its `vProps`.
`ncclIbMakeVDeviceInternal` takes at least one and at most eight. -/
structure NcclIbMergedDev where
  devs : List Nat
  pos : 0 < devs.length
  le : devs.length ≤ NCCL_IB_MAX_DEVS_PER_NIC

/-- What a side knows when it connects or accepts: its devices, its parameters and
`nQpsPerDev`, which is an `int`. -/
structure Host where
  mergedDevs : List NcclIbMergedDev
  ethernet : Nat → Bool
  params : IbParams
  nQpsPerDev : Int
  subnetAwareRouting : Bool
  subnetPrefixLen : Int
  mrcQpHintEnable : Bool
  mrcCcInitRate : Int
  mrcCcMinRate : Int
  mrcCcMaxRate : Int

/-- What the provider takes: a CQ of a size, the QP of an index. `others` is
whether all other calls of the handshake succeed. -/
structure Provider where
  createCq : Int → Bool
  createQp : Nat → Bool
  others : Bool

/-- Everything succeeds. -/
def Provider.willing : Provider := ⟨fun _ => true, fun _ => true, true⟩

/-- Whether the RoCE devices of a merged device all reach a remote GID. `gids` are
the local GIDs at the moment. A device without one is not checked. -/
def allPfsMatch (host : Host) (gids : Nat → Option IbvGid) (remoteGids : List IbvGid)
    (mDev : NcclIbMergedDev) : Bool :=
  let checked := mDev.devs.filterMap (fun d => if host.ethernet d then gids d else none)
  !checked.isEmpty && checked.all (fun localGid =>
    validGid localGid && subnetMatchesAny localGid remoteGids host.subnetPrefixLen.toNat)

/-- `ncclIbFindDevBySubnet`. -/
def ncclIbFindDevBySubnet (host : Host) (gids : Nat → Option IbvGid) (remoteGids : List IbvGid)
    (defaultDev : Nat) : Except Stop Nat :=
  if host.subnetPrefixLen < 1 ∨ host.subnetPrefixLen > 32 then
    .error (.ret ncclInvalidArgument)
  else if !remoteGids.any validGid then .ok defaultDev
  else if host.mergedDevs[defaultDev]?.any (allPfsMatch host gids remoteGids) then .ok defaultDev
  else
    let other := (List.range host.mergedDevs.length).find? (fun devIdx =>
      devIdx ≠ defaultDev && host.mergedDevs[devIdx]?.any (allPfsMatch host gids remoteGids))
    .ok (other.getD defaultDev)

/-! ## The QPs -/

/-- A side after its part of the handshake. `created` are the indexes of `qps`
that were written, each with the device of the QP. -/
structure Side where
  base : NcclIbNetCommBase
  nqps : Int
  created : List (Nat × Nat)

/-- `nqps` of the two functions, where the peer says how many devices it has. -/
def maxNqps (nQpsPerDev : Int) (ndevs : Nat) (remNdevs : Int) : Int :=
  let localNqps := i32 (nQpsPerDev * ndevs)
  let remoteNqps := i32 (nQpsPerDev * remNdevs)
  if remoteNqps > localNqps then remoteNqps else localNqps

/-- The base with the counts of a handshake. -/
def NcclIbNetCommBase.withCounts (base : NcclIbNetCommBase) (ndevs : Nat) (nqps : Int)
    (nDataQps : Nat) : NcclIbNetCommBase :=
  { base with ndevs, nqps := if nqps = -1 then none else some nqps.toNat, nDataQps := some nDataQps }

/-- The checks of `ncclIbQpCreateMrcHint`. -/
def ncclIbQpCreateMrcHint (host : Host) (numQpsPerPeer : Int) : Except Stop Unit :=
  if !host.mrcQpHintEnable then .ok ()
  else if numQpsPerPeer ≤ 0 ∨ numQpsPerPeer > NCCL_IB_MAX_QPS then .error (.ret ncclInvalidUsage)
  else if host.mrcCcInitRate < 0 ∨ host.mrcCcMinRate < 0 ∨ host.mrcCcMaxRate < 0 ∨
      host.mrcCcInitRate ≥ 2 ^ 32 ∨ host.mrcCcMaxRate ≥ 2 ^ 32 ∨
      host.mrcCcMinRate / numQpsPerPeer ≥ 2 ^ 32 then .error (.ret ncclInvalidUsage)
  else .ok ()

/-- The loop of `ncclIbSenderQpsCreate` and `ncclIbReceiverQpsCreateToRts`. Its
bound is `nqps` as a `uint`, and it does not look at the length of `qps`. -/
def qpsCreate (host : Host) (prov : Provider) (ndevs : Nat) (nqps : Int) :
    Except Stop (List (Nat × Nat)) :=
  (List.range (u32 nqps)).mapM (fun qpIndex =>
    match ncclIbQpCreateMrcHint host nqps with
    | .error e => .error e
    | .ok () =>
      if prov.createQp qpIndex then .ok (qpIndex, qpIndex % ndevs)
      else .error (.ret ncclSystemError))

/-- The CQs and the QPs of a side with the device list `devs`, whose counts are
fixed. -/
def sideCreate (host : Host) (prov : Provider) (base : NcclIbNetCommBase) (devs : List Nat)
    (nqps : Int) (nDataQps : Nat) (cqSize : Int) : Except Stop Side :=
  if !prov.createCq cqSize then .error (.ret ncclSystemError)
  else
    match qpsCreate host prov devs.length nqps with
    | .error e => .error e
    | .ok created =>
      if !prov.others then .error (.ret ncclSystemError)
      else .ok ⟨base.withCounts devs.length nqps nDataQps, nqps, created⟩

/-- `cqSize`. The devices of a resiliency context are those of the exchange. -/
def handshakeCqSize (host : Host) (base : NcclIbNetCommBase) (ndevs : Nat) (nqps : Int)
    (nDataQps : Nat) : Int :=
  let perRequest := if base.splitDataOnQps = 1 then nqps else nDataQps
  match base.resiliency, base.isSend with
  | true, true => i32 (i32 (NET_IB_MAX_REQUESTS * perRequest) * ndevs)
  | true, false => i32 (i32 (NET_IB_MAX_REQUESTS * 2 * perRequest) * ndevs)
  | false, true => i32 (NET_IB_MAX_REQUESTS * host.nQpsPerDev)
  | false, false =>
    i32 (i32 (2 * NET_IB_MAX_REQUESTS * host.nQpsPerDev) + speedUpdateRoom host.params)

/-! ## The two functions -/

/-- The first line of `ncclIbConnectImpl`, which every call of it runs. -/
def connectDev (host : Host) (gids : Nat → Option IbvGid) (listenGids : List IbvGid) (dev : Nat) :
    Except Stop Nat :=
  if host.subnetAwareRouting then ncclIbFindDevBySubnet host gids listenGids dev else .ok dev

/-- `ncclIbConnectImpl`. One call sends the device list and a later one gets that
of the peer, with the local GIDs of their time. Only the first looks whether its
device is there. -/
def ncclIbConnectImpl (host : Host) (prov : Provider) (base : NcclIbNetCommBase)
    (gids gids' : Nat → Option IbvGid) (listenGids : List IbvGid) (dev remNdevs : Nat) :
    Except Stop Side :=
  let base := ncclIbBaseCommInit host.params base true
  match connectDev host gids listenGids dev with
  | .error e => .error e
  | .ok first =>
    if first ≥ host.mergedDevs.length then .error (.ret ncclInternalError)
    else
      match connectDev host gids' listenGids dev with
      | .error e => .error e
      | .ok last =>
        match host.mergedDevs[last]? with
        | none => .error .badPointer
        | some mergedDev =>
          let ndevs := mergedDev.devs.length
          let nqps := maxNqps host.nQpsPerDev ndevs remNdevs
          let nDataQps := max ndevs remNdevs
          sideCreate host prov base mergedDev.devs nqps nDataQps
            (handshakeCqSize host base ndevs nqps nDataQps)

/-- The metadata of the peer: the link layer and the GID of each of its devices. -/
structure RemDev where
  ethernet : Bool
  gid : IbvGid

/-- The device that `ncclIbAcceptImpl` uses in the end. -/
def acceptDev (host : Host) (gids : Nat → Option IbvGid) (remDevs : List RemDev) (dev : Nat) :
    Except Stop Nat :=
  if host.subnetAwareRouting ∧ remDevs.length > 0 then
    ncclIbFindDevBySubnet host gids ((remDevs.filter (fun d => d.ethernet)).map (fun d => d.gid)) dev
  else .ok dev

/-- `ncclIbAcceptImpl`. The counts come from the list of `dev`, the device of the
listen comm. -/
def ncclIbAcceptImpl (host : Host) (prov : Provider) (base : NcclIbNetCommBase)
    (gids : Nat → Option IbvGid) (dev remNdevs : Nat) (remDevs : List RemDev) : Except Stop Side :=
  let base := ncclIbBaseCommInit host.params base false
  match host.mergedDevs[dev]? with
  | none => .error (.ret ncclInternalError)
  | some mergedDev =>
    let ndevs := mergedDev.devs.length
    let nqps := maxNqps host.nQpsPerDev ndevs remNdevs
    let nDataQps := max ndevs remNdevs
    match acceptDev host gids remDevs dev with
    | .error e => .error e
    | .ok effectiveDev =>
      match host.mergedDevs[effectiveDev]? with
      | none => .error .badPointer
      | some mergedDev =>
        sideCreate host prov base mergedDev.devs nqps nDataQps
          (handshakeCqSize host base ndevs nqps nDataQps)

/-! ## The property -/

/-- The indexes of the QPs of a side are all valid. -/
structure ValidSide (s : Side) : Prop where
  ndevs_pos : 1 ≤ s.base.ndevs
  ndevs_le : (s.base.ndevs : Int) ≤ s.nqps
  nqps_le : s.nqps ≤ NCCL_IB_MAX_QPS
  owned : ∀ d < s.base.ndevs, ∃ q, (q, d) ∈ s.created
  written : ∀ x ∈ s.created, x.1 < NCCL_IB_MAX_QPS
  data : ∀ id qpIndex qp, ncclIbCommBaseGetQpForRequest s.base id qpIndex = .ok qp →
    (qp.1 : Int) < s.nqps ∧ (qp.2 : Int) < s.nqps
  cts : ∀ id qp, p2p.ncclIbRecvCommGetQpForCts s.base id = .ok qp → (qp : Int) < s.nqps
  speeds : ∀ d < s.base.ndevs, (d : Int) < s.nqps

/-- The QPs that `nQpsPerDev` gives for the lists of the exchange are at most 128
and enough for `ndevs` devices. -/
def QpsInRange (nQpsPerDev : Int) (ndevs localNdevs remNdevs : Nat) : Prop :=
  ((ndevs : Int) ≤ i32 (nQpsPerDev * localNdevs) ∨ (ndevs : Int) ≤ i32 (nQpsPerDev * remNdevs)) ∧
    i32 (nQpsPerDev * localNdevs) ≤ NCCL_IB_MAX_QPS ∧ i32 (nQpsPerDev * remNdevs) ≤ NCCL_IB_MAX_QPS

theorem qpsInRange_iff (q : Int) (ndevs localNdevs remNdevs : Nat) :
    QpsInRange q ndevs localNdevs remNdevs ↔
      (ndevs : Int) ≤ maxNqps q localNdevs remNdevs ∧
        maxNqps q localNdevs remNdevs ≤ NCCL_IB_MAX_QPS := by
  unfold QpsInRange maxNqps
  simp only
  split <;> omega

instance (q : Int) (ndevs localNdevs remNdevs : Nat) :
    Decidable (QpsInRange q ndevs localNdevs remNdevs) :=
  decidable_of_iff _ (qpsInRange_iff q ndevs localNdevs remNdevs).symm

/-! ## A side that succeeded -/

theorem mapM_eq_map {α β : Type} {f : α → Except Stop β} {g : α → β}
    (hf : ∀ x y, f x = .ok y → y = g x) (l : List α) :
    ∀ {r : List β}, l.mapM f = .ok r → r = l.map g := by
  induction l with
  | nil =>
    intro r h
    cases h
    rfl
  | cons x xs ih =>
    intro r h
    rw [List.mapM_cons] at h
    cases hx : f x with
    | error e =>
      rw [hx] at h
      cases h
    | ok y =>
      rw [hx] at h
      cases hxs : xs.mapM f with
      | error e =>
        rw [show (Except.ok y >>= fun b => xs.mapM f >>= fun bs => pure (b :: bs)) =
          (xs.mapM f >>= fun bs => pure (y :: bs)) from rfl, hxs] at h
        cases h
      | ok ys =>
        rw [show (Except.ok y >>= fun b => xs.mapM f >>= fun bs => pure (b :: bs)) =
          (xs.mapM f >>= fun bs => pure (y :: bs)) from rfl, hxs] at h
        cases h
        rw [hf x y hx, ih hxs, List.map_cons]

section
variable {host : Host} {prov : Provider} {base : NcclIbNetCommBase} {s : Side}

theorem qpsCreate_ok {ndevs : Nat} {nqps : Int} {created : List (Nat × Nat)}
    (h : qpsCreate host prov ndevs nqps = .ok created) :
    created = (List.range (u32 nqps)).map (fun q => (q, q % ndevs)) := by
  refine mapM_eq_map (fun q y hy => ?_) _ h
  split at hy
  · cases hy
  split at hy
  · cases hy
    rfl
  · cases hy

theorem sideCreate_ok {devs : List Nat} {nqps : Int} {nDataQps : Nat} {cqSize : Int}
    (h : sideCreate host prov base devs nqps nDataQps cqSize = .ok s) :
    s = ⟨base.withCounts devs.length nqps nDataQps, nqps,
      (List.range (u32 nqps)).map (fun q => (q, q % devs.length))⟩ := by
  unfold sideCreate at h
  split at h
  · cases h
  split at h
  · cases h
  rename_i created hcreated
  split at h
  · cases h
  · cases h
    rw [qpsCreate_ok hcreated]

/-- Nothing but the hint of a QP stops a side when the provider takes all. -/
theorem sideCreate_willing {devs : List Nat} {nqps : Int} (nDataQps : Nat) (cqSize : Int)
    (hhint : ∀ q < u32 nqps, ncclIbQpCreateMrcHint host nqps = .ok ()) :
    sideCreate host .willing base devs nqps nDataQps cqSize =
      .ok ⟨base.withCounts devs.length nqps nDataQps, nqps,
        (List.range (u32 nqps)).map (fun q => (q, q % devs.length))⟩ := by
  have hcreate : qpsCreate host .willing devs.length nqps =
      .ok ((List.range (u32 nqps)).map (fun q => (q, q % devs.length))) := by
    refine mapM_ok _ fun q hq => ?_
    rw [hhint q (List.mem_range.mp hq)]
    rfl
  unfold sideCreate
  rw [hcreate]
  rfl

/-- A side whose counts are in range has valid indexes, and only such a side has. -/
theorem validSide_iff (hbase : base.activeQps = fun i => some i) {ndevs : Nat} (hpos : 0 < ndevs)
    (nqps : Int) (nDataQps : Nat) :
    ValidSide ⟨base.withCounts ndevs nqps nDataQps, nqps,
      (List.range (u32 nqps)).map (fun q => (q, q % ndevs))⟩ ↔
    (ndevs : Int) ≤ nqps ∧ nqps ≤ NCCL_IB_MAX_QPS := by
  constructor
  · exact fun h => ⟨h.ndevs_le, h.nqps_le⟩
  rintro ⟨hle, hmax⟩
  obtain ⟨n, rfl⟩ : ∃ n : Nat, nqps = n := ⟨nqps.toNat, by omega⟩
  have hn : ndevs ≤ n := by omega
  have hndevs : (base.withCounts ndevs n nDataQps).ndevs = ndevs := rfl
  have hcounts : (base.withCounts ndevs n nDataQps).nqps = some n := by
    unfold NcclIbNetCommBase.withCounts
    simp only
    rw [if_neg (by omega), Int.toNat_natCast]
  have hu : u32 (n : Int) = n := by
    unfold u32
    unfold NCCL_IB_MAX_QPS at hmax
    omega
  rw [hu]
  refine
    { ndevs_pos := hpos
      ndevs_le := hle
      nqps_le := hmax
      owned := fun d hd => ?_
      written := ?_
      data := ?_
      cts := ?_
      speeds := fun d hd => ?_ }
  · have hd : d < ndevs := hd
    refine ⟨d, List.mem_map.mpr ⟨d, List.mem_range.mpr (Nat.lt_of_lt_of_le hd hn), ?_⟩⟩
    rw [Nat.mod_eq_of_lt hd]
  · intro x hx
    obtain ⟨q, hq, rfl⟩ := List.mem_map.mp hx
    have := List.mem_range.mp hq
    simp only
    omega
  · intro id qpIndex qp hqp
    unfold ncclIbCommBaseGetQpForRequest at hqp
    obtain ⟨nQps, hnQps⟩ : ∃ nQps, ncclIbCommBaseGetNqpsPerRequest
        (base.withCounts ndevs n nDataQps) = .ok nQps := by
      unfold ncclIbCommBaseGetNqpsPerRequest
      rw [hcounts]
      exact ⟨_, rfl⟩
    rw [hnQps] at hqp
    have hactive : ∀ i, (base.withCounts ndevs n nDataQps).activeQps i = some i := fun i =>
      congrFun hbase i
    simp only [bind, Except.bind, hcounts, Option.getD_some, hactive] at hqp
    cases hqp
    have hlt := Nat.mod_lt ((id * nQps + qpIndex % 2 ^ 8) % 2 ^ 64) (show 0 < n by omega)
    exact ⟨Int.ofNat_lt.mpr hlt, Int.ofNat_lt.mpr hlt⟩
  · intro id qp hqp
    have hlt : id % 2 ^ 32 % ndevs < ndevs := Nat.mod_lt _ hpos
    have hget : ncclIbCommBaseGetQpByIndex (base.withCounts ndevs n nDataQps)
        (id % 2 ^ 32 % ndevs) 0 = .ok (some (id % 2 ^ 32 % ndevs)) := by
      unfold ncclIbCommBaseGetQpByIndex
      rw [hndevs, if_neg (Nat.not_le_of_lt hlt), Nat.mul_zero, Nat.zero_add]
      exact congrArg _ (congrFun hbase _)
    unfold p2p.ncclIbRecvCommGetQpForCts at hqp
    simp only at hqp
    rw [hndevs, hget] at hqp
    cases hqp
    exact Int.ofNat_lt.mpr (Nat.lt_of_lt_of_le hlt hn)
  · exact Int.ofNat_lt.mpr (Nat.lt_of_lt_of_le hd hn)

end

/-! ## The law -/

/-- When a side has connected or accepted, its indexes are valid exactly when
`nQpsPerDev` gives at most 128 QPs and enough of them for the devices of the list that is used
in the end. That list is the exchanged one, except that the accepting side may take
another after the exchange. -/
theorem qp_indexes_are_valid_iff_the_final_devices_have_qps (host : Host) (prov : Provider)
    (base : NcclIbNetCommBase) (gids gids' : Nat → Option IbvGid) (dev remNdevs : Nat) (s : Side) :
    (∀ listenGids, ncclIbConnectImpl host prov base gids gids' listenGids dev remNdevs = .ok s →
      ∃ last mergedDev, connectDev host gids' listenGids dev = .ok last ∧
        host.mergedDevs[last]? = some mergedDev ∧
        (ValidSide s ↔ QpsInRange host.nQpsPerDev mergedDev.devs.length mergedDev.devs.length
          remNdevs)) ∧
    (∀ remDevs, ncclIbAcceptImpl host prov base gids dev remNdevs remDevs = .ok s →
      ∃ mergedDev effectiveDev finalDev, host.mergedDevs[dev]? = some mergedDev ∧
        acceptDev host gids remDevs dev = .ok effectiveDev ∧
        host.mergedDevs[effectiveDev]? = some finalDev ∧
        (ValidSide s ↔ QpsInRange host.nQpsPerDev finalDev.devs.length mergedDev.devs.length
          remNdevs)) := by
  constructor
  · intro listenGids h
    unfold ncclIbConnectImpl at h
    simp only at h
    split at h
    · cases h
    split at h
    · cases h
    split at h
    · cases h
    rename_i last hlast
    split at h
    · cases h
    rename_i mergedDev hmerged
    refine ⟨last, mergedDev, hlast, hmerged, ?_⟩
    rw [sideCreate_ok h, qpsInRange_iff]
    exact validSide_iff rfl mergedDev.pos _ _
  · intro remDevs h
    unfold ncclIbAcceptImpl at h
    simp only at h
    split at h
    · cases h
    rename_i mergedDev hmerged
    split at h
    · cases h
    rename_i effectiveDev heffective
    split at h
    · cases h
    rename_i finalDev hfinal
    refine ⟨mergedDev, effectiveDev, finalDev, hmerged, heffective, hfinal, ?_⟩
    rw [sideCreate_ok h, qpsInRange_iff]
    exact validSide_iff rfl finalDev.pos _ _

/-- A host with the defaults, some merged devices and `nQpsPerDev`. -/
def plainHost (mergedDevs : List NcclIbMergedDev) (nQpsPerDev : Int) (subnetAware : Bool) : Host :=
  { mergedDevs
    ethernet := fun _ => true
    params := IbParams.defaults
    nQpsPerDev
    subnetAwareRouting := subnetAware
    subnetPrefixLen := 24
    mrcQpHintEnable := false
    mrcCcInitRate := 0
    mrcCcMinRate := 0
    mrcCcMaxRate := 0 }

/-- Device 0 is in 10.1.0.0/24. Devices 1 and 2 are in 10.1.1.0/24, and merged. -/
def twoSubnets : List NcclIbMergedDev := [⟨[0], by decide, by decide⟩, ⟨[1, 2], by decide, by decide⟩]

def twoSubnetGids : Nat → Option IbvGid
  | 0 => some ⟨0, 0, 0xffff, 0x0a010001⟩
  | d => some ⟨0, 0, 0xffff, 0x0a010100 + d⟩

/-- Eight merged devices. -/
def eightDevs : List NcclIbMergedDev := [⟨List.range 8, by decide, by decide⟩]

/-- With 16 QPs for each of eight devices, all 128 are used. -/
theorem eight_devices_have_room_for_16_qps_each :
    ∃ s, ncclIbConnectImpl (plainHost eightDevs 16 false) Provider.willing (freshBase Shape.one true)
      twoSubnetGids twoSubnetGids [] 0 8 = .ok s ∧ ValidSide s := by
  refine ⟨_, rfl, ?_⟩
  obtain ⟨last, mergedDev, hlast, hmerged, hiff⟩ :=
    (qp_indexes_are_valid_iff_the_final_devices_have_qps (plainHost eightDevs 16 false)
      Provider.willing (freshBase Shape.one true) twoSubnetGids twoSubnetGids 0 8 _).1 [] rfl
  cases hlast
  cases hmerged
  exact hiff.mpr (by decide)

/-- With 17 QPs for each of eight devices, the connecting side writes QPs past the
end of the array. A device that the accepting side takes late has no QP. -/
theorem a_late_device_has_no_qp :
    (¬ ∀ (host : Host) (prov : Provider) (base : NcclIbNetCommBase)
      (gids gids' : Nat → Option IbvGid) (listenGids : List IbvGid) (dev remNdevs : Nat) (s : Side),
      ncclIbConnectImpl host prov base gids gids' listenGids dev remNdevs = .ok s → ValidSide s) ∧
    ¬ ∀ (host : Host) (prov : Provider) (base : NcclIbNetCommBase) (gids : Nat → Option IbvGid)
      (dev remNdevs : Nat) (remDevs : List RemDev) (s : Side),
      ncclIbAcceptImpl host prov base gids dev remNdevs remDevs = .ok s → ValidSide s := by
  constructor
  · intro h
    have hvalid := h (plainHost eightDevs 17 false) Provider.willing (freshBase Shape.one true)
      twoSubnetGids twoSubnetGids [] 0 8 _ rfl
    exact absurd hvalid.nqps_le (by decide)
  · intro h
    have hvalid := h (plainHost twoSubnets 1 true) Provider.willing (freshBase Shape.one false)
      twoSubnetGids 0 1 [⟨true, ⟨0, 0, 0xffff, 0x0a010105⟩⟩] _ rfl
    exact absurd hvalid.ndevs_le (by decide)

end net_ib
