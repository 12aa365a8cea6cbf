-- How the QPs of a connection lie over the devices (connect.cc), and which of
-- them a request uses (common.h). The number of QPs comes from the larger of
-- the two device counts, and QP q lies on device q % ndevs of each side.
import MrcPlugin.CommBase
import Mathlib.Data.List.Nodup

namespace net_ib

/-! ## The shape of a connection -/

/-- The two device counts and `nQpsPerDev`, as one side sees them. -/
structure Shape where
  ndevs : Nat
  nRemDevs : Nat
  qpsPerDev : Nat
  ndevs_pos : 0 < ndevs
  ndevs_le : ndevs ≤ NCCL_IB_MAX_DEVS_PER_NIC
  nRemDevs_pos : 0 < nRemDevs
  nRemDevs_le : nRemDevs ≤ NCCL_IB_MAX_DEVS_PER_NIC
  qpsPerDev_pos : 0 < qpsPerDev
  nqps_le : qpsPerDev * max ndevs nRemDevs ≤ NCCL_IB_MAX_QPS

namespace Shape

/-- `nDataQps` of `ncclIbConnectImpl` and `ncclIbAcceptImpl`. -/
def nDataQps (sh : Shape) : Nat := max sh.ndevs sh.nRemDevs

/-- `nqps` of `ncclIbConnectImpl` and `ncclIbAcceptImpl`. -/
def nqps (sh : Shape) : Nat := sh.qpsPerDev * sh.nDataQps

theorem nDataQps_pos (sh : Shape) : 0 < sh.nDataQps := by
  have := sh.ndevs_pos
  unfold nDataQps
  omega

theorem nqps_pos (sh : Shape) : 0 < sh.nqps := Nat.mul_pos sh.qpsPerDev_pos sh.nDataQps_pos

theorem nqps_le_128 (sh : Shape) : sh.nqps ≤ 128 := sh.nqps_le

theorem nDataQps_le_nqps (sh : Shape) : sh.nDataQps ≤ sh.nqps :=
  Nat.le_mul_of_pos_left _ sh.qpsPerDev_pos

theorem ndevs_le_nDataQps (sh : Shape) : sh.ndevs ≤ sh.nDataQps := Nat.le_max_left _ _

/-- The connection as the other side sees it. -/
def swap (sh : Shape) : Shape :=
  { ndevs := sh.nRemDevs, nRemDevs := sh.ndevs, qpsPerDev := sh.qpsPerDev
    ndevs_pos := sh.nRemDevs_pos, ndevs_le := sh.nRemDevs_le
    nRemDevs_pos := sh.ndevs_pos, nRemDevs_le := sh.ndevs_le
    qpsPerDev_pos := sh.qpsPerDev_pos
    nqps_le := by rw [Nat.max_comm]; exact sh.nqps_le }

theorem swap_nDataQps (sh : Shape) : sh.swap.nDataQps = sh.nDataQps := Nat.max_comm _ _

theorem swap_nqps (sh : Shape) : sh.swap.nqps = sh.nqps := by
  unfold nqps
  rw [swap_nDataQps]
  rfl

end Shape

/-- A comm with the QPs of a connection of shape `sh`: striped over the devices
of both sides. -/
structure Striped (sh : Shape) (base : NcclIbNetCommBase) : Prop where
  ndevs : base.ndevs = sh.ndevs
  nqps : base.nqps = some sh.nqps
  nDataQps : base.nDataQps = some sh.nDataQps
  devIndex : ∀ q < sh.nqps, (base.qps q).devIndex = q % sh.ndevs
  remDevIdx : ∀ q < sh.nqps, (base.qps q).remDevIdx = q % sh.nRemDevs

/-- The number of QPs that carry one request. -/
def reqQps (sh : Shape) (base : NcclIbNetCommBase) : Nat :=
  if base.splitDataOnQps = 1 then sh.nqps else sh.nDataQps

/-- The index in `qps` of part `i` of request `id`. -/
def reqQpIndex (sh : Shape) (base : NcclIbNetCommBase) (id i : Nat) : Nat :=
  (id * reqQps sh base + i % 2 ^ 8) % 2 ^ 64 % sh.nqps

section
variable (sh : Shape) (base : NcclIbNetCommBase)

theorem reqQps_pos : 0 < reqQps sh base := by
  unfold reqQps
  split
  · exact sh.nqps_pos
  · exact sh.nDataQps_pos

theorem reqQps_le : reqQps sh base ≤ 128 := by
  have := sh.nqps_le_128
  have := sh.nDataQps_le_nqps
  unfold reqQps
  split <;> omega

theorem ndevs_le_reqQps : sh.ndevs ≤ reqQps sh base := by
  have := sh.ndevs_le_nDataQps
  have := sh.nDataQps_le_nqps
  unfold reqQps
  split <;> omega

/-- The QPs of a request divide all QPs into groups of the same size. -/
theorem exists_groups : ∃ k, 0 < k ∧ sh.nqps = reqQps sh base * k := by
  unfold reqQps
  split
  · exact ⟨1, by omega, by omega⟩
  · exact ⟨sh.qpsPerDev, sh.qpsPerDev_pos, Nat.mul_comm _ _⟩

variable {sh base}

theorem nqpsPerRequest_eq (h : Striped sh base) :
    ncclIbCommBaseGetNqpsPerRequest base = .ok (reqQps sh base) := by
  unfold ncclIbCommBaseGetNqpsPerRequest reqQps
  rw [h.nqps, h.nDataQps]

theorem qpForRequest_eq (h : Striped sh base) (id i : Nat) {p : Nat}
    (hp : base.activeQps (reqQpIndex sh base id i) = some p) :
    ncclIbCommBaseGetQpForRequest base id i = .ok (p, reqQpIndex sh base id i) := by
  unfold ncclIbCommBaseGetQpForRequest
  unfold reqQpIndex at hp ⊢
  rw [nqpsPerRequest_eq h, h.nqps]
  simp only [bind, Except.bind, Option.getD_some, hp]

variable (sh base)

/-- The QPs of request `id` in a comm of shape `sh`. -/
def qpsOf (sh : Shape) (base : NcclIbNetCommBase) (id : Nat) : List (Nat × Nat) :=
  (List.range (reqQps sh base)).map (fun i =>
    ((base.activeQps (reqQpIndex sh base id i)).getD 0, reqQpIndex sh base id i))

theorem qpsOf_indexes (id : Nat) : (qpsOf sh base id).map Prod.snd =
    (List.range (reqQps sh base)).map (reqQpIndex sh base id) := by
  unfold qpsOf
  rw [List.map_map]
  rfl

theorem qpsOf_length_le (id : Nat) : (qpsOf sh base id).length ≤ 128 := by
  unfold qpsOf
  rw [List.length_map, List.length_range]
  exact reqQps_le sh base

theorem reqQpIndex_lt (id i : Nat) : reqQpIndex sh base id i < sh.nqps :=
  Nat.mod_lt _ sh.nqps_pos

/-- The QPs of a request are one group: `reqQps` indexes in a row, from a
multiple of `reqQps` on. -/
theorem reqQpIndex_eq {id : Nat} (hid : id < 2 ^ 56) :
    ∃ start, ∀ i < reqQps sh base, reqQpIndex sh base id i = start + i := by
  obtain ⟨k, hk, hn⟩ := exists_groups sh base
  have hle := reqQps_le sh base
  refine ⟨reqQps sh base * (id % k), ?_⟩
  intro i hi
  have hmul : id * reqQps sh base ≤ 2 ^ 56 * 128 := Nat.mul_le_mul (by omega) hle
  unfold reqQpIndex
  rw [hn, Nat.mod_eq_of_lt (show i < 2 ^ 8 by omega),
    Nat.mod_eq_of_lt (show id * reqQps sh base + i < 2 ^ 64 by omega), Nat.mod_mul,
    Nat.mul_comm id, Nat.mul_add_mod, Nat.mod_eq_of_lt hi, Nat.mul_add_div (reqQps_pos sh base),
    Nat.div_eq_of_lt hi, Nat.add_zero, Nat.add_comm]

theorem qpsOf_lt {sh : Shape} {base : NcclIbNetCommBase} {id : Nat} {q : Nat × Nat}
    (hq : q ∈ qpsOf sh base id) : q.2 < sh.nqps := by
  obtain ⟨i, _, rfl⟩ := List.mem_map.mp hq
  exact reqQpIndex_lt sh base id i

theorem reqQpIndex_nodup {id : Nat} (hid : id < 2 ^ 56) :
    ((List.range (reqQps sh base)).map (reqQpIndex sh base id)).Nodup := by
  obtain ⟨start, hs⟩ := reqQpIndex_eq sh base hid
  refine List.Nodup.map_on ?_ List.nodup_range
  intro a ha b hb hab
  rw [hs a (List.mem_range.mp ha), hs b (List.mem_range.mp hb)] at hab
  omega

variable {sh base}

/-- With every QP active, the QPs of a request are found. -/
theorem requestQps_eq (h : Striped sh base)
    (hact : ∀ q < sh.nqps, (base.activeQps q).isSome) (id : Nat) :
    requestQps base id = .ok (qpsOf sh base id) := by
  have hle := reqQps_le sh base
  unfold requestQps
  rw [nqpsPerRequest_eq h]
  show (do
    if reqQps sh base > NCCL_IB_MAX_QPS then throw (Stop.ret ncclInternalError)
    (List.range (reqQps sh base)).mapM (fun i => ncclIbCommBaseGetQpForRequest base id i)
      : Except Stop _) = _
  rw [if_neg (by unfold NCCL_IB_MAX_QPS; omega)]
  refine mapM_ok _ (fun i _ => ?_)
  refine qpForRequest_eq h _ _ ?_
  obtain ⟨p, hp⟩ := Option.isSome_iff_exists.mp (hact _ (reqQpIndex_lt sh base id i))
  rw [hp]
  rfl

/-- Every device carries a part of every request. -/
theorem exists_part_on_device (h : Striped sh base) {id d : Nat} (hid : id < 2 ^ 56)
    (hd : d < sh.ndevs) :
    ∃ i < reqQps sh base, (base.qps (reqQpIndex sh base id i)).devIndex = d := by
  obtain ⟨start, hs⟩ := reqQpIndex_eq sh base hid
  have hle := ndevs_le_reqQps sh base
  -- The first index from `start` on that lies on device `d`.
  refine ⟨(d + sh.ndevs - start % sh.ndevs) % sh.ndevs, ?_, ?_⟩
  · have := Nat.mod_lt (d + sh.ndevs - start % sh.ndevs) sh.ndevs_pos
    omega
  · have hi : (d + sh.ndevs - start % sh.ndevs) % sh.ndevs < reqQps sh base := by
      have := Nat.mod_lt (d + sh.ndevs - start % sh.ndevs) sh.ndevs_pos
      omega
    rw [h.devIndex _ (reqQpIndex_lt sh base id _), hs _ hi, Nat.add_mod, Nat.mod_mod, ← Nat.add_mod,
      Nat.add_mod start, ← Nat.mod_mod start, ← Nat.add_mod]
    have := Nat.mod_lt start sh.ndevs_pos
    rw [Nat.mod_mod, show start % sh.ndevs + (d + sh.ndevs - start % sh.ndevs) = d + sh.ndevs by omega,
      Nat.add_mod_right, Nat.mod_eq_of_lt hd]

end

/-! ## A comm as the handshake leaves it -/

/-- A request of a comm that `calloc` has cleared. -/
def blankRequest : NcclIbRequest :=
  { type := NCCL_NET_IB_REQ_UNUSED, events := fun _ => 0, devBases := fun _ => false, id := 0
    nreqs := 0
    send := { size := 0, data := 0, lkeys := fun _ => 0, sentData := fun _ => false
              weights := fun _ => 0 }
    recv := { cmplsRecords := 0, aggSize := 0 } }

/-- The base of a comm of shape `sh`, where QP `q` has number `q`. -/
def freshBase (sh : Shape) (isSend : Bool) : NcclIbNetCommBase :=
  { ndevs := sh.ndevs
    devs := fun i => i
    isSend
    reqs := fun _ => blankRequest
    qps := fun q => ⟨q, q % sh.ndevs, q % sh.nRemDevs, 512⟩
    activeQps := fun q => some q
    fifoHead := 0
    nqps := some sh.nqps
    splitDataOnQps := 0
    ready := true
    nRemDevs := sh.nRemDevs
    remOooRq := false
    localOooRq := false
    recvMatchingScheme := BY_ID
    nDataQps := some sh.nDataQps
    remDevs := fun _ => ⟨0, 1, 5, 2, 0, 0, 0, 0, 0⟩
    fatalErrorCount := 0
    resiliency := false
    speedChangeCounter := 0
    totalSpeed := 0
    weights := fun _ => 100 / sh.ndevs
    devSpeeds := fun _ => 0 }

theorem striped_freshBase (sh : Shape) (isSend : Bool) : Striped sh (freshBase sh isSend) :=
  ⟨rfl, rfl, rfl, fun _ _ => rfl, fun _ _ => rfl⟩

/-- One device and one QP on each side. -/
def Shape.one : Shape := ⟨1, 1, 1, by decide, by decide, by decide, by decide, by decide, by decide⟩

/-- The shape with these numbers. -/
def Shape.of (ndevs nRemDevs qpsPerDev : Nat)
    (h : 0 < ndevs ∧ ndevs ≤ NCCL_IB_MAX_DEVS_PER_NIC ∧ 0 < nRemDevs ∧
      nRemDevs ≤ NCCL_IB_MAX_DEVS_PER_NIC ∧ 0 < qpsPerDev ∧
      qpsPerDev * max ndevs nRemDevs ≤ NCCL_IB_MAX_QPS) : Shape :=
  ⟨ndevs, nRemDevs, qpsPerDev, h.1, h.2.1, h.2.2.1, h.2.2.2.1, h.2.2.2.2.1, h.2.2.2.2.2⟩

/-- A comm with two devices on each side. -/
def Shape.two : Shape := Shape.of 2 2 1 (by decide)

/-- Two devices on each side, two QPs for each device. -/
def Shape.twoTwo : Shape := Shape.of 2 2 2 (by decide)

end net_ib
