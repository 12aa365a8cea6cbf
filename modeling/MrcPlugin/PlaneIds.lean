-- The planes of the devices (init.cc). Each plane gets an index in a table of 14 entries,
-- and a virtual device of several physical ones has the set of their indexes as its plane,
-- next to a bit that no plane of a user has.
import MrcPlugin.VDevices
import MrcPlugin.Lib.Masks

namespace net_ib.vdev

open runs masks

/-! ## The functions -/

/-- `uniquePlaneIds` with `uniquePlaneCount`. A plane is an `int16_t`. -/
structure PlaneTable where
  count : Nat
  planes : Nat → BitVec 16

/-- The scan of `ncclIbGetPlaneIndex` with `n` entries left, from `p` on. -/
def scanPlanes (planes : Nat → BitVec 16) (devPlane : BitVec 32) : Nat → Nat → Except Stop Nat
  | 0, p => .ok p
  | n + 1, p => do
    let i ← arrayIndex NCCL_IB_PLANE_MAX_INDEX p
    if (planes i).signExtend 32 ≠ devPlane then scanPlanes planes devPlane n (p + 1) else .ok p

/-- `ncclIbGetPlaneIndex`. `devPlane` is an `int`. -/
def ncclIbGetPlaneIndex (devPlane : BitVec 32) (t : PlaneTable) :
    Except Stop (PlaneTable × Nat) := do
  let p ← scanPlanes t.planes devPlane t.count 0
  if p = t.count then
    if p = NCCL_IB_PLANE_MAX_INDEX - 1 then throw (.ret ncclInvalidUsage)
    else if devPlane ≠ BitVec.ofInt 32 NCCL_NET_ID_UNDEF ∧
        devPlane &&& BitVec.ofNat 32 NCCL_IB_PLANE_VIRT_BIT ≠ 0#32 then
      throw (.ret ncclInvalidUsage)
    else
      let i ← arrayIndex NCCL_IB_PLANE_MAX_INDEX t.count
      return (⟨t.count + 1, Function.update t.planes i (devPlane.setWidth 16)⟩, p)
  else return (t, p)

/-- The table before the loop over the devices. -/
def startTable : PlaneTable :=
  ⟨1, fun i => if i = 0 then BitVec.ofInt 16 NCCL_NET_ID_UNDEF else 0#16⟩

/-- The device gets its plane index. -/
def DevTable.setPlaneIdx (t : DevTable) (d planeIdx : Nat) : DevTable :=
  { t with ncclIbDevs := Function.update t.ncclIbDevs d { t.ncclIbDevs d with planeIdx } }

/-- The loop of `ncclIbInitDevices` over the last `n` devices, from device `d` on. -/
def exposePlanes : Nat → Nat → PlaneTable → DevTable → Except Stop DevTable
  | 0, _, _, t => .ok t
  | n + 1, d, planes, t => do
    let (planes, planeIdx) ← ncclIbGetPlaneIndex (BitVec.ofInt 32 (t.ncclIbDevs d).planeId) planes
    let (t, made) := ncclIbMakeVDeviceInternal (t.setPlaneIdx d planeIdx) (singleDev d)
    match made with
    | .error res => throw (.ret res)
    | .ok _ => exposePlanes n (d + 1) planes t

/-- `planeId |= (0x1 << planeIdx)` for an `int16_t`. -/
def orPlane (planeId : BitVec 16) (planeIdx : Nat) : BitVec 16 :=
  (planeId.signExtend 32 ||| 1#32 <<< planeIdx).setWidth 16

/-- The `planeId` that `ncclIbMakeVDeviceInternal` builds for several devices. -/
def packPlanes (planeIdxs : List Nat) : BitVec 16 :=
  planeIdxs.foldl orPlane (BitVec.ofNat 16 NCCL_IB_PLANE_VIRT_BIT)

/-! ## What they are for -/

/-- The plane indexes of the devices of a list. -/
def devIdxs (t : DevTable) (vProps : VProps) : List Nat :=
  (List.range vProps.ndevs.toNat).map (fun i : Nat => (t.ncclIbDevs (vProps.devs i)).planeIdx)

/-- The plane of a device in the list. -/
def Covers (t : DevTable) (vProps : VProps) (plane : Int) : Prop :=
  ∃ i : Nat, (i : Int) < vProps.ndevs ∧ (t.ncclIbDevs (vProps.devs i)).planeId = plane

/-- The devices of the list are physical devices. -/
def MadeFrom (t : DevTable) (props : VProps) : Prop :=
  ∀ i : Nat, (i : Int) < props.ndevs → 0 ≤ props.devs i ∧ props.devs i < t.ncclNIbDevs

/-- The devices before the loop. A `planeId` is an `int16_t`, and no virtual device is made
yet. -/
structure Found (t : DevTable) : Prop where
  plane : ∀ d, (BitVec.ofInt 16 (t.ncclIbDevs d).planeId).toInt = (t.ncclIbDevs d).planeId
  noneMade : t.ncclNMergedIbDevs = 0

/-- The calls of `ncclIbMakeVDevice` with lists of physical devices. -/
def mergeSystem (t0 : DevTable) : System DevTable where
  init := fun t => t = t0
  step := fun t t' => ∃ props, MadeFrom t props ∧ t' = (ncclIbMakeVDevice t props).1

/-- The planes of physical and virtual devices are told apart. -/
structure PlanesApart (t : DevTable) : Prop where
  index : ∀ d < t.ncclNIbDevs, ∀ e < t.ncclNIbDevs,
    ((t.ncclIbDevs d).planeIdx = (t.ncclIbDevs e).planeIdx ↔
      (t.ncclIbDevs d).planeId = (t.ncclIbDevs e).planeId)
  packed : ∀ v < t.ncclNMergedIbDevs, 2 ≤ (t.ncclIbMergedDevs v).vProps.ndevs →
    (t.ncclIbMergedDevs v).planeId = (packPlanes (devIdxs t (t.ncclIbMergedDevs v).vProps)).toInt
  physical : ∀ v < t.ncclNMergedIbDevs, 2 ≤ (t.ncclIbMergedDevs v).vProps.ndevs →
    ∀ d < t.ncclNIbDevs, (t.ncclIbMergedDevs v).planeId ≠ (t.ncclIbDevs d).planeId
  merged : ∀ u < t.ncclNMergedIbDevs, ∀ v < t.ncclNMergedIbDevs,
    2 ≤ (t.ncclIbMergedDevs u).vProps.ndevs → 2 ≤ (t.ncclIbMergedDevs v).vProps.ndevs →
      ((t.ncclIbMergedDevs u).planeId = (t.ncclIbMergedDevs v).planeId ↔
        ∀ plane, Covers t (t.ncclIbMergedDevs u).vProps plane ↔
          Covers t (t.ncclIbMergedDevs v).vProps plane)

/-! ## The table -/

/-- The table has a free entry behind the last plane, its planes differ, and none but the
undefined one has the bit of the virtual devices. -/
structure TableGood (t : PlaneTable) : Prop where
  room : t.count < NCCL_IB_PLANE_MAX_INDEX
  differ : ∀ i < t.count, ∀ j < t.count, t.planes i = t.planes j → i = j
  user : ∀ i < t.count, t.planes i = BitVec.ofInt 16 NCCL_NET_ID_UNDEF ∨
    (t.planes i).getLsbD NCCL_IB_PLANE_MAX_INDEX = false

/-- The planes of the first table stay in the second one. -/
def Grows (t t' : PlaneTable) : Prop :=
  t.count ≤ t'.count ∧ ∀ i < t.count, t'.planes i = t.planes i

section
variable {t : PlaneTable} {x : BitVec 16}

theorem Grows.refl (t : PlaneTable) : Grows t t := ⟨Nat.le_refl _, fun _ _ => rfl⟩

theorem Grows.trans {t' t'' : PlaneTable} (h : Grows t t') (h' : Grows t' t'') : Grows t t'' :=
  ⟨h.1.trans h'.1, fun i hi => (h'.2 i (Nat.lt_of_lt_of_le hi h.1)).trans (h.2 i hi)⟩

theorem startTable_good : TableGood startTable where
  room := by decide
  differ i hi j hj _ := by
    have hcount : startTable.count = 1 := rfl
    omega
  user i hi := by
    have hcount : startTable.count = 1 := rfl
    obtain rfl : i = 0 := by omega
    exact .inl rfl

theorem setWidth_signExtend (x : BitVec 16) : (x.signExtend 32).setWidth 16 = x := by
  ext i hi
  rw [BitVec.getElem_setWidth, BitVec.getLsbD_signExtend]
  simp [hi, show i < 32 by omega]

theorem signExtend_inj {y : BitVec 16} : x.signExtend 32 = y.signExtend 32 ↔ x = y := by
  refine ⟨fun h => ?_, congrArg _⟩
  rw [← setWidth_signExtend x, h, setWidth_signExtend]

/-- The scan ends at the first entry with the plane, or behind the last one. -/
theorem scanPlanes_spec (planes : Nat → BitVec 16) (x : BitVec 16) (n : Nat) {p : Nat}
    (hp : p + n ≤ NCCL_IB_PLANE_MAX_INDEX) :
    ∃ q, scanPlanes planes (x.signExtend 32) n p = .ok q ∧ q ≤ p + n ∧
      (∀ i, p ≤ i → i < q → planes i ≠ x) ∧ (q < p + n → planes q = x) := by
  induction n generalizing p with
  | zero => exact ⟨p, rfl, Nat.le_refl p, fun i h1 h2 => by omega, fun h => by omega⟩
  | succ n ih =>
    have hin : arrayIndex NCCL_IB_PLANE_MAX_INDEX p = .ok p := by
      rw [arrayIndex_ok ⟨Int.natCast_nonneg p, by omega⟩, Int.toNat_natCast]
    rw [scanPlanes, hin]
    simp only [bind, Except.bind, ne_eq, signExtend_inj]
    by_cases hx : planes p = x
    · rw [if_neg (not_not.mpr hx)]
      exact ⟨p, rfl, by omega, fun i h1 h2 => by omega, fun _ => hx⟩
    · obtain ⟨q, hq, hle, hbefore, hat⟩ := ih (p := p + 1) (by omega)
      rw [if_pos hx]
      refine ⟨q, hq, by omega, fun i h1 h2 => ?_, fun h => hat (by omega)⟩
      obtain rfl | hlt := Nat.eq_or_lt_of_le h1
      · exact hx
      · exact hbefore i hlt h2

/-- The reserved bit of an `int` that comes from a plane. -/
theorem virtBit_iff (x : BitVec 16) :
    x.signExtend 32 &&& BitVec.ofNat 32 NCCL_IB_PLANE_VIRT_BIT ≠ 0#32 ↔
      x.getLsbD NCCL_IB_PLANE_MAX_INDEX = true := by
  have hbit : (x.signExtend 32).getLsbD NCCL_IB_PLANE_MAX_INDEX =
      x.getLsbD NCCL_IB_PLANE_MAX_INDEX := by
    rw [BitVec.getLsbD_signExtend]
    simp [NCCL_IB_PLANE_MAX_INDEX]
  have htwo : BitVec.ofNat 32 NCCL_IB_PLANE_VIRT_BIT = BitVec.twoPow 32 NCCL_IB_PLANE_MAX_INDEX := rfl
  rw [htwo, BitVec.and_twoPow, hbit]
  cases x.getLsbD NCCL_IB_PLANE_MAX_INDEX with
  | false => simp
  | true =>
    rw [if_pos rfl]
    exact iff_of_true (by decide) rfl

/-- The reserved bit of the plane as a number. -/
theorem virtBit_toInt (x : BitVec 16) :
    x.toInt / 2 ^ NCCL_IB_PLANE_MAX_INDEX % 2 = 1 ↔ x.getLsbD NCCL_IB_PLANE_MAX_INDEX = true := by
  unfold NCCL_IB_PLANE_MAX_INDEX
  rw [← BitVec.testBit_toNat, Nat.testBit_eq_decide_div_mod_eq, decide_eq_true_iff,
    BitVec.toInt_eq_toNat_cond]
  split <;> omega

/-- What a call does with a good table: it finds the plane, it refuses it, or it adds it. -/
theorem ncclIbGetPlaneIndex_cases (h : TableGood t) (x : BitVec 16) :
    (∃ q < t.count, t.planes q = x ∧ ncclIbGetPlaneIndex (x.signExtend 32) t = .ok (t, q)) ∨
      (∀ i < t.count, t.planes i ≠ x) ∧
        ((t.count = NCCL_IB_PLANE_MAX_INDEX - 1 ∨ x ≠ BitVec.ofInt 16 NCCL_NET_ID_UNDEF ∧
            x.getLsbD NCCL_IB_PLANE_MAX_INDEX = true) ∧
          ncclIbGetPlaneIndex (x.signExtend 32) t = .error (.ret ncclInvalidUsage) ∨
        (t.count ≠ NCCL_IB_PLANE_MAX_INDEX - 1 ∧ (x = BitVec.ofInt 16 NCCL_NET_ID_UNDEF ∨
            x.getLsbD NCCL_IB_PLANE_MAX_INDEX = false)) ∧
          ncclIbGetPlaneIndex (x.signExtend 32) t =
            .ok (⟨t.count + 1, Function.update t.planes t.count x⟩, t.count)) := by
  have hroom := h.room
  obtain ⟨q, hq, hle, hbefore, hat⟩ := scanPlanes_spec t.planes x t.count (p := 0) (by omega)
  rw [Nat.zero_add] at hle hat
  have hundef : x.signExtend 32 ≠ BitVec.ofInt 32 NCCL_NET_ID_UNDEF ↔
      x ≠ BitVec.ofInt 16 NCCL_NET_ID_UNDEF := by
    rw [ne_eq, ne_eq, ← signExtend_inj]
    rfl
  unfold ncclIbGetPlaneIndex
  rw [hq]
  simp only [bind, Except.bind, hundef, virtBit_iff]
  by_cases hfound : q = t.count
  · right
    rw [if_pos hfound]
    refine ⟨fun i hi => hbefore i (Nat.zero_le i) (by omega), ?_⟩
    split
    next hfull => exact .inl ⟨.inl (hfound ▸ hfull), rfl⟩
    next hfull =>
      split
      next hbit => exact .inl ⟨.inr hbit, rfl⟩
      next hbit =>
        right
        rw [arrayIndex_ok ⟨Int.natCast_nonneg _, by omega⟩, Int.toNat_natCast, setWidth_signExtend]
        refine ⟨⟨hfound ▸ hfull, ?_⟩, by rw [hfound]; rfl⟩
        rw [not_and_or, not_not, Bool.not_eq_true] at hbit
        exact hbit
  · left
    rw [if_neg hfound]
    exact ⟨q, by omega, hat (by omega), rfl⟩

/-- A call that succeeds gives the index of an entry with the plane. -/
theorem TableGood.get (h : TableGood t) {t' : PlaneTable} {q : Nat}
    (hget : ncclIbGetPlaneIndex (x.signExtend 32) t = .ok (t', q)) :
    TableGood t' ∧ Grows t t' ∧ q < t'.count ∧ t'.planes q = x := by
  obtain ⟨p, hp, hx, hres⟩ | ⟨hnew, ⟨-, hres⟩ | ⟨⟨hfull, huser⟩, hres⟩⟩ := ncclIbGetPlaneIndex_cases h x
  · rw [hres] at hget
    cases hget
    exact ⟨h, .refl t, hp, hx⟩
  · rw [hres] at hget
    cases hget
  rw [hres] at hget
  cases hget
  have hroom := h.room
  have hold : ∀ i < t.count, Function.update t.planes t.count x i = t.planes i := fun i hi =>
    Function.update_of_ne (Nat.ne_of_lt hi) _ _
  have hself : Function.update t.planes t.count x t.count = x := Function.update_self ..
  refine ⟨⟨by dsimp only; omega, ?_, ?_⟩, ⟨Nat.le_succ _, hold⟩, Nat.lt_succ_self _, hself⟩
  · -- The new plane is not in the table.
    dsimp only
    intro i hi j hj heq
    obtain rfl | hi := Nat.eq_or_lt_of_le (Nat.le_of_lt_succ hi)
    · obtain rfl | hj := Nat.eq_or_lt_of_le (Nat.le_of_lt_succ hj)
      · rfl
      · rw [hself, hold j hj] at heq
        exact absurd heq.symm (hnew j hj)
    · obtain rfl | hj := Nat.eq_or_lt_of_le (Nat.le_of_lt_succ hj)
      · rw [hself, hold i hi] at heq
        exact absurd heq (hnew i hi)
      · rw [hold i hi, hold j hj] at heq
        exact h.differ i hi j hj heq
  · dsimp only
    intro i hi
    obtain rfl | hi := Nat.eq_or_lt_of_le (Nat.le_of_lt_succ hi)
    · rw [hself]
      exact huser
    · rw [hold i hi]
      exact h.user i hi

theorem TableGood.inRange (h : TableGood t) :
    InRange (ncclIbGetPlaneIndex (x.signExtend 32) t) := by
  unfold InRange
  obtain ⟨p, -, -, hres⟩ | ⟨-, ⟨-, hres⟩ | ⟨-, hres⟩⟩ := ncclIbGetPlaneIndex_cases h x
  · rw [hres]
    exact fun hcon => nomatch hcon
  · rw [hres]
    exact fun hcon => nomatch hcon
  · rw [hres]
    exact fun hcon => nomatch hcon

/-- The table as the list of its planes. -/
def PlaneTable.listed (t : PlaneTable) : List Int :=
  (List.range t.count).map (fun i => (t.planes i).toInt)

/-- On the list of the planes, a call is `ncclIbGetPlaneIndex` of the initialisation. -/
theorem ncclIbGetPlaneIndex_listed (h : TableGood t) (x : BitVec 16) :
    (ncclIbGetPlaneIndex (x.signExtend 32) t).map (fun r => (r.1.listed, r.2)) =
      net_ib.ncclIbGetPlaneIndex x.toInt t.listed := by
  have hlen : t.listed.length = t.count := by
    unfold PlaneTable.listed
    rw [List.length_map, List.length_range]
  have hmem : ∀ i < t.count, t.planes i ≠ x → (t.planes i).toInt ≠ x.toInt := fun i _ hne heq =>
    hne (BitVec.toInt_inj.mp heq)
  unfold net_ib.ncclIbGetPlaneIndex
  obtain ⟨p, hp, hx, hres⟩ | ⟨hnew, hrest⟩ := ncclIbGetPlaneIndex_cases h x
  · have hnodup : t.listed.Nodup := by
      refine List.Nodup.map_on ?_ List.nodup_range
      intro i hi j hj heq
      exact h.differ i (List.mem_range.mp hi) j (List.mem_range.mp hj) (BitVec.toInt_inj.mp heq)
    have hin : p < t.listed.length := hlen ▸ hp
    have hidx : t.listed.idxOf x.toInt = p := by
      have hget : t.listed[p] = x.toInt := by
        simp [PlaneTable.listed, hx]
      rw [← hget, hnodup.idxOf_getElem]
    rw [hres, hidx, if_pos (by omega)]
    rfl
  have hnot : x.toInt ∉ t.listed := by
    unfold PlaneTable.listed
    rw [List.mem_map]
    rintro ⟨i, hi, heq⟩
    exact hmem i (List.mem_range.mp hi) (hnew i (List.mem_range.mp hi)) heq
  have hidx : t.listed.idxOf x.toInt = t.count := hlen ▸ List.idxOf_eq_length hnot
  have hundef : x.toInt = NCCL_NET_ID_UNDEF ↔ x = BitVec.ofInt 16 NCCL_NET_ID_UNDEF := by
    rw [← BitVec.toInt_inj]
    rfl
  rw [hidx, hlen, if_neg (Nat.lt_irrefl _)]
  simp only [ne_eq, hundef, virtBit_toInt]
  obtain ⟨hbad, hres⟩ | ⟨⟨hfull, huser⟩, hres⟩ := hrest
  · rw [hres]
    split
    next => rfl
    next hfull => exact (if_pos (hbad.resolve_left hfull)).symm
  · rw [hres, if_neg hfull, if_neg]
    · unfold PlaneTable.listed
      dsimp only [Except.map]
      rw [List.range_succ, List.map_append]
      congr 3
      · refine List.map_congr_left fun i hi => ?_
        rw [Function.update_of_ne (Nat.ne_of_lt (List.mem_range.mp hi))]
      · simp
    · rintro ⟨hne, hbit⟩
      obtain rfl | hclear := huser
      · exact hne rfl
      · rw [hclear] at hbit
        cases hbit

end

/-! ## The planes of a virtual device -/

/-- The number that has the reserved bit and the plane indexes of a list. -/
def planeMask (planeIdxs : List Nat) : Nat := setBits NCCL_IB_PLANE_VIRT_BIT planeIdxs

section
variable {t t' : DevTable} {props : VProps} {l : List Nat}

theorem virtBit_testBit (k : Nat) :
    NCCL_IB_PLANE_VIRT_BIT.testBit k = decide (NCCL_IB_PLANE_MAX_INDEX = k) := by
  unfold NCCL_IB_PLANE_VIRT_BIT
  rw [Nat.one_shiftLeft, Nat.testBit_two_pow]

theorem planeMask_lt (h : ∀ i ∈ l, i < NCCL_IB_PLANE_MAX_INDEX) :
    planeMask l < 2 ^ (NCCL_IB_PLANE_MAX_INDEX + 1) :=
  setBits_lt (by decide) fun i hi => Nat.lt_succ_of_lt (h i hi)

/-- Lists of plane indexes have one mask just when they have the same indexes. -/
theorem planeMask_eq_iff {l' : List Nat} (h : ∀ i ∈ l, i < NCCL_IB_PLANE_MAX_INDEX)
    (h' : ∀ i ∈ l', i < NCCL_IB_PLANE_MAX_INDEX) :
    planeMask l = planeMask l' ↔ ∀ i, i ∈ l ↔ i ∈ l' := by
  have hother : ∀ i < NCCL_IB_PLANE_MAX_INDEX, NCCL_IB_PLANE_VIRT_BIT.testBit i = false := by
    intro i hi
    rw [virtBit_testBit]
    exact decide_eq_false (Nat.ne_of_gt hi)
  exact setBits_eq_iff (fun i hi => hother i (h i hi)) (fun i hi => hother i (h' i hi))

theorem orPlane_toNat (planeId : BitVec 16) {planeIdx : Nat} (h : planeIdx < 16) :
    (orPlane planeId planeIdx).toNat = planeId.toNat ||| 1 <<< planeIdx := by
  unfold orPlane
  rw [BitVec.setWidth_or, setWidth_signExtend, BitVec.setWidth_shiftLeft_of_le (by decide),
    BitVec.toNat_or, BitVec.toNat_shiftLeft]
  congr 1
  rw [show (BitVec.setWidth 16 1#32).toNat = 1 from rfl, Nat.one_shiftLeft]
  exact Nat.mod_eq_of_lt (Nat.pow_lt_pow_right (by decide) h)

/-- The 16 bits hold the number. -/
theorem packPlanes_toInt (h : ∀ i ∈ l, i < NCCL_IB_PLANE_MAX_INDEX) :
    (packPlanes l).toInt = planeMask l := by
  have hfold : ∀ (l : List Nat) (planeId : BitVec 16), (∀ i ∈ l, i < NCCL_IB_PLANE_MAX_INDEX) →
      (l.foldl orPlane planeId).toNat = setBits planeId.toNat l := by
    intro l
    induction l with
    | nil => exact fun _ _ => rfl
    | cons i l ih =>
      intro planeId h
      obtain ⟨hi, hl⟩ := List.forall_mem_cons.mp h
      have hlt : i < 16 := Nat.lt_trans hi (by decide)
      rw [List.foldl_cons, ih _ hl, orPlane_toNat planeId hlt, setBits_cons]
  have hnat : (packPlanes l).toNat = planeMask l := hfold l _ h
  have hlt := planeMask_lt h
  rw [BitVec.toInt_eq_toNat_of_lt, hnat]
  rw [hnat]
  unfold NCCL_IB_PLANE_MAX_INDEX at hlt
  omega

/-- The first loop of `ncclIbMakeVDeviceInternal` for several devices. -/
theorem copyDevs_planeId (t : DevTable) (hmany : 1 < props.ndevs) (n : Nat) {i m : Nat}
    {mDev : MergedDev} (hm : mDev.planeId = m) (hroom : (copyDevs t props n i mDev).2 = true) :
    (copyDevs t props n i mDev).1.planeId = setBits m ((List.range' i n).map
      (fun j : Nat => (t.ncclIbDevs (props.devs j)).planeIdx)) := by
  induction n generalizing i m mDev with
  | zero => exact hm
  | succ n ih =>
    rw [copyDevs] at hroom ⊢
    split at hroom
    next => cases hroom
    next hfree =>
      rw [if_neg hfree, List.range'_succ, List.map_cons, setBits_cons]
      refine ih ?_ hroom
      show (if props.ndevs > 1 then _ else _) = _
      rw [if_pos hmany, hm]
      rfl

/-- A call that succeeds puts the entry of its loop behind the others. -/
theorem makeVDevice_entry {v : Nat} (h : (ncclIbMakeVDevice t props).2 = .ok v) :
    (copyDevs t props props.ndevs.toNat 0
        (freshDev t props (t.ncclIbMergedDevs t.ncclNMergedIbDevs))).2 = true ∧
      (ncclIbMakeVDevice t props).1.ncclIbMergedDevs t.ncclNMergedIbDevs =
        (copyDevs t props props.ndevs.toNat 0
          (freshDev t props (t.ncclIbMergedDevs t.ncclNMergedIbDevs))).1 := by
  revert h
  unfold ncclIbMakeVDevice ncclIbMakeVDeviceInternal
  split
  · exact fun h => nomatch h
  split
  · exact fun h => nomatch h
  split
  · exact fun h => nomatch h
  dsimp only
  split
  · exact fun h => nomatch h
  rename_i hroom
  split
  · exact fun h => nomatch h
  rw [Bool.not_eq_true', Bool.not_eq_false] at hroom
  exact fun _ => ⟨hroom, Function.update_self ..⟩

theorem makeVDevice_ncclIbDevs (t : DevTable) (props : VProps) :
    (ncclIbMakeVDevice t props).1.ncclIbDevs = t.ncclIbDevs := by
  unfold ncclIbMakeVDevice ncclIbMakeVDeviceInternal
  split
  · rfl
  split
  · rfl
  split
  · rfl
  dsimp only
  split
  · rfl
  split <;> rfl

/-- A call leaves the devices that are made, and may add one with the list that it got. -/
theorem makeVDevice_adds (t : DevTable) (props : VProps) :
    SameDevs t (ncclIbMakeVDevice t props).1 ∧
      ((∃ res, (ncclIbMakeVDevice t props).2 = .error res) ∧
          (ncclIbMakeVDevice t props).1.ncclNMergedIbDevs = t.ncclNMergedIbDevs ∨
        (ncclIbMakeVDevice t props).2 = .ok t.ncclNMergedIbDevs ∧
          (ncclIbMakeVDevice t props).1.ncclNMergedIbDevs = t.ncclNMergedIbDevs + 1 ∧
          Copied props props.ndevs.toNat
            ((ncclIbMakeVDevice t props).1.ncclIbMergedDevs t.ncclNMergedIbDevs).vProps) := by
  by_cases hrefused : Refused t props
  · obtain ⟨res, hres, hsame, hcount⟩ := makeVDevice_refused hrefused
    exact ⟨hsame, .inl ⟨⟨res, hres⟩, hcount⟩⟩
  · obtain ⟨hres, hsame, hcount, hcopied⟩ := makeVDevice_accepted hrefused
    exact ⟨hsame, .inr ⟨hres, hcount, hcopied⟩⟩

/-! ## The loop over the devices -/

/-- The devices before `d` have the indexes of their planes, and each virtual device is one
physical device. -/
structure Indexed (planes : PlaneTable) (d : Nat) (t : DevTable) : Prop where
  table : TableGood planes
  plane : ∀ e, (BitVec.ofInt 16 (t.ncclIbDevs e).planeId).toInt = (t.ncclIbDevs e).planeId
  index : ∀ e < d, (t.ncclIbDevs e).planeIdx < planes.count ∧
    (planes.planes (t.ncclIbDevs e).planeIdx).toInt = (t.ncclIbDevs e).planeId
  single : ∀ v < t.ncclNMergedIbDevs, (t.ncclIbMergedDevs v).vProps.ndevs = 1

variable {planes planes' : PlaneTable} {d q : Nat}

theorem setPlaneIdx_self (t : DevTable) (d q : Nat) :
    (t.setPlaneIdx d q).ncclIbDevs d = { t.ncclIbDevs d with planeIdx := q } :=
  Function.update_self ..

theorem setPlaneIdx_of_ne (t : DevTable) {d : Nat} (q : Nat) {e : Int} (he : e ≠ d) :
    (t.setPlaneIdx d q).ncclIbDevs e = t.ncclIbDevs e :=
  Function.update_of_ne he _ _

theorem setPlaneIdx_planeId (t : DevTable) (d q : Nat) (e : Int) :
    ((t.setPlaneIdx d q).ncclIbDevs e).planeId = (t.ncclIbDevs e).planeId := by
  by_cases he : e = d
  · rw [he, setPlaneIdx_self]
  · rw [setPlaneIdx_of_ne t q he]

theorem Indexed.next (h : Indexed planes d t)
    (hget : ncclIbGetPlaneIndex (BitVec.ofInt 32 (t.ncclIbDevs d).planeId) planes = .ok (planes', q)) :
    Indexed planes' (d + 1) (ncclIbMakeVDevice (t.setPlaneIdx d q) (singleDev d)).1 := by
  have hint : BitVec.ofInt 32 (t.ncclIbDevs d).planeId =
      (BitVec.ofInt 16 (t.ncclIbDevs d).planeId).signExtend 32 :=
    congrArg (BitVec.ofInt 32) (h.plane d).symm
  rw [hint] at hget
  obtain ⟨htable, ⟨hcount, hold⟩, hlt, hplane⟩ := h.table.get hget
  obtain ⟨⟨-, hsame⟩, hadds⟩ := makeVDevice_adds (t.setPlaneIdx d q) (singleDev d)
  refine ⟨htable, fun e => ?_, fun e he => ?_, fun v hv => ?_⟩
  · rw [makeVDevice_ncclIbDevs, setPlaneIdx_planeId]
    exact h.plane e
  · rw [makeVDevice_ncclIbDevs]
    obtain rfl | he := Nat.eq_or_lt_of_le (Nat.le_of_lt_succ he)
    · rw [setPlaneIdx_self, hplane]
      exact ⟨hlt, h.plane e⟩
    · obtain ⟨hidx, hid⟩ := h.index e he
      rw [setPlaneIdx_of_ne t q (by omega), hold _ hidx]
      exact ⟨Nat.lt_of_lt_of_le hidx hcount, hid⟩
  · obtain ⟨-, hmerged⟩ | ⟨-, hmerged, hcopied⟩ := hadds
    · rw [hmerged] at hv
      rw [hsame v hv]
      exact h.single v hv
    · rw [hmerged] at hv
      obtain rfl | hv := Nat.eq_or_lt_of_le (Nat.le_of_lt_succ hv)
      · exact hcopied.ndevs
      · rw [hsame v hv]
        exact h.single v hv

/-- The loop stays in the table, and gives each device the index of its plane. -/
theorem exposePlanes_spec (n : Nat) (h : Indexed planes d t) :
    InRange (exposePlanes n d planes t) ∧
      ∀ t1, exposePlanes n d planes t = .ok t1 →
        t1.ncclNIbDevs = t.ncclNIbDevs ∧ ∃ planes1, Indexed planes1 (d + n) t1 := by
  induction n generalizing d planes t with
  | zero =>
    refine ⟨by rintro ⟨⟩, fun t1 ht1 => ?_⟩
    cases ht1
    exact ⟨rfl, planes, h⟩
  | succ n ih =>
    have hint : BitVec.ofInt 32 (t.ncclIbDevs d).planeId =
        (BitVec.ofInt 16 (t.ncclIbDevs d).planeId).signExtend 32 :=
      congrArg (BitVec.ofInt 32) (h.plane d).symm
    have hrange : InRange (ncclIbGetPlaneIndex (BitVec.ofInt 32 (t.ncclIbDevs d).planeId) planes) :=
      hint ▸ h.table.inRange
    rw [exposePlanes]
    cases hget : ncclIbGetPlaneIndex (BitVec.ofInt 32 (t.ncclIbDevs d).planeId) planes with
    | error stop =>
      rw [hget] at hrange
      refine ⟨?_, fun t1 ht1 => nomatch ht1⟩
      rintro ⟨⟩
      exact hrange rfl
    | ok r =>
      obtain ⟨planes', q⟩ := r
      have hnext := h.next hget
      have hsame := (makeVDevice_adds (t.setPlaneIdx d q) (singleDev d)).1.1
      unfold ncclIbMakeVDevice at hnext hsame
      simp only [bind, Except.bind]
      generalize ncclIbMakeVDeviceInternal (t.setPlaneIdx d q) (singleDev d) = r at hnext hsame
      obtain ⟨t', made⟩ := r
      cases made with
      | error res => exact ⟨by rintro ⟨⟩, fun t1 ht1 => nomatch ht1⟩
      | ok v =>
        obtain ⟨hin, hall⟩ := ih hnext
        refine ⟨hin, fun t1 ht1 => ?_⟩
        obtain ⟨hcount, hplanes⟩ := hall t1 ht1
        rw [Nat.add_right_comm, Nat.add_assoc] at hplanes
        exact ⟨hcount.trans hsame, hplanes⟩

/-! ## The calls after it -/

/-- A virtual device of several physical ones has the mask of their planes. -/
structure MaskOk (t : DevTable) (mDev : MergedDev) : Prop where
  madeFrom : MadeFrom t mDev.vProps
  planeId : mDev.planeId = planeMask (devIdxs t mDev.vProps)

def MasksOk (t : DevTable) : Prop :=
  ∀ v < t.ncclNMergedIbDevs, 2 ≤ (t.ncclIbMergedDevs v).vProps.ndevs →
    MaskOk t (t.ncclIbMergedDevs v)

/-- The indexes of a list that is a copy. -/
theorem devIdxs_copied {vProps : VProps} (hpos : 0 ≤ props.ndevs)
    (h : Copied props props.ndevs.toNat vProps) : devIdxs t vProps = devIdxs t props := by
  have hndevs : vProps.ndevs = props.ndevs := by
    rw [h.ndevs, Int.toNat_of_nonneg hpos]
  unfold devIdxs
  rw [hndevs]
  refine List.map_congr_left fun i hi => ?_
  rw [h.devs i (List.mem_range.mp hi)]

/-- A list of physical devices adds a virtual device with the mask of their planes. -/
theorem MasksOk.make (h : MasksOk t) (hfrom : MadeFrom t props) :
    MasksOk (ncclIbMakeVDevice t props).1 := by
  obtain ⟨⟨hphys, hsame⟩, hadds⟩ := makeVDevice_adds t props
  have hdevs := makeVDevice_ncclIbDevs t props
  -- The devices are the same before and after the call.
  have hmask : ∀ mDev, MaskOk t mDev → MaskOk (ncclIbMakeVDevice t props).1 mDev := by
    rintro mDev ⟨hmade, hplane⟩
    refine ⟨?_, ?_⟩
    · unfold MadeFrom
      rw [hphys]
      exact hmade
    · unfold devIdxs
      rw [hdevs]
      exact hplane
  intro v hv hmany
  obtain ⟨-, hcount⟩ | ⟨hres, hcount, hcopied⟩ := hadds
  · rw [hcount] at hv
    rw [hsame v hv] at hmany ⊢
    exact hmask _ (h v hv hmany)
  rw [hcount] at hv
  obtain rfl | hv := Nat.eq_or_lt_of_le (Nat.le_of_lt_succ hv)
  · have hndevs := hcopied.ndevs
    have hpos : 1 < props.ndevs := by omega
    apply hmask
    refine ⟨fun i hi => ?_, ?_⟩
    · rw [hcopied.devs i (by omega)]
      exact hfrom i (by omega)
    · obtain ⟨hroom, hentry⟩ := makeVDevice_entry hres
      have hfresh : (freshDev t props (t.ncclIbMergedDevs t.ncclNMergedIbDevs)).planeId =
          NCCL_IB_PLANE_VIRT_BIT := if_pos hpos
      rw [devIdxs_copied (by omega) hcopied, hentry, copyDevs_planeId t hpos _ hfresh hroom]
      unfold planeMask devIdxs
      rw [List.range_eq_range']
  · rw [hsame v hv] at hmany ⊢
    exact hmask _ (h v hv hmany)

/-! ## The law -/

/-- All devices have the indexes of their planes. -/
def AllIndexed (planes : PlaneTable) (t : DevTable) : Prop :=
  ∀ e < t.ncclNIbDevs, (t.ncclIbDevs e).planeIdx < planes.count ∧
    (planes.planes (t.ncclIbDevs e).planeIdx).toInt = (t.ncclIbDevs e).planeId

/-- Planes have one index just when they are the same. -/
theorem AllIndexed.eq_iff (h : AllIndexed planes t) (htable : TableGood planes) {d e : Nat}
    (hd : d < t.ncclNIbDevs) (he : e < t.ncclNIbDevs) :
    (t.ncclIbDevs d).planeIdx = (t.ncclIbDevs e).planeIdx ↔
      (t.ncclIbDevs d).planeId = (t.ncclIbDevs e).planeId := by
  obtain ⟨hdlt, hdid⟩ := h d hd
  obtain ⟨helt, heid⟩ := h e he
  constructor
  · intro hidx
    rw [← hdid, ← heid, hidx]
  · intro hid
    rw [← hdid, ← heid] at hid
    exact htable.differ _ hdlt _ helt (BitVec.toInt_inj.mp hid)

theorem mem_devIdxs {vProps : VProps} :
    q ∈ devIdxs t vProps ↔
      ∃ i : Nat, (i : Int) < vProps.ndevs ∧ (t.ncclIbDevs (vProps.devs i)).planeIdx = q := by
  unfold devIdxs
  rw [List.mem_map]
  constructor
  · rintro ⟨i, hi, hq⟩
    rw [List.mem_range] at hi
    exact ⟨i, by omega, hq⟩
  · rintro ⟨i, hi, hq⟩
    exact ⟨i, List.mem_range.mpr (by omega), hq⟩

/-- The number of a device of the list. -/
theorem MadeFrom.dev (h : MadeFrom t props) {i : Nat} (hi : (i : Int) < props.ndevs) :
    ∃ e : Nat, e < t.ncclNIbDevs ∧ props.devs i = e := by
  obtain ⟨h0, hlt⟩ := h i hi
  exact ⟨(props.devs i).toNat, by omega, by omega⟩

theorem AllIndexed.bound (h : AllIndexed planes t) (htable : TableGood planes)
    (hfrom : MadeFrom t props) : ∀ q ∈ devIdxs t props, q < NCCL_IB_PLANE_MAX_INDEX := by
  intro q hq
  obtain ⟨i, hi, rfl⟩ := mem_devIdxs.mp hq
  obtain ⟨e, he, hdev⟩ := hfrom.dev hi
  rw [hdev]
  exact Nat.lt_trans (h e he).1 htable.room

/-- Lists of devices have the same indexes among them just when they have the same planes. -/
theorem AllIndexed.covers_iff (h : AllIndexed planes t) (htable : TableGood planes)
    {props' : VProps} (hfrom : MadeFrom t props) (hfrom' : MadeFrom t props') :
    (∀ q ∈ devIdxs t props, q ∈ devIdxs t props') ↔
      ∀ plane, Covers t props plane → Covers t props' plane := by
  constructor
  · rintro hsub plane ⟨i, hi, rfl⟩
    obtain ⟨j, hj, hidx⟩ := mem_devIdxs.mp (hsub _ (mem_devIdxs.mpr ⟨i, hi, rfl⟩))
    obtain ⟨d, hd, hdev⟩ := hfrom.dev hi
    obtain ⟨e, he, hdev'⟩ := hfrom'.dev hj
    refine ⟨j, hj, ?_⟩
    rw [hdev, hdev'] at hidx
    rw [hdev, hdev']
    exact (h.eq_iff htable he hd).mp hidx
  · rintro hsub q hq
    obtain ⟨i, hi, rfl⟩ := mem_devIdxs.mp hq
    obtain ⟨j, hj, hid⟩ := hsub _ ⟨i, hi, rfl⟩
    obtain ⟨d, hd, hdev⟩ := hfrom.dev hi
    obtain ⟨e, he, hdev'⟩ := hfrom'.dev hj
    refine mem_devIdxs.mpr ⟨j, hj, ?_⟩
    rw [hdev, hdev'] at hid
    rw [hdev, hdev']
    exact (h.eq_iff htable he hd).mpr hid

/-- No plane of a table is a mask. -/
theorem TableGood.ne_mask (h : TableGood planes) (hq : q < planes.count) :
    (planes.planes q).toInt ≠ planeMask l := by
  intro heq
  obtain hundef | huser := h.user q hq
  · rw [hundef, show (BitVec.ofInt 16 NCCL_NET_ID_UNDEF).toInt = -1 from rfl] at heq
    omega
  · have hset : (planeMask l).testBit NCCL_IB_PLANE_MAX_INDEX = true := by
      unfold planeMask
      rw [testBit_setBits, virtBit_testBit]
      simp
    have hbit := (virtBit_toInt (planes.planes q)).not.mpr (by rw [huser]; decide)
    rw [Nat.testBit_eq_decide_div_mod_eq, decide_eq_true_iff] at hset
    rw [heq] at hbit
    exact hbit (by exact_mod_cast hset)

theorem AllIndexed.apart (h : AllIndexed planes t) (htable : TableGood planes) (hmasks : MasksOk t) :
    PlanesApart t where
  index _ hd _ he := h.eq_iff htable hd he
  packed v hv hmany := by
    obtain ⟨hfrom, hplane⟩ := hmasks v hv hmany
    rw [hplane, packPlanes_toInt (h.bound htable hfrom)]
  physical v hv hmany d hd := by
    obtain ⟨hidx, hid⟩ := h d hd
    rw [(hmasks v hv hmany).planeId, ← hid]
    exact (htable.ne_mask hidx).symm
  merged u hu v hv hmanyU hmanyV := by
    obtain ⟨hfromU, hplaneU⟩ := hmasks u hu hmanyU
    obtain ⟨hfromV, hplaneV⟩ := hmasks v hv hmanyV
    rw [hplaneU, hplaneV, Int.natCast_inj,
      planeMask_eq_iff (h.bound htable hfromU) (h.bound htable hfromV)]
    have hforth := h.covers_iff htable hfromU hfromV
    have hback := h.covers_iff htable hfromV hfromU
    constructor
    · exact fun heq plane => ⟨hforth.mp (fun q hq => (heq q).mp hq) plane,
        hback.mp (fun q hq => (heq q).mpr hq) plane⟩
    · exact fun hcov q => ⟨hforth.mpr (fun p hp => (hcov p).mp hp) q,
        hback.mpr (fun p hp => (hcov p).mpr hp) q⟩

end

/-- The table of planes is never used out of its bounds. When each device has got an index,
the indexes tell the planes apart in every run of `ncclIbMakeVDevice`, and the plane of a
device of several physical ones is no physical plane, and tells which planes it covers. -/
theorem planes_are_told_apart (t0 : DevTable) (h : Found t0) :
    InRange (exposePlanes t0.ncclNIbDevs 0 startTable t0) ∧
      ∀ t1, exposePlanes t0.ncclNIbDevs 0 startTable t0 = .ok t1 →
        ∀ t, Reachable (mergeSystem t1) t → PlanesApart t := by
  have hstart : Indexed startTable 0 t0 := by
    refine ⟨startTable_good, h.plane, fun e he => absurd he (Nat.not_lt_zero e), fun v hv => ?_⟩
    rw [h.noneMade] at hv
    exact absurd hv (Nat.not_lt_zero v)
  obtain ⟨hin, hloop⟩ := exposePlanes_spec t0.ncclNIbDevs hstart
  refine ⟨hin, fun t1 ht1 t hreach => ?_⟩
  obtain ⟨hcount, planes, htable, -, hindex, hsingle⟩ := hloop t1 ht1
  rw [Nat.zero_add, ← hcount] at hindex
  have hrun : t.ncclNIbDevs = t1.ncclNIbDevs ∧ t.ncclIbDevs = t1.ncclIbDevs ∧ MasksOk t := by
    apply hreach.invariant
    · rintro _ rfl
      refine ⟨rfl, rfl, fun v hv hmany => ?_⟩
      rw [hsingle v hv] at hmany
      omega
    · rintro s s' - ⟨hphys, hdevs, hmasks⟩ ⟨props, hfrom, rfl⟩
      exact ⟨(makeVDevice_adds s props).1.1.trans hphys,
        (makeVDevice_ncclIbDevs s props).trans hdevs, hmasks.make hfrom⟩
  obtain ⟨hphys, hdevs, hmasks⟩ := hrun
  have hindexed : AllIndexed planes t := by
    unfold AllIndexed
    rw [hphys, hdevs]
    exact hindex
  exact hindexed.apart htable hmasks

/-- Three devices, of which the first and the last one have one plane. -/
def threeDevs : DevTable :=
  { physTable 3 with ncclIbDevs := fun d => { noDev with planeId := if d = 1 then 9 else 5 } }

/-- The devices with their indexes. -/
def threeIndexed : DevTable := (exposePlanes 3 0 startTable threeDevs).toOption.getD threeDevs

/-- The first two are merged. -/
def twoMerged : DevTable := (ncclIbMakeVDevice threeIndexed ⟨2, fun i => i⟩).1

theorem merged_planes_are_told_apart :
    PlanesApart twoMerged ∧ (twoMerged.ncclIbMergedDevs 3).planeId = 0x4006 := by
  have hfound : Found threeDevs := by
    refine ⟨fun d => ?_, rfl⟩
    show (BitVec.ofInt 16 (if d = 1 then 9 else 5)).toInt = if d = 1 then 9 else 5
    split <;> rfl
  have hok : exposePlanes threeDevs.ncclNIbDevs 0 startTable threeDevs = .ok threeIndexed := rfl
  have hmade : MadeFrom threeIndexed ⟨2, fun i => i⟩ := by
    intro i hi
    have hlt : (i : Int) < 2 := hi
    have hcount : threeIndexed.ncclNIbDevs = 3 := rfl
    rw [hcount]
    exact ⟨Int.natCast_nonneg i, by dsimp only; omega⟩
  have hreach : Reachable (mergeSystem threeIndexed) threeIndexed := .init rfl
  exact ⟨(planes_are_told_apart threeDevs hfound).2 threeIndexed hok twoMerged
    (hreach.step ⟨_, hmade, rfl⟩), rfl⟩

end net_ib.vdev
