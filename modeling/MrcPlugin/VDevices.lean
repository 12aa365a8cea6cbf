-- The virtual devices (init.cc, gdr.cc). A virtual device is a list of physical ones, and
-- the numbers of both are of one type. Arrays of 256 and of 32 entries are indexed with
-- them.
import MrcPlugin.DeviceInit
import MrcPlugin.SubnetDev

namespace net_ib.vdev

open runs

/-! ## The data -/

/-- `ncclNetVDeviceProps_t`. -/
structure VProps where
  ndevs : Int
  devs : Nat → Int

/-- The fields of `ncclIbDev` that a virtual device is made from. -/
structure PhysDev where
  link : Nat
  speed : Int
  railId : Int
  planeId : Int
  planeIdx : Nat
  devName : List Char
deriving DecidableEq, Repr

/-- `ncclIbMergedDev`. -/
structure MergedDev where
  vProps : VProps
  speed : Int
  railId : Int
  planeId : Int
  devName : List Char

/-- The two arrays and their counts. `ncclIbDevs` is what the memory holds at an index,
inside the array or not, and `ncclIbMergedDevs` has entries that were begun and given
up. -/
structure DevTable where
  mergeNics : Int
  ncclNIbDevs : Nat
  ncclIbDevs : Int → PhysDev
  ncclNMergedIbDevs : Nat
  ncclIbMergedDevs : Nat → MergedDev

def NCCL_IB_PLANE_VIRT_BIT : Nat := 1 <<< NCCL_IB_PLANE_MAX_INDEX

/-! ## The creation -/

/-- The turn of the first loop of `ncclIbMakeVDeviceInternal` for device `i`. -/
def copyDev (t : DevTable) (props : VProps) (i : Nat) (mDev : MergedDev) : MergedDev :=
  let dev := t.ncclIbDevs (props.devs i)
  let k := mDev.vProps.ndevs.toNat
  { vProps :=
      ⟨mDev.vProps.ndevs + 1, fun j => if j = k then props.devs i else mDev.vProps.devs j⟩
    speed := mDev.speed + dev.speed
    railId :=
      if dev.railId = NCCL_NET_ID_UNDEF ∨ mDev.railId ≠ dev.railId then NCCL_NET_ID_UNDEF
      else mDev.railId
    planeId :=
      if props.ndevs > 1 then ((mDev.planeId.toNat ||| 1 <<< dev.planeIdx : Nat) : Int)
      else mDev.planeId
    devName := if mDev.vProps.ndevs = 0 then dev.devName else mDev.devName ++ '+' :: dev.devName }

/-- The first loop: the entry, and whether all devices have a place. -/
def copyDevs (t : DevTable) (props : VProps) : Nat → Nat → MergedDev → MergedDev × Bool
  | 0, _, mDev => (mDev, true)
  | n + 1, i, mDev =>
    if mDev.vProps.ndevs = NCCL_IB_MAX_DEVS_PER_NIC then (mDev, false)
    else copyDevs t props n (i + 1) (copyDev t props i mDev)

/-- The second loop: the devices after the first one exist and have its link layer. -/
def checkLinks (t : DevTable) (props : VProps) : Nat → Nat → Bool
  | 0, _ => true
  | n + 1, i =>
    if props.devs i ≥ t.ncclNIbDevs then false
    else if (t.ncclIbDevs (props.devs i)).link ≠ (t.ncclIbDevs (props.devs 0)).link then false
    else checkLinks t props n (i + 1)

/-- The entry before the first loop. -/
def freshDev (t : DevTable) (props : VProps) (old : MergedDev) : MergedDev :=
  let dev0 := t.ncclIbDevs (props.devs 0)
  { vProps := ⟨0, old.vProps.devs⟩
    speed := 0
    railId := dev0.railId
    planeId := if props.ndevs > 1 then NCCL_IB_PLANE_VIRT_BIT else dev0.planeId
    devName := old.devName }

/-- `ncclIbMakeVDeviceInternal`: the table, and the number of the device or the result. -/
def ncclIbMakeVDeviceInternal (t : DevTable) (props : VProps) : DevTable × Except NcclResult Nat :=
  if t.mergeNics = 0 ∧ props.ndevs > 1 then (t, .error ncclInvalidUsage)
  else if props.ndevs = 0 then (t, .error ncclInvalidUsage)
  else if t.ncclNMergedIbDevs = MAX_IB_VDEVS then (t, .error ncclInvalidUsage)
  else
    let n := t.ncclNMergedIbDevs
    let (mDev, room) :=
      copyDevs t props props.ndevs.toNat 0 (freshDev t props (t.ncclIbMergedDevs n))
    let t' := { t with ncclIbMergedDevs := Function.update t.ncclIbMergedDevs n mDev }
    if !room then (t', .error ncclInvalidUsage)
    else if !checkLinks t props (props.ndevs.toNat - 1) 1 then (t', .error ncclInvalidUsage)
    else ({ t' with ncclNMergedIbDevs := n + 1 }, .ok n)

/-- `ncclIbMakeVDevice`. -/
def ncclIbMakeVDevice (t : DevTable) (props : VProps) : DevTable × Except NcclResult Nat :=
  ncclIbMakeVDeviceInternal t props

/-! ## The uses of device numbers -/

/-- The use of an index in an array of `size` entries. -/
def arrayIndex (size : Nat) (i : Int) : Except Stop Nat :=
  if 0 ≤ i ∧ i < size then .ok i.toNat else .error .badPointer

/-- What the system supports. -/
structure GdrEnv where
  gdrSupport : Bool
  dmaBufSupported : Nat → Bool

/-- `ncclIbDmaBufSupport`, whose flags are an array of 32. -/
def ncclIbDmaBufSupport (t : DevTable) (env : GdrEnv) (dev : Int) : Except Stop Bool := do
  let _ ← arrayIndex MAX_IB_DEVS dev
  let v ← arrayIndex MAX_IB_VDEVS dev
  let d ← arrayIndex MAX_IB_DEVS ((t.ncclIbMergedDevs v).vProps.devs 0)
  return env.dmaBufSupported d

/-- The properties that depend on the device. `ptrSupport` is the DMA-BUF bit. -/
structure NetProperties where
  devName : List Char
  speed : Int
  railId : Int
  planeId : Int
  ptrSupport : Bool
  vProps : VProps

/-- `ncclIbGetPhysProperties`. -/
def ncclIbGetPhysProperties (t : DevTable) (env : GdrEnv) (dev : Int) (props : NetProperties) :
    Except Stop NetProperties := do
  let _ ← arrayIndex MAX_IB_DEVS dev
  let ibDev := t.ncclIbDevs dev
  let ptrSupport ← ncclIbDmaBufSupport t env dev
  return { props with
    devName := ibDev.devName, speed := ibDev.speed, railId := ibDev.railId
    planeId := ibDev.planeId, ptrSupport }

/-- `ncclIbGetProperties`. -/
def ncclIbGetProperties (t : DevTable) (env : GdrEnv) (dev : Int) (props : NetProperties) :
    Except Stop NetProperties := do
  if dev ≥ t.ncclNMergedIbDevs then throw (.ret ncclInvalidUsage)
  else
    let v ← arrayIndex MAX_IB_VDEVS dev
    let mergedDev := t.ncclIbMergedDevs v
    let props ← ncclIbGetPhysProperties t env (mergedDev.vProps.devs 0) props
    return { props with
      devName := mergedDev.devName, speed := mergedDev.speed, railId := mergedDev.railId
      planeId := mergedDev.planeId, vProps := mergedDev.vProps }

/-- A loop over the physical devices of a virtual one, which has a place for each of
them. -/
def useDevs (t : DevTable) (dev : Int) : Except Stop Unit := do
  let v ← arrayIndex MAX_IB_VDEVS dev
  let vProps := (t.ncclIbMergedDevs v).vProps
  forM (List.range vProps.ndevs.toNat) (fun i : Nat => do
    let _ ← arrayIndex NCCL_IB_MAX_DEVS_PER_NIC i
    let _ ← arrayIndex MAX_IB_DEVS (vProps.devs i)
    return ())

/-- What a handshake finds: the answers of the ports, the remote GIDs and the parameters. -/
structure SubnetEnv where
  subnetAwareRouting : Bool
  prefixLen : Int
  remoteGids : List IbvGid
  portAttr : Nat → IbvPortAttr
  user : GidFilter
  port : Nat → Nat → GidPort

/-- The devices as the search for a subnet sees them. -/
def DevTable.subnetHost (t : DevTable) (env : SubnetEnv) : subnet.SubnetHost where
  mergedDevs := (List.range t.ncclNMergedIbDevs).map (fun v =>
    (List.range (t.ncclIbMergedDevs v).vProps.ndevs.toNat).map
      (fun i => ((t.ncclIbMergedDevs v).vProps.devs i).toNat))
  portAttr := env.portAttr
  user := env.user
  port := env.port

/-- The device that `ncclIbFindDevBySubnet` finds, if it succeeds. It may look at all
virtual devices. -/
def findDev (t : DevTable) (env : SubnetEnv) (dev : Int) : Except Stop Int :=
  if env.subnetAwareRouting then do
    forM (List.range t.ncclNMergedIbDevs) (fun v : Nat => useDevs t v)
    let (found, res) :=
      subnet.ncclIbFindDevBySubnet (t.subnetHost env) env.remoteGids env.prefixLen dev
    if res ≠ ncclSuccess then throw (.ret res) else return found
  else return dev

/-- The device numbers in `ncclIbListen`. -/
def ncclIbListen (t : DevTable) (env : SubnetEnv) (dev : Int) : Except Stop Unit :=
  if env.subnetAwareRouting ∧ dev < t.ncclNMergedIbDevs then useDevs t dev else return ()

/-- The device numbers in `ncclIbConnectImpl`: the search, the check, and the loops over
the devices. -/
def ncclIbConnectImpl (t : DevTable) (env : SubnetEnv) (dev : Int) : Except Stop Unit := do
  let dev ← findDev t env dev
  if dev ≥ t.ncclNMergedIbDevs then throw (.ret ncclInternalError) else useDevs t dev

/-- The same in a later call, which has passed the check. -/
def connectLater (t : DevTable) (env : SubnetEnv) (dev : Int) : Except Stop Unit := do
  let dev ← findDev t env dev
  useDevs t dev

/-- The device numbers in `ncclIbAcceptImpl`. The device that is found takes the place of
the one of the listen comm, and is asked for DMA-BUF. -/
def ncclIbAcceptImpl (t : DevTable) (env : SubnetEnv) (gdr : GdrEnv) (dev : Int) :
    Except Stop Bool := do
  if dev ≥ t.ncclNMergedIbDevs then throw (.ret ncclInternalError)
  else
    useDevs t dev
    let dev ← findDev t env dev
    useDevs t dev
    if gdr.gdrSupport then return true else ncclIbDmaBufSupport t gdr dev

/-! ## The properties -/

/-- A virtual device has at least one physical device and at most eight, which exist. -/
structure Existing (ncclNIbDevs : Nat) (vProps : VProps) : Prop where
  pos : 1 ≤ vProps.ndevs
  le : vProps.ndevs ≤ NCCL_IB_MAX_DEVS_PER_NIC
  devs : ∀ i : Nat, (i : Int) < vProps.ndevs → 0 ≤ vProps.devs i ∧ vProps.devs i < ncclNIbDevs

/-- The devices that are made are the same as before. -/
def SameDevs (t t' : DevTable) : Prop :=
  t'.ncclNIbDevs = t.ncclNIbDevs ∧
    ∀ v < t.ncclNMergedIbDevs, t'.ncclIbMergedDevs v = t.ncclIbMergedDevs v

/-- A call fails and adds nothing, or it adds a virtual device that exists. -/
def AddsExisting (t : DevTable) (r : DevTable × Except NcclResult Nat) : Prop :=
  SameDevs t r.1 ∧
    ((∃ res, r.2 = .error res ∧ r.1.ncclNMergedIbDevs = t.ncclNMergedIbDevs) ∨
      r.2 = .ok t.ncclNMergedIbDevs ∧ r.1.ncclNMergedIbDevs = t.ncclNMergedIbDevs + 1 ∧
        Existing t.ncclNIbDevs (r.1.ncclIbMergedDevs t.ncclNMergedIbDevs).vProps)

/-- A check of the code refuses the call. -/
def Refused (t : DevTable) (props : VProps) : Prop :=
  (t.mergeNics = 0 ∧ props.ndevs > 1) ∨ props.ndevs = 0 ∨ t.ncclNMergedIbDevs = MAX_IB_VDEVS ∨
    props.ndevs > NCCL_IB_MAX_DEVS_PER_NIC ∨
    ∃ i : Nat, 1 ≤ i ∧ (i : Int) < props.ndevs ∧
      (props.devs i ≥ t.ncclNIbDevs ∨
        (t.ncclIbDevs (props.devs i)).link ≠ (t.ncclIbDevs (props.devs 0)).link)

/-- What the code does not check: the list is not of negative length, its first device
exists, and the others are not negative. -/
structure Sane (t : DevTable) (props : VProps) : Prop where
  pos : 0 < props.ndevs
  first : 0 ≤ props.devs 0 ∧ props.devs 0 < t.ncclNIbDevs
  rest : ∀ i : Nat, 1 ≤ i → (i : Int) < props.ndevs → 0 ≤ props.devs i

/-- No index is outside of its array. -/
def InRange {α : Type} (r : Except Stop α) : Prop := r ≠ .error .badPointer

/-- The uses of the numbers of existing devices stay in the arrays. A call of accept does
so exactly when it does not ask for DMA-BUF or the device that it asks for is below 32. -/
structure UsesInRange (t : DevTable) : Prop where
  properties : ∀ v < t.ncclNMergedIbDevs, ∀ env props, InRange (ncclIbGetProperties t env v props)
  dmaBuf : ∀ d < t.ncclNIbDevs, ∀ env, InRange (ncclIbDmaBufSupport t env d)
  listen : ∀ v < t.ncclNMergedIbDevs, ∀ env, InRange (ncclIbListen t env v)
  connect : ∀ v < t.ncclNMergedIbDevs, ∀ env, InRange (ncclIbConnectImpl t env v)
  later : ∀ v < t.ncclNMergedIbDevs, ∀ env, InRange (connectLater t env v)
  accept : ∀ v < t.ncclNMergedIbDevs, ∀ env gdr,
    InRange (ncclIbAcceptImpl t env gdr v) ↔
      gdr.gdrSupport = true ∨ ∀ found, findDev t env v = .ok found → found < MAX_IB_DEVS

/-- The virtual device of one physical device, as `ncclIbInitDevices` asks for it. -/
def singleDev (d : Nat) : VProps := ⟨1, fun i => if i = 0 then d else 0⟩

/-- The loop of `ncclIbInitDevices` over the physical devices. -/
def exposeAll (t : DevTable) : DevTable :=
  (List.range t.ncclNIbDevs).foldl (fun t d => (ncclIbMakeVDeviceInternal t (singleDev d)).1) t

/-- The runs of `ncclIbMakeVDevice` after the initialisation with up to 32 devices. Each
list is refused by a check or `Sane`. -/
def vdevSystem : System DevTable where
  init := fun t => ∃ t0 : DevTable, t0.ncclNIbDevs ≤ MAX_IB_DEVS ∧ t0.ncclNMergedIbDevs = 0 ∧
    t = exposeAll t0
  step := fun t t' => ∃ props, (Refused t props ∨ Sane t props) ∧ t' = (ncclIbMakeVDevice t props).1

/-! ## The two loops -/

section
variable {t : DevTable} {props : VProps}

/-- The first loop has copied the devices before `i`. -/
structure Copied (props : VProps) (i : Nat) (vProps : VProps) : Prop where
  ndevs : vProps.ndevs = i
  le : i ≤ NCCL_IB_MAX_DEVS_PER_NIC
  devs : ∀ j < i, vProps.devs j = props.devs j

theorem copyDev_copied (t : DevTable) {i : Nat} {mDev : MergedDev} (h : Copied props i mDev.vProps)
    (hroom : mDev.vProps.ndevs ≠ NCCL_IB_MAX_DEVS_PER_NIC) :
    Copied props (i + 1) (copyDev t props i mDev).vProps := by
  have hle := h.le
  have hndevs := h.ndevs
  refine ⟨?_, by omega, ?_⟩
  · show mDev.vProps.ndevs + 1 = _
    omega
  · intro j hj
    show (if j = mDev.vProps.ndevs.toNat then _ else _) = _
    rw [hndevs, Int.toNat_natCast]
    split
    · rename_i heq
      rw [heq]
    · exact h.devs j (by omega)

/-- The loop copies all devices, or there are more than eight. -/
theorem copyDevs_copied (t : DevTable) (n : Nat) {i : Nat} {mDev : MergedDev}
    (h : Copied props i mDev.vProps) :
    ((copyDevs t props n i mDev).2 = true ∧
        Copied props (i + n) (copyDevs t props n i mDev).1.vProps) ∨
      (copyDevs t props n i mDev).2 = false ∧ NCCL_IB_MAX_DEVS_PER_NIC < i + n := by
  induction n generalizing i mDev with
  | zero => exact .inl ⟨rfl, h⟩
  | succ n ih =>
    rw [copyDevs]
    split
    · rename_i hfull
      have := h.ndevs
      exact .inr ⟨rfl, by omega⟩
    · rename_i hroom
      have hrest := ih (copyDev_copied t h hroom)
      rw [Nat.add_right_comm, Nat.add_assoc] at hrest
      exact hrest

theorem checkLinks_iff (n i : Nat) :
    checkLinks t props n i = true ↔
      ∀ j, i ≤ j → j < i + n → props.devs j < t.ncclNIbDevs ∧
        (t.ncclIbDevs (props.devs j)).link = (t.ncclIbDevs (props.devs 0)).link := by
  induction n generalizing i with
  | zero =>
    rw [checkLinks]
    constructor
    · intro _ j h1 h2
      omega
    · exact fun _ => rfl
  | succ n ih =>
    rw [checkLinks]
    split
    · rename_i hbad
      constructor
      · intro h
        cases h
      · intro h
        have := (h i (Nat.le_refl i) (by omega)).1
        omega
    rename_i hin
    split
    · rename_i hlink
      constructor
      · intro h
        cases h
      · exact fun h => absurd (h i (Nat.le_refl i) (by omega)).2 hlink
    rename_i hlink
    rw [ih]
    constructor
    · intro h j h1 h2
      obtain rfl | hlt := Nat.eq_or_lt_of_le h1
      · exact ⟨by omega, not_not.mp hlink⟩
      · exact h j hlt (by omega)
    · exact fun h j h1 h2 => h j (by omega) (by omega)

/-! ## A call -/

/-- A call that is refused leaves the devices that are made. -/
theorem makeVDevice_refused (h : Refused t props) :
    ∃ res, (ncclIbMakeVDevice t props).2 = .error res ∧ SameDevs t (ncclIbMakeVDevice t props).1 ∧
      (ncclIbMakeVDevice t props).1.ncclNMergedIbDevs = t.ncclNMergedIbDevs := by
  have hsame : ∀ mDev, SameDevs t { t with
      ncclIbMergedDevs := Function.update t.ncclIbMergedDevs t.ncclNMergedIbDevs mDev } := by
    intro mDev
    refine ⟨rfl, fun v hv => ?_⟩
    exact Function.update_of_ne (Nat.ne_of_lt hv) _ _
  unfold ncclIbMakeVDevice ncclIbMakeVDeviceInternal
  split
  · exact ⟨_, rfl, ⟨rfl, fun _ _ => rfl⟩, rfl⟩
  rename_i hmerge
  split
  · exact ⟨_, rfl, ⟨rfl, fun _ _ => rfl⟩, rfl⟩
  rename_i hempty
  split
  · exact ⟨_, rfl, ⟨rfl, fun _ _ => rfl⟩, rfl⟩
  rename_i hfull
  simp only
  split
  · exact ⟨_, rfl, hsame _, rfl⟩
  rename_i hroom
  split
  · exact ⟨_, rfl, hsame _, rfl⟩
  rename_i hlinks
  -- No check has refused the call.
  exfalso
  have hcopied : Copied props 0
      (freshDev t props (t.ncclIbMergedDevs t.ncclNMergedIbDevs)).vProps :=
    ⟨rfl, Nat.zero_le _, fun j hj => absurd hj (Nat.not_lt_zero j)⟩
  rw [Bool.not_eq_true', Bool.not_eq_false] at hroom hlinks
  obtain h1 | h2 | h3 | h4 | ⟨i, hi, hlt, hbad⟩ := h
  · exact hmerge h1
  · exact hempty h2
  · exact hfull h3
  · obtain ⟨-, hc⟩ | ⟨hc, -⟩ := copyDevs_copied t props.ndevs.toNat hcopied
    · have := hc.le
      omega
    · rw [hroom] at hc
      cases hc
  · have := (checkLinks_iff _ _).mp hlinks i hi (by omega)
    obtain hbad | hbad := hbad
    · omega
    · exact hbad this.2

/-- A call that no check refuses adds a device with the list that it got. -/
theorem makeVDevice_accepted (h : ¬Refused t props) :
    (ncclIbMakeVDevice t props).2 = .ok t.ncclNMergedIbDevs ∧
      SameDevs t (ncclIbMakeVDevice t props).1 ∧
      (ncclIbMakeVDevice t props).1.ncclNMergedIbDevs = t.ncclNMergedIbDevs + 1 ∧
      Copied props props.ndevs.toNat
        ((ncclIbMakeVDevice t props).1.ncclIbMergedDevs t.ncclNMergedIbDevs).vProps := by
  unfold Refused at h
  push Not at h
  obtain ⟨hmerge, hempty, hfull, hle, hrest⟩ := h
  have hcopied : Copied props 0
      (freshDev t props (t.ncclIbMergedDevs t.ncclNMergedIbDevs)).vProps :=
    ⟨rfl, Nat.zero_le _, fun j hj => absurd hj (Nat.not_lt_zero j)⟩
  obtain ⟨hroom, hc⟩ | ⟨-, hbad⟩ := copyDevs_copied t props.ndevs.toNat hcopied
  · rw [Nat.zero_add] at hc
    have hlinks : checkLinks t props (props.ndevs.toNat - 1) 1 = true := by
      rw [checkLinks_iff]
      intro j h1 h2
      exact hrest j h1 (by omega)
    unfold ncclIbMakeVDevice ncclIbMakeVDeviceInternal
    rw [if_neg (fun hcon => absurd (hmerge hcon.1) (by omega)), if_neg hempty, if_neg hfull]
    simp only
    rw [hroom, hlinks, if_neg (by decide), if_neg (by decide)]
    refine ⟨rfl, ⟨rfl, fun v hv => Function.update_of_ne (Nat.ne_of_lt hv) _ _⟩, rfl, ?_⟩
    simp only
    rw [Function.update_self]
    exact hc
  · omega

/-- A call fails or adds a device that exists exactly when a check refuses it or the list
is sane. -/
theorem addsExisting_iff :
    AddsExisting t (ncclIbMakeVDevice t props) ↔ Refused t props ∨ Sane t props := by
  by_cases hrefused : Refused t props
  · obtain ⟨res, hres, hsame, hcount⟩ := makeVDevice_refused hrefused
    exact ⟨fun _ => .inl hrefused, fun _ => ⟨hsame, .inl ⟨res, hres, hcount⟩⟩⟩
  obtain ⟨hres, hsame, hcount, hcopied⟩ := makeVDevice_accepted hrefused
  have hndevs := hcopied.ndevs
  have hle := hcopied.le
  have hbound : ∀ i : Nat, 1 ≤ i → (i : Int) < props.ndevs → props.devs i < t.ncclNIbDevs := by
    intro i h1 hlt
    by_contra hge
    exact hrefused (.inr (.inr (.inr (.inr ⟨i, h1, hlt, .inl (by omega)⟩))))
  constructor
  · rintro ⟨-, ⟨res, herr, -⟩ | ⟨-, -, hexist⟩⟩
    · rw [hres] at herr
      cases herr
    have hpos := hexist.pos
    have hdevs : ∀ i : Nat, (i : Int) < props.ndevs → 0 ≤ props.devs i ∧ props.devs i < t.ncclNIbDevs := by
      intro i hi
      rw [← hcopied.devs i (by omega)]
      exact hexist.devs i (by omega)
    exact .inr ⟨by omega, hdevs 0 (by omega), fun i _ hi => (hdevs i hi).1⟩
  · intro h
    obtain ⟨hpos, hfirst, hrest⟩ := h.resolve_left hrefused
    refine ⟨hsame, .inr ⟨hres, hcount, by omega, by omega, ?_⟩⟩
    intro i hi
    rw [hcopied.devs i (by omega)]
    cases i with
    | zero => exact hfirst
    | succ i => exact ⟨hrest (i + 1) (by omega) (by omega), hbound (i + 1) (by omega) (by omega)⟩

end

/-! ## The invariant -/

/-- There are not too many devices, all virtual ones exist, and there is one for each
physical device. -/
structure Good (t : DevTable) : Prop where
  phys : t.ncclNIbDevs ≤ MAX_IB_DEVS
  merged : t.ncclNMergedIbDevs ≤ MAX_IB_VDEVS
  exposed : t.ncclNIbDevs ≤ t.ncclNMergedIbDevs
  existing : ∀ v < t.ncclNMergedIbDevs, Existing t.ncclNIbDevs (t.ncclIbMergedDevs v).vProps

section
variable {t : DevTable} {props : VProps}

/-- The devices stay as they are, and the new one exists. -/
theorem AddsExisting.existing {r : DevTable × Except NcclResult Nat} (h : AddsExisting t r)
    (hold : ∀ v < t.ncclNMergedIbDevs, Existing t.ncclNIbDevs (t.ncclIbMergedDevs v).vProps) :
    ∀ v < r.1.ncclNMergedIbDevs, Existing r.1.ncclNIbDevs (r.1.ncclIbMergedDevs v).vProps := by
  obtain ⟨⟨hphys, hsame⟩, ⟨-, -, hcount⟩ | ⟨-, hcount, hnew⟩⟩ := h
  · intro v hv
    rw [hcount] at hv
    rw [hphys, hsame v hv]
    exact hold v hv
  · intro v hv
    rw [hcount] at hv
    rw [hphys]
    obtain rfl | hlt := Nat.eq_or_lt_of_le (Nat.le_of_lt_succ hv)
    · exact hnew
    · rw [hsame v hlt]
      exact hold v hlt

/-- A call keeps the invariant. -/
theorem Good.make (h : Good t) (hok : Refused t props ∨ Sane t props) :
    Good (ncclIbMakeVDevice t props).1 := by
  have hadds := addsExisting_iff.mpr hok
  have hexisting := hadds.existing h.existing
  obtain ⟨⟨hphys, -⟩, hcases⟩ := hadds
  have hexposed := h.exposed
  have hmerged := h.merged
  obtain ⟨res, -, hcount⟩ | ⟨hres, hcount, -⟩ := hcases
  · refine ⟨?_, ?_, ?_, hexisting⟩
    · rw [hphys]
      exact h.phys
    · rw [hcount]
      exact hmerged
    · rw [hphys, hcount]
      exact hexposed
  · refine ⟨?_, ?_, ?_, hexisting⟩
    · rw [hphys]
      exact h.phys
    · rw [hcount]
      by_contra hfull
      have hrefused : Refused t props := .inr (.inr (.inl (by omega)))
      obtain ⟨res, herr, -⟩ := makeVDevice_refused hrefused
      rw [hres] at herr
      cases herr
    · rw [hphys, hcount]
      omega

/-- The loop of the initialisation makes the virtual device of each physical one. -/
theorem exposeAll_good (hphys : t.ncclNIbDevs ≤ MAX_IB_DEVS) (hnone : t.ncclNMergedIbDevs = 0) :
    Good (exposeAll t) := by
  have hloop : ∀ n ≤ t.ncclNIbDevs, ∀ t', t' = (List.range n).foldl
      (fun t d => (ncclIbMakeVDeviceInternal t (singleDev d)).1) t →
      t'.ncclNIbDevs = t.ncclNIbDevs ∧ t'.ncclNMergedIbDevs = n ∧
        ∀ v < n, Existing t.ncclNIbDevs (t'.ncclIbMergedDevs v).vProps := by
    intro n
    induction n with
    | zero =>
      rintro - t' rfl
      exact ⟨rfl, hnone, fun v hv => absurd hv (Nat.not_lt_zero v)⟩
    | succ n ih =>
      rintro hn t' rfl
      rw [List.range_succ, List.foldl_append, List.foldl_cons, List.foldl_nil]
      obtain ⟨hdevs, hcount, hexist⟩ := ih (by omega) _ rfl
      generalize (List.range n).foldl
        (fun t d => (ncclIbMakeVDeviceInternal t (singleDev d)).1) t = u at *
      have hnot : ¬Refused u (singleDev n) := by
        have hone : (singleDev n).ndevs = 1 := rfl
        rintro (⟨-, h⟩ | h | h | h | ⟨i, h1, h2, -⟩)
        · omega
        · omega
        · unfold MAX_IB_VDEVS at h
          unfold MAX_IB_DEVS at hphys
          omega
        · unfold NCCL_IB_MAX_DEVS_PER_NIC at h
          omega
        · omega
      have hsane : Sane u (singleDev n) := by
        refine ⟨Int.one_pos, ⟨?_, ?_⟩, ?_⟩
        · exact Int.natCast_nonneg n
        · show ((n : Nat) : Int) < u.ncclNIbDevs
          omega
        · intro i h1 h2
          have : (i : Int) < 1 := h2
          omega
      have hadds := addsExisting_iff.mpr (.inr hsane)
      obtain ⟨-, ⟨hphys', -⟩, hcount', -⟩ := makeVDevice_accepted hnot
      have hexisting := hadds.existing (by rw [hdevs, hcount]; exact hexist)
      unfold ncclIbMakeVDevice at hphys' hcount' hexisting
      rw [hcount', hcount, hphys', hdevs] at hexisting
      exact ⟨hphys'.trans hdevs, by rw [hcount', hcount], hexisting⟩
  obtain ⟨hdevs, hcount, hexist⟩ := hloop t.ncclNIbDevs (Nat.le_refl _) _ rfl
  unfold exposeAll
  refine ⟨?_, ?_, ?_, ?_⟩
  · rw [hdevs]
    exact hphys
  · rw [hcount]
    unfold MAX_IB_VDEVS
    unfold MAX_IB_DEVS at hphys
    omega
  · rw [hdevs, hcount]
  · rw [hdevs, hcount]
    exact hexist

theorem reachable_good (h : Reachable vdevSystem t) : Good t := by
  apply h.invariant
  · rintro t ⟨t0, hphys, hnone, rfl⟩
    exact exposeAll_good hphys hnone
  · rintro t t' - hgood ⟨props, hok, rfl⟩
    exact hgood.make hok

end

/-! ## The uses -/

theorem arrayIndex_ok {size : Nat} {i : Int} (h : 0 ≤ i ∧ i < size) :
    arrayIndex size i = .ok i.toNat := if_pos h

theorem arrayIndex_bad {size : Nat} {i : Int} (h : ¬(0 ≤ i ∧ i < size)) :
    arrayIndex size i = .error .badPointer := if_neg h

/-- A loop whose turns all succeed succeeds. -/
theorem forM_ok {α : Type} {f : α → Except Stop Unit} (l : List α) (h : ∀ x ∈ l, f x = .ok ()) :
    forM l f = .ok () := by
  induction l with
  | nil => rfl
  | cons x xs ih =>
    obtain ⟨hx, hxs⟩ := List.forall_mem_cons.mp h
    rw [List.forM_cons, hx]
    exact ih hxs

section
variable {t : DevTable} {v : Nat} {env : SubnetEnv} {gdr : GdrEnv}

theorem Good.vdev_index (h : Good t) (hv : v < t.ncclNMergedIbDevs) :
    arrayIndex MAX_IB_VDEVS v = .ok v :=
  arrayIndex_ok ⟨Int.natCast_nonneg v, Int.ofNat_lt.mpr (Nat.lt_of_lt_of_le hv h.merged)⟩

/-- The physical devices of a virtual one are in the array. -/
theorem Good.phys_index (h : Good t) (hv : v < t.ncclNMergedIbDevs) {i : Nat}
    (hi : (i : Int) < (t.ncclIbMergedDevs v).vProps.ndevs) :
    arrayIndex MAX_IB_DEVS ((t.ncclIbMergedDevs v).vProps.devs i) =
      .ok ((t.ncclIbMergedDevs v).vProps.devs i).toNat := by
  obtain ⟨h0, hlt⟩ := (h.existing v hv).devs i hi
  have := h.phys
  exact arrayIndex_ok ⟨h0, by omega⟩

/-- A loop over the devices of a virtual one stays in the arrays. -/
theorem Good.useDevs_ok (h : Good t) (hv : v < t.ncclNMergedIbDevs) : useDevs t v = .ok () := by
  have hle := (h.existing v hv).le
  unfold useDevs
  rw [h.vdev_index hv]
  simp only [bind, Except.bind]
  apply forM_ok
  intro i hi
  have hi := List.mem_range.mp hi
  rw [arrayIndex_ok ⟨Int.natCast_nonneg i, by omega⟩, h.phys_index hv (by omega)]
  rfl

/-- DMA-BUF support of a number that is also the number of a virtual device. -/
theorem Good.dmaBuf_ok (h : Good t) (gdr : GdrEnv) (hv : v < t.ncclNMergedIbDevs) (hlt : v < MAX_IB_DEVS) :
    ∃ b, ncclIbDmaBufSupport t gdr v = .ok b := by
  have hpos := (h.existing v hv).pos
  unfold ncclIbDmaBufSupport
  rw [arrayIndex_ok ⟨Int.natCast_nonneg v, Int.ofNat_lt.mpr hlt⟩, h.vdev_index hv]
  simp only [bind, Except.bind]
  rw [h.phys_index hv (by omega)]
  exact ⟨_, rfl⟩

/-- The number of a physical device is one of a virtual device, too. -/
theorem Good.dmaBuf_phys (h : Good t) (gdr : GdrEnv) {d : Nat} (hd : d < t.ncclNIbDevs) :
    ∃ b, ncclIbDmaBufSupport t gdr d = .ok b := by
  have hphys := h.phys
  have hexposed := h.exposed
  exact h.dmaBuf_ok gdr (by omega) (by omega)

theorem Good.properties (h : Good t) (gdr : GdrEnv) (hv : v < t.ncclNMergedIbDevs) (props : NetProperties) :
    ∃ props', ncclIbGetProperties t gdr v props = .ok props' := by
  obtain ⟨h0, hlt⟩ := (h.existing v hv).devs 0 (by have := (h.existing v hv).pos; omega)
  have hphys := h.phys
  obtain ⟨b, hb⟩ := h.dmaBuf_phys gdr
    (show ((t.ncclIbMergedDevs v).vProps.devs 0).toNat < t.ncclNIbDevs by omega)
  rw [Int.toNat_of_nonneg h0] at hb
  unfold ncclIbGetProperties ncclIbGetPhysProperties
  rw [if_neg (by omega), h.vdev_index hv]
  simp only [bind, Except.bind]
  rw [arrayIndex_ok ⟨h0, by omega⟩, hb]
  exact ⟨_, rfl⟩

/-- The search finds the number of a virtual device. -/
theorem Good.find_cases (h : Good t) (env : SubnetEnv) (hv : v < t.ncclNMergedIbDevs) :
    (∃ u, u < t.ncclNMergedIbDevs ∧ findDev t env v = .ok (u : Int)) ∨
      ∃ res, findDev t env v = .error (.ret res) := by
  unfold findDev
  split
  · rw [forM_ok _ (fun u hu => h.useDevs_ok (List.mem_range.mp hu))]
    simp only [bind, Except.bind]
    split
    · exact .inr ⟨_, rfl⟩
    left
    unfold subnet.ncclIbFindDevBySubnet
    split
    · exact ⟨v, hv, rfl⟩
    split
    · exact ⟨v, hv, rfl⟩
    split
    · exact ⟨v, hv, rfl⟩
    split
    · rename_i u hu
      have hmem := List.mem_of_find?_eq_some hu
      rw [List.mem_range] at hmem
      unfold DevTable.subnetHost at hmem
      rw [List.length_map, List.length_range] at hmem
      exact ⟨u, hmem, rfl⟩
    · exact ⟨v, hv, rfl⟩
  · exact .inl ⟨v, hv, rfl⟩

/-- A host with the devices of the table, whose ports answer the same at every place,
connects with the device that is found here. -/
theorem Good.find_connectDev (h : Good t) {host : Host} {gids : Nat → Option IbvGid}
    (hs : subnet.SameDevs (t.subnetHost env) host gids)
    (haware : host.subnetAwareRouting = env.subnetAwareRouting)
    (hlen : host.subnetPrefixLen = env.prefixLen) :
    connectDev host gids env.remoteGids v = (findDev t env v).map Int.toNat := by
  unfold connectDev findDev
  rw [haware]
  cases env.subnetAwareRouting with
  | false => rfl
  | true =>
    rw [hs.find_eq, hlen]
    simp only [if_true]
    rw [forM_ok _ (fun u hu => h.useDevs_ok (List.mem_range.mp hu))]
    simp only [bind, Except.bind]
    split
    · rename_i hok
      rw [if_neg (fun hcon => hcon hok)]
      rfl
    · rfl

theorem Good.connect (h : Good t) (hv : v < t.ncclNMergedIbDevs) :
    InRange (ncclIbConnectImpl t env v) := by
  unfold ncclIbConnectImpl InRange
  obtain ⟨u, hu, hfind⟩ | ⟨res, hfind⟩ := h.find_cases env hv
  · rw [hfind]
    simp only [bind, Except.bind]
    rw [if_neg (by omega), h.useDevs_ok hu]
    exact fun hcon => nomatch hcon
  · rw [hfind]
    exact fun hcon => nomatch hcon

theorem Good.later (h : Good t) (hv : v < t.ncclNMergedIbDevs) : InRange (connectLater t env v) := by
  unfold connectLater InRange
  obtain ⟨u, hu, hfind⟩ | ⟨res, hfind⟩ := h.find_cases env hv
  · rw [hfind]
    simp only [bind, Except.bind]
    rw [h.useDevs_ok hu]
    exact fun hcon => nomatch hcon
  · rw [hfind]
    exact fun hcon => nomatch hcon

/-- An accepting side stays in the arrays unless it asks a device from 32 on for
DMA-BUF. -/
theorem Good.accept_iff (h : Good t) (hv : v < t.ncclNMergedIbDevs) :
    InRange (ncclIbAcceptImpl t env gdr v) ↔
      gdr.gdrSupport = true ∨ ∀ found, findDev t env v = .ok found → found < MAX_IB_DEVS := by
  unfold ncclIbAcceptImpl InRange
  rw [if_neg (by omega), h.useDevs_ok hv]
  simp only [bind, Except.bind]
  obtain ⟨u, hu, hfind⟩ | ⟨res, hfind⟩ := h.find_cases env hv
  · rw [hfind]
    simp only
    rw [h.useDevs_ok hu]
    cases gdr.gdrSupport with
    | true =>
      exact ⟨fun _ => .inl rfl, fun _ hcon => nomatch hcon⟩
    | false =>
      simp only [Bool.false_eq_true, if_false, false_or]
      constructor
      · intro hrange found hfound
        cases hfound
        by_contra hge
        apply hrange
        unfold ncclIbDmaBufSupport
        rw [arrayIndex_bad (fun hin => hge hin.2)]
        rfl
      · intro hsmall hcon
        obtain ⟨b, hb⟩ := h.dmaBuf_ok gdr hu (Int.ofNat_lt.mp (hsmall u rfl))
        rw [hb] at hcon
        cases hcon
  · rw [hfind]
    constructor
    · exact fun _ => .inr fun found hfound => nomatch hfound
    · exact fun _ hcon => nomatch hcon

theorem Good.uses (h : Good t) : UsesInRange t where
  properties := by
    intro v hv env props
    obtain ⟨props', hprops⟩ := h.properties env hv props
    rw [hprops]
    exact fun hcon => nomatch hcon
  dmaBuf := by
    intro d hd env
    obtain ⟨b, hb⟩ := h.dmaBuf_phys env hd
    rw [hb]
    exact fun hcon => nomatch hcon
  listen := by
    intro v hv env
    unfold ncclIbListen
    split
    · rw [h.useDevs_ok hv]
      exact fun hcon => nomatch hcon
    · exact fun hcon => nomatch hcon
  connect := fun v hv env => h.connect hv
  later := fun v hv env => h.later hv
  accept := fun v hv env gdr => h.accept_iff hv

end

/-! ## The law -/

/-- In every run whose lists are refused by a check or sane, a call fails or adds a device
that exists exactly for such a list, and the device numbers stay in the arrays exactly
while accept does not ask a virtual device from 32 on for DMA-BUF. -/
theorem device_numbers_stay_in_range (t : DevTable) (h : Reachable vdevSystem t) :
    (∀ props, AddsExisting t (ncclIbMakeVDevice t props) ↔ Refused t props ∨ Sane t props) ∧
      UsesInRange t :=
  ⟨fun _ => addsExisting_iff, (reachable_good h).uses⟩

/-- Memory without devices in it. -/
def noDev : PhysDev := ⟨0, 0, NCCL_NET_ID_UNDEF, NCCL_NET_ID_UNDEF, 0, []⟩

/-- A table of `n` physical devices, none of which is exposed yet. -/
def physTable (n : Nat) : DevTable where
  mergeNics := 1
  ncclNIbDevs := n
  ncclIbDevs := fun _ => noDev
  ncclNMergedIbDevs := 0
  ncclIbMergedDevs := fun _ => ⟨⟨0, fun _ => 0⟩, 0, 0, 0, []⟩

theorem two_devices_can_be_merged :
    AddsExisting (exposeAll (physTable 2))
      (ncclIbMakeVDevice (exposeAll (physTable 2)) ⟨2, fun i => i⟩) :=
  ((device_numbers_stay_in_range (exposeAll (physTable 2))
    (.init ⟨physTable 2, by decide, rfl, rfl⟩)).1 ⟨2, fun i => i⟩).mpr
    (.inr ⟨by decide, by decide, fun i _ _ => Int.natCast_nonneg i⟩)

/-- A list whose first device does not exist is taken. -/
theorem a_first_device_is_not_checked :
    ¬AddsExisting (exposeAll (physTable 2))
      (ncclIbMakeVDevice (exposeAll (physTable 2)) ⟨1, fun _ => 40⟩) := by
  rintro ⟨-, ⟨res, hres, -⟩ | ⟨-, -, hexist⟩⟩
  · cases hres
  · exact absurd (hexist.devs 0 (by decide)).2 (by decide)

end net_ib.vdev
