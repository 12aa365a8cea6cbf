-- The runs of the initialisation (init.cc): any sequence of ncclIbInit and
-- ncclIbFinalize, with any failures. A call that raises the reference count and then
-- fails leaves the count raised, and every call after it takes the devices for ready.
import MrcPlugin.DeviceInit

namespace net_ib

open runs calls

/-! ## The property -/

/-- The initialisation of the devices has completed: the search has come to its end, the
devices are sorted, and each one has a virtual device of its own. -/
structure DevicesReady (p : InitParams) (x : NetIb) : Prop where
  searched : x.searched = true
  found : x.ncclIbDevs.isSome
  sorted : p.ibDevicePciOrder ≠ 0 →
    x.devs.Pairwise (fun dev1 dev2 => ncclIbCompareDevs dev1 dev2 ≤ 0)
  exposed : ∀ d < x.devs.length, ∃ mDev ∈ x.ncclIbMergedDevs, mDev.devs = [d]

/-! ## The runs -/

/-- The globals and how many calls of `ncclIbInit` have returned success and wait for
their `ncclIbFinalize`. -/
structure InitRun where
  net : NetIb
  inUse : Nat

inductive InitAct
  | init (env : InitEnv)
  | finalize

/-- One call. A call of `ncclIbInit` that follows a bad pointer does not return. -/
def InitRun.next (p : InitParams) : InitAct → InitRun → Option InitRun
  | .init env, x =>
    match (ncclIbInit p env).from x.net with
    | (.ok _, net) => some ⟨net, x.inUse + 1⟩
    | (.error (.ret _), net) => some ⟨net, x.inUse⟩
    | (.error _, _) => none
  | .finalize, x => if 0 < x.inUse then some ⟨ncclIbFinalize x.net, x.inUse - 1⟩ else none

/-- The globals when the plugin is loaded. -/
def NetIb.loaded : NetIb := ⟨0, none, [], false⟩

/-- The runs of a plugin that has just been loaded. -/
def initSystem (p : InitParams) : System InitRun where
  init := fun x => x = ⟨NetIb.loaded, 0⟩
  step := fun x y => ∃ act, x.next p act = some y

/-! ## What a search leaves -/

section
variable {p : InitParams} {n : Int} {x : NetIb}

/-- While the search runs, the table is there and the count stays. -/
structure Searching (n : Int) (x : NetIb) : Prop where
  count : x.netRefCount = n
  found : x.ncclIbDevs.isSome

theorem addDev_keeps {env : DeviceEnv} {context portNum dev : Nat} {portAttr : IbvPortAttr}
    {path : List Char} (h : Searching n x) :
    wp (addDev p env context portNum portAttr path dev) (fun _ => Searching n)
      (fun _ y => y.netRefCount = n) x := by
  unfold addDev
  simp only [wp_bind, wp_get]
  split
  · exact h.count
  split
  · exact h.count
  split
  · exact h.count
  split
  · exact h.count
  · exact ⟨h.count, rfl⟩

theorem searchPorts_keeps {env : DeviceEnv} {context : Nat} (portNums : List Nat)
    {range : Option DevRange} {nPorts : Nat} (h : Searching n x) :
    wp (searchPorts p env context portNums range nPorts) (fun _ => Searching n)
      (fun _ y => y.netRefCount = n) x := by
  induction portNums generalizing range nPorts x with
  | nil => exact h
  | cons portNum rest ih =>
    unfold searchPorts
    split
    · exact ih h
    split
    · exact h.count
    · rw [wp_bind]
      apply (wp_forM _ h fun dev _ y hy => addDev_keeps hy).mono
      · intro _ y hy
        exact ih hy
      · intro _ _ he
        exact he

theorem searchDevice_keeps {env : DeviceEnv} (h : Searching n x) :
    wp (searchDevice p env) (fun _ => Searching n) (fun _ y => y.netRefCount = n) x := by
  unfold searchDevice
  split
  · exact h
  split
  · exact h.count
  split
  · split
    · exact h.count
    · exact h
  · rw [wp_bind]
    apply (searchPorts_keeps _ h).mono
    · intro _ y hy
      split
      · exact hy.count
      · exact hy
    · intro _ _ he
      exact he

theorem searchDevices_keeps (devices : List DeviceEnv) (h : Searching n x) :
    wp (searchDevices p devices) (fun _ => Searching n) (fun _ y => y.netRefCount = n) x := by
  induction devices generalizing x with
  | nil => exact h
  | cons env rest ih =>
    unfold searchDevices
    simp only [wp_bind, wp_get]
    split
    · rw [wp_bind]
      apply (searchDevice_keeps h).mono
      · intro _ y hy
        exact ih hy
      · intro _ _ he
        exact he
    · exact h

/-- A search that comes to its end says so. -/
theorem searchAll_keeps {env : InitEnv} (h : x.netRefCount = n) :
    wp (searchAll p env) (fun _ y => Searching n y ∧ y.searched = true)
      (fun _ y => y.netRefCount = n) x := by
  unfold searchAll
  rw [wp_bind, wp_modify]
  split
  · exact h
  split
  · exact h
  split
  · exact h
  · have hstart : Searching n { x with ncclIbDevs := some [], ncclIbMergedDevs := [] } := ⟨h, rfl⟩
    rw [wp_bind]
    apply (searchDevices_keeps _ hstart).mono
    · intro _ y hy
      split
      · exact hy.count
      · exact ⟨⟨hy.count, hy.found⟩, rfl⟩
    · intro _ _ he
      exact he

/-! ## What the last loop leaves -/

/-- The keys that the devices are sorted by, and everything else that a change of a plane
or a port leaves as it is. -/
structure SameDevs (x y : NetIb) : Prop where
  count : y.netRefCount = x.netRefCount
  searched : y.searched = x.searched
  found : y.ncclIbDevs.isSome = x.ncclIbDevs.isSome
  paths : y.devs.map NcclIbDev.fullPciPath = x.devs.map NcclIbDev.fullPciPath
  merged : ∀ mDev ∈ x.ncclIbMergedDevs, mDev ∈ y.ncclIbMergedDevs

theorem SameDevs.refl (x : NetIb) : SameDevs x x := ⟨rfl, rfl, rfl, rfl, fun _ h => h⟩

theorem SameDevs.trans {y z : NetIb} (h : SameDevs x y) (h' : SameDevs y z) : SameDevs x z :=
  ⟨h'.count.trans h.count, h'.searched.trans h.searched, h'.found.trans h.found,
    h'.paths.trans h.paths, fun mDev hm => h'.merged mDev (h.merged mDev hm)⟩

theorem SameDevs.length {y : NetIb} (h : SameDevs x y) : y.devs.length = x.devs.length := by
  have hpaths := congrArg List.length h.paths
  rwa [List.length_map, List.length_map] at hpaths

theorem setDev_same (d : Nat) {f : NcclIbDev → NcclIbDev}
    (hf : ∀ dev, (f dev).fullPciPath = dev.fullPciPath) : SameDevs x (x.setDev d f) := by
  refine ⟨rfl, rfl, ?_, ?_, fun _ h => h⟩
  · unfold NetIb.setDev
    simp
  · unfold NetIb.devs NetIb.setDev
    cases x.ncclIbDevs with
    | none => rfl
    | some devs =>
      apply List.ext_getElem?
      intro i
      simp only [Option.map_some, Option.getD_some, List.getElem?_map, List.getElem?_modify]
      cases devs[i]? with
      | none => rfl
      | some dev =>
        simp only [Option.map_eq_map, Option.map_some]
        split
        · rw [hf]
        · rfl

theorem wp_liftStop {α : Type} {e : Except Stop α} {Q : α → NetIb → Prop}
    {E : Stop → NetIb → Prop} (hok : ∀ a, e = .ok a → Q a x) (herror : ∀ stop, E stop x) :
    wp (liftStop e) Q E x := by
  cases e with
  | ok a => exact hok a rfl
  | error stop => exact herror stop

/-- The devices before `d` have their virtual device. -/
def ExposedTo (d : Nat) (x : NetIb) : Prop :=
  ∀ i < d, ∃ mDev ∈ x.ncclIbMergedDevs, mDev.devs = [i]

theorem ExposedTo.same {d : Nat} {y : NetIb} (h : ExposedTo d x) (hsame : SameDevs x y) :
    ExposedTo d y := by
  intro i hi
  obtain ⟨mDev, hm, hdevs⟩ := h i hi
  exact ⟨mDev, hsame.merged mDev hm, hdevs⟩

theorem makeVDevice_exposes {d : Nat} (h : ExposedTo d x) :
    wp (makeVDevice d) (fun _ y => SameDevs x y ∧ ExposedTo (d + 1) y)
      (fun _ y => SameDevs x y) x := by
  unfold makeVDevice
  simp only [wp_bind, wp_get]
  split
  · exact SameDevs.refl x
  · have hsame : SameDevs x
        { x with ncclIbMergedDevs := x.ncclIbMergedDevs ++ [NcclIbMergedDev.single d] } :=
      ⟨rfl, rfl, rfl, rfl, fun mDev hm => List.mem_append_left _ hm⟩
    refine ⟨hsame, fun i hi => ?_⟩
    rcases Nat.lt_succ_iff_lt_or_eq.mp hi with hlt | rfl
    · exact h.same hsame i hlt
    · exact ⟨_, List.mem_append_right _ (List.mem_singleton_self _), rfl⟩

theorem exposeDevs_exposes (k : Nat) {d : Nat} {planes : List Int} (h : ExposedTo d x) :
    wp (exposeDevs p k d planes) (fun _ y => SameDevs x y ∧ ExposedTo (d + k) y)
      (fun _ y => SameDevs x y) x := by
  induction k generalizing d planes x with
  | zero => exact ⟨SameDevs.refl x, h⟩
  | succ k ih =>
    unfold exposeDevs
    rw [wp_bind, wp_get, wp_bind]
    refine wp_liftStop (fun dev _ => ?_) (fun _ => SameDevs.refl x)
    rw [wp_bind]
    refine wp_liftStop (fun plane _ => ?_) (fun _ => SameDevs.refl x)
    rw [wp_bind, wp_modify, wp_bind]
    have hplane : SameDevs x (x.setDev d (fun dev => { dev with planeIdx := plane.2 })) :=
      setDev_same d (fun _ => rfl)
    refine wp_liftStop (fun realPort _ => ?_) (fun _ => hplane)
    rw [wp_bind, wp_modify, wp_bind]
    have hport := hplane.trans (setDev_same d (fun _ => rfl) (f := fun dev => { dev with realPort }))
    apply (makeVDevice_exposes (h.same hport)).mono
    · rintro _ y ⟨hy, hexposed⟩
      apply (ih hexposed).mono
      · rintro _ z ⟨hz, hall⟩
        refine ⟨(hport.trans hy).trans hz, ?_⟩
        rwa [Nat.add_right_comm] at hall
      · intro _ z hz
        exact (hport.trans hy).trans hz
    · intro _ y hy
      exact hport.trans hy

/-! ## What the sort leaves -/

/-- The order of the devices is a matter of their paths. -/
theorem pairwise_of_paths {devs devs' : List NcclIbDev}
    (hpaths : devs'.map NcclIbDev.fullPciPath = devs.map NcclIbDev.fullPciPath)
    (h : devs.Pairwise (fun dev1 dev2 => ncclIbCompareDevs dev1 dev2 ≤ 0)) :
    devs'.Pairwise (fun dev1 dev2 => ncclIbCompareDevs dev1 dev2 ≤ 0) := by
  let InOrder (path1 path2 : List Char) : Prop := ∀ dev1 dev2 : NcclIbDev,
    dev1.fullPciPath = path1 → dev2.fullPciPath = path2 → ncclIbCompareDevs dev1 dev2 ≤ 0
  have hold : (devs.map NcclIbDev.fullPciPath).Pairwise InOrder := by
    rw [List.pairwise_map]
    apply h.imp
    intro a b hab dev1 dev2 h1 h2
    unfold ncclIbCompareDevs at hab ⊢
    rwa [h1, h2]
  rw [← hpaths, List.pairwise_map] at hold
  exact hold.imp (fun hab => hab _ _ rfl rfl)

theorem order_spec (p : InitParams) (env : InitEnv) (devs : List NcclIbDev) :
    (env.order p devs).length = devs.length ∧
      (p.ibDevicePciOrder ≠ 0 →
        (env.order p devs).Pairwise (fun dev1 dev2 => ncclIbCompareDevs dev1 dev2 ≤ 0)) := by
  unfold InitEnv.order
  split
  · exact ⟨(env.sorts devs).perm.length_eq, fun _ => (env.sorts devs).sorted⟩
  · rename_i hoff
    exact ⟨rfl, fun hon => absurd hon hoff⟩

/-- The sort and the last loop complete the initialisation after a whole search. -/
theorem exposed_after_sort {env : InitEnv} (hfound : x.ncclIbDevs.isSome)
    (hsearched : x.searched = true) :
    wp (sortAndExpose p env)
      (fun _ y => y.netRefCount = x.netRefCount ∧ DevicesReady p y)
      (fun _ y => y.netRefCount = x.netRefCount) x := by
  obtain ⟨devs, hdevs⟩ := Option.isSome_iff_exists.mp hfound
  unfold sortAndExpose
  rw [wp_bind, wp_modify, wp_bind, wp_get]
  apply (exposeDevs_exposes _ (fun i hi => absurd hi (Nat.not_lt_zero i))).mono
  · rintro _ y ⟨hsame, hexposed⟩
    refine ⟨hsame.count, hsame.searched.trans hsearched, ?_, fun hon => ?_, fun d hd => ?_⟩
    · rw [hsame.found, hdevs]
      rfl
    · apply pairwise_of_paths hsame.paths
      rw [hdevs]
      exact (order_spec p env devs).2 hon
    · rw [hsame.length] at hd
      apply hexposed
      rwa [Nat.zero_add]
  · intro _ y hsame
    exact hsame.count

/-! ## The calls -/

/-- The state after a call that has only counted. -/
def raised (x : NetIb) : NetIb := { x with netRefCount := x.netRefCount + 1 }

theorem raised_ready : DevicesReady p (raised x) ↔ DevicesReady p x :=
  ⟨fun h => ⟨h.searched, h.found, h.sorted, h.exposed⟩,
    fun h => ⟨h.searched, h.found, h.sorted, h.exposed⟩⟩

theorem initDevices_first {env : InitEnv} (h0 : x.netRefCount = 0)
    (h : x.ncclIbDevs = none ∨ DevicesReady p x) :
    wp (ncclIbInitDevices p env) (fun _ y => y.netRefCount = 1 ∧ DevicesReady p y)
      (fun _ y => y.netRefCount = 1) x := by
  have hcount : (raised x).netRefCount = 1 := by
    unfold raised
    rw [h0]
    rfl
  unfold ncclIbInitDevices
  rw [wp_bind, wp_get, wp_bind, wp_set, if_neg (not_not.mpr h0)]
  split
  · exact hcount
  split
  · exact hcount
  split
  · rw [wp_bind]
    apply (searchAll_keeps hcount).mono
    · rintro _ y ⟨hy, hsearched⟩
      apply (exposed_after_sort hy.found hsearched).mono
      · rintro _ z ⟨hz, hinit⟩
        exact ⟨hz.trans hy.count, hinit⟩
      · intro _ z hz
        exact hz.trans hy.count
    · intro _ _ he
      exact he
  · rename_i hdevs
    exact ⟨hcount, raised_ready.mpr (h.resolve_left hdevs)⟩

theorem initDevices_later {env : InitEnv} (h : x.netRefCount ≠ 0) :
    wp (ncclIbInitDevices p env) (fun _ y => y = raised x) (fun _ _ => False) x := by
  unfold ncclIbInitDevices
  rw [wp_bind, wp_get, wp_bind, wp_set, if_pos h]
  exact rfl

theorem init_first (env : InitEnv) (h0 : x.netRefCount = 0)
    (h : x.ncclIbDevs = none ∨ DevicesReady p x) :
    wp (ncclIbInit p env) (fun _ y => y.netRefCount = 1 ∧ DevicesReady p y)
      (fun _ y => y.netRefCount = 1) x := by
  unfold ncclIbInit
  rw [wp_bind]
  apply (initDevices_first h0 h).mono
  · intro _ y hy
    split
    · exact hy.1
    · exact hy
  · intro _ _ he
    exact he

theorem init_later (env : InitEnv) (h : x.netRefCount ≠ 0) :
    wp (ncclIbInit p env) (fun _ y => y = raised x) (fun _ y => y = raised x) x := by
  unfold ncclIbInit
  rw [wp_bind]
  apply (initDevices_later h).mono
  · intro _ y hy
    split
    · exact hy
    · exact hy
  · intro _ _ he
    exact he.elim

/-! ## The count -/

/-- The count is at least the number of users. It is larger once a call has failed, and
as long as none has, the devices are ready or have not been searched. -/
structure InitGood (p : InitParams) (x : InitRun) : Prop where
  count : (x.inUse : Int) ≤ x.net.netRefCount
  ready : x.net.netRefCount = x.inUse → x.net.ncclIbDevs = none ∨ DevicesReady p x.net

theorem InitGood.first {x : InitRun} (h : InitGood p x) (h0 : x.net.netRefCount = 0) :
    x.net.ncclIbDevs = none ∨ DevicesReady p x.net := by
  have := h.count
  exact h.ready (by omega)

theorem InitGood.next {x y : InitRun} {act : InitAct} (h : InitGood p x)
    (hnext : x.next p act = some y) : InitGood p y := by
  have hcount := h.count
  cases act with
  | init env =>
    by_cases h0 : x.net.netRefCount = 0
    · have hwp := init_first env h0 (h.first h0)
      simp only [InitRun.next] at hnext
      split at hnext
      · rename_i net hend
        cases hnext
        obtain ⟨hnet, hinit⟩ := hwp.returns hend
        refine ⟨?_, fun _ => .inr hinit⟩
        simp only [hnet]
        omega
      · rename_i res net hend
        cases hnext
        have hnet := hwp.leaves hend
        refine ⟨?_, fun heq => ?_⟩ <;> simp only [hnet] at * <;> omega
      · cases hnext
    · have hwp := init_later (p := p) env h0
      simp only [InitRun.next] at hnext
      split at hnext
      · rename_i net hend
        cases hnext
        obtain rfl := hwp.returns hend
        refine ⟨?_, fun heq => ?_⟩
        · simp only [raised]
          omega
        · simp only [raised] at heq
          exact (h.ready (by omega)).imp id raised_ready.mpr
      · rename_i res net hend
        cases hnext
        obtain rfl := hwp.leaves hend
        refine ⟨?_, fun heq => ?_⟩ <;> simp only [raised] at * <;> omega
      · cases hnext
  | finalize =>
    simp only [InitRun.next] at hnext
    split at hnext
    · cases hnext
      refine ⟨?_, fun heq => ?_⟩
      · simp only [ncclIbFinalize]
        omega
      · simp only [ncclIbFinalize] at heq
        refine (h.ready (by omega)).imp id ?_
        intro hinit
        exact ⟨hinit.searched, hinit.found, hinit.sorted, hinit.exposed⟩
    · cases hnext

theorem initGood_reachable {x : InitRun} (h : Reachable (initSystem p) x) : InitGood p x := by
  apply h.invariant (P := InitGood p)
  · rintro x rfl
    exact ⟨by simp [NetIb.loaded], fun _ => .inl rfl⟩
  · rintro x y - hx ⟨act, hnext⟩
    exact hx.next hnext

end

/-! ## The law -/

/-- A call of `ncclIbInit` that returns success has completed the initialisation exactly
when it counts from 0 or finds it completed. -/
theorem a_successful_init_is_complete_iff (p : InitParams) (x : InitRun) (env : InitEnv)
    (net : NetIb) (hx : Reachable (initSystem p) x)
    (hok : (ncclIbInit p env).from x.net = (.ok ⟨⟩, net)) :
    DevicesReady p net ↔ x.net.netRefCount = 0 ∨ DevicesReady p x.net := by
  by_cases h0 : x.net.netRefCount = 0
  · have hinit := ((init_first env h0 ((initGood_reachable hx).first h0)).returns hok).2
    exact ⟨fun _ => .inl h0, fun _ => hinit⟩
  · obtain rfl := (init_later env h0).returns hok
    rw [raised_ready]
    exact ⟨.inr, fun h => h.resolve_left h0⟩

/-- The parameters as they are when nothing is set. -/
def InitParams.defaults : InitParams := ⟨0, 0, 1, 1, 1⟩

/-- A port on InfiniBand that answers everything. -/
def goodPort : PortEnv :=
  { queryPort := some ⟨1, 5, IBV_LINK_LAYER_INFINIBAND, 0, 1⟩
    active := true
    matched := true
    railId := NCCL_NET_ID_UNDEF
    planeId := NCCL_NET_ID_UNDEF
    createContext := fun _ => ncclSuccess
    calloc := true
    gid := fun _ => ⟨fun _ _ _ => (0, ncclSuccess), fun _ _ _ => .ok 7⟩ }

/-- A device with this context, this bus and one port. -/
def goodDevice (context : Nat) (path : String) : DeviceEnv :=
  { openDevice := some context
    mlx5 := false
    queryOooRqSize := true
    physPortCnt := some 1
    ports := fun _ => goodPort
    dmaBufCapable := false
    dataDirectPath := .error ncclInvalidArgument
    realpath := some path.toList
    closeDevice := true }

/-- A host with these devices. -/
def goodHost (devices : Option (List DeviceEnv)) : InitEnv :=
  { ibvSymbols := true
    findInterfaces := ncclSuccess
    nIpIfs := 1
    deviceList := devices
    freeDeviceList := true
    qsort := sortByKey
    sorts := sortByKey_sorts
    callocConfig := true }

def oneDevice : InitEnv := goodHost (some [goodDevice 101 "/sys/devices/pci0000:00/0000:01:00.0"])

/-- The globals after a first call on this host and its `ncclIbFinalize`. -/
def afterFirst : NetIb :=
  ncclIbFinalize ((ncclIbInit InitParams.defaults oneDevice).from NetIb.loaded).2

/-- The second of two calls finds the device and its virtual device there. -/
theorem the_second_init_is_complete : ∃ net,
    Reachable (initSystem InitParams.defaults) ⟨afterFirst, 0⟩ ∧
      (ncclIbInit InitParams.defaults oneDevice).from afterFirst = (.ok ⟨⟩, net) ∧
      net.devs.length = 1 ∧ net.ncclIbMergedDevs = [NcclIbMergedDev.single 0] ∧
      DevicesReady InitParams.defaults net := by
  have hstart : Reachable (initSystem InitParams.defaults) ⟨NetIb.loaded, 0⟩ := Reachable.init rfl
  have hr : Reachable (initSystem InitParams.defaults) ⟨afterFirst, 0⟩ :=
    (hstart.step ⟨.init oneDevice, rfl⟩).step ⟨.finalize, rfl⟩
  exact ⟨_, hr, rfl, rfl, rfl, (a_successful_init_is_complete_iff _ ⟨afterFirst, 0⟩ oneDevice _ hr
    rfl).mpr (.inl rfl)⟩

/-- The globals after a first call that got no device list. -/
def failedSearch : NetIb := ⟨1, some [], [], false⟩

/-- The second call finds the count at 1 and returns success, with a device that is
there and was never looked for. -/
theorem an_init_after_a_failed_one_is_not_complete :
    Reachable (initSystem InitParams.defaults) ⟨failedSearch, 0⟩ ∧
      (ncclIbInit InitParams.defaults oneDevice).from failedSearch =
        (.ok ⟨⟩, raised failedSearch) ∧
      ¬ DevicesReady InitParams.defaults (raised failedSearch) := by
  refine ⟨?_, rfl, fun h => absurd h.searched (by decide)⟩
  exact (Reachable.init rfl).step ⟨.init (goodHost none), rfl⟩

end net_ib
