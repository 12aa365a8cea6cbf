-- The initialisation of the plugin (init.cc). The first call searches for the devices,
-- sorts them and makes a virtual device of each. A reference count tells the first
-- call from the others, and it is raised before the work is done.
import MrcPlugin.IbDevs
import MrcPlugin.ConnectQps
import MrcPlugin.Lib.Calls
import MrcPlugin.Lib.Runs

namespace net_ib

open runs calls

/-! ## The data -/

def MAX_IB_DEVS : Nat := 32

def MAX_IB_VDEVS : Nat := 32 * 8

def NCCL_NET_ID_UNDEF : Int := -1

def NCCL_IB_PLANE_MAX_INDEX : Nat := 14

/-- The parameters that the initialisation reads. They do not change. -/
structure InitParams where
  ibDisable : Int
  ibOooRq : Int
  ibDataDirect : Int
  ibMergeVfs : Int
  ibDevicePciOrder : Int

/-- What a port answers. `matched` is the comparison with the list of the user, and the
rail and the plane are those of the matching entry. The last three are asked for each
entry that the port gets. -/
structure PortEnv where
  queryPort : Option IbvPortAttr
  active : Bool
  matched : Bool
  railId : Int
  planeId : Int
  createContext : Nat → NcclResult
  calloc : Bool
  gid : Nat → GidEnv

/-- What a device answers. `realpath` is the path under `/sys`. -/
structure DeviceEnv where
  openDevice : Option Nat
  mlx5 : Bool
  queryOooRqSize : Bool
  physPortCnt : Option Nat
  ports : Nat → PortEnv
  dmaBufCapable : Bool
  dataDirectPath : Except NcclResult (List Char)
  realpath : Option (List Char)
  closeDevice : Bool

/-- What a call of `ncclIbInit` finds. -/
structure InitEnv where
  ibvSymbols : Bool
  findInterfaces : NcclResult
  nIpIfs : Int
  deviceList : Option (List DeviceEnv)
  freeDeviceList : Bool
  qsort : List NcclIbDev → List NcclIbDev
  sorts : ∀ devs, PciSorted devs (qsort devs)
  callocConfig : Bool

/-- The globals. `ncclIbDevs` are the entries that `ncclNIbDevs` counts, and there are
none while it is -1. `searched` is not in the source: the search has come to its end. -/
structure NetIb where
  netRefCount : Int
  ncclIbDevs : Option (List NcclIbDev)
  ncclIbMergedDevs : List NcclIbMergedDev
  searched : Bool

def NetIb.devs (x : NetIb) : List NcclIbDev := x.ncclIbDevs.getD []

abbrev InitCall := Call Stop NetIb

/-! ## The entry of a device -/

/-- The path that `ncclIbGetPciPath` returns: the last digit is cleared, and two more
when virtual functions are merged. -/
def mergedPath (p : InitParams) (path : List Char) : List Char :=
  let path := path.set (path.length - 1) '0'
  if p.ibMergeVfs ≠ 0 then (path.set (path.length - 4) '0').set (path.length - 3) '0' else path

/-- The entries of a port: those from `offset` to `count - 1`, and the path of the data
direct device. -/
structure DevRange where
  count : Nat
  offset : Nat
  path : List Char

/-- The entries that a port gets. The first port of a device that gets some asks. -/
def devRange (p : InitParams) (env : DeviceEnv) : Except Stop DevRange :=
  let sys := "/sys".toList
  if 0 < p.ibDataDirect ∧ env.mlx5 ∧ env.dmaBufCapable then
    match env.dataDirectPath with
    | .ok path => .ok ⟨2, if p.ibDataDirect = 2 then 0 else 1, sys ++ path⟩
    | .error res => if res = ncclInvalidArgument then .ok ⟨1, 0, sys⟩ else .error (.ret res)
  else .ok ⟨1, 0, sys⟩

/-- The entry that a port gets. -/
def newDev (p : InitParams) (env : DeviceEnv) (context portNum : Nat) (portAttr : IbvPortAttr)
    (path : List Char) (dev : Nat) (gidInfo : NcclIbGidInfo) : NcclIbDev :=
  { context, portNum, portAttr, gidInfo
    pciPath := if dev = 1 then some path else env.realpath.map (mergedPath p)
    fullPciPath := env.realpath.getD []
    railId := (env.ports portNum).railId
    planeId := (env.ports portNum).planeId
    planeIdx := 0
    realPort := 0
    fatalErrorCount := 0 }

/-- The turn of the innermost loop: one more entry of `ncclIbDevs`. -/
def addDev (p : InitParams) (env : DeviceEnv) (context portNum : Nat) (portAttr : IbvPortAttr)
    (path : List Char) (dev : Nat) : InitCall PUnit := do
  let port := env.ports portNum
  let x ← get
  if MAX_IB_DEVS ≤ x.devs.length then throw .badPointer
  else if port.createContext dev ≠ ncclSuccess then throw (.ret (port.createContext dev))
  else if dev = 1 ∧ !port.calloc then throw (.ret ncclSystemError)
  else
    let (gidInfo, res) := ncclIbGidInfoQuery (port.gid dev) context portNum portAttr ⟨0, 0, 0⟩
    if res ≠ ncclSuccess then throw (.ret res)
    else
      let new := newDev p env context portNum portAttr path dev gidInfo
      set { x with ncclIbDevs := some (x.devs ++ [new]) }

/-! ## The search -/

/-- The attributes of a port that gets entries. -/
def usablePort (port : PortEnv) : Option IbvPortAttr :=
  match port.queryPort with
  | none => none
  | some portAttr =>
    if !port.active then none
    else if portAttr.link_layer ≠ IBV_LINK_LAYER_INFINIBAND ∧
        portAttr.link_layer ≠ IBV_LINK_LAYER_ETHERNET then none
    else if !port.matched then none
    else some portAttr

/-- The loop over the ports. It returns `nPorts`. -/
def searchPorts (p : InitParams) (env : DeviceEnv) (context : Nat) :
    List Nat → Option DevRange → Nat → InitCall Nat
  | [], _, nPorts => pure nPorts
  | portNum :: rest, range, nPorts =>
    match usablePort (env.ports portNum) with
    | none => searchPorts p env context rest range nPorts
    | some portAttr =>
      match range.elim (devRange p env) Except.ok with
      | .error stop => throw stop
      | .ok range => do
        forM (List.range' range.offset (range.count - range.offset))
          (addDev p env context portNum portAttr range.path)
        searchPorts p env context rest (some range) (nPorts + (range.count - range.offset))

/-- The turn of the loop over the devices. -/
def searchDevice (p : InitParams) (env : DeviceEnv) : InitCall PUnit :=
  match env.openDevice with
  | none => pure ⟨⟩
  | some context =>
    if env.mlx5 ∧ p.ibOooRq ≠ 0 ∧ !env.queryOooRqSize then throw (.ret ncclInternalError)
    else
      match env.physPortCnt with
      | none => if !env.closeDevice then throw (.ret ncclInternalError) else pure ⟨⟩
      | some physPortCnt => do
        let nPorts ← searchPorts p env context (List.range' 1 physPortCnt) none 0
        if nPorts = 0 ∧ !env.closeDevice then throw (.ret ncclInternalError) else pure ⟨⟩

/-- The loop over the devices, which ends when the table is full. -/
def searchDevices (p : InitParams) : List DeviceEnv → InitCall PUnit
  | [] => pure ⟨⟩
  | env :: rest => do
    let x ← get
    if x.devs.length < MAX_IB_DEVS then do
      searchDevice p env
      searchDevices p rest
    else pure ⟨⟩

/-- The search of `ncclIbInitDevices`. -/
def searchAll (p : InitParams) (env : InitEnv) : InitCall PUnit := do
  modify (fun x => { x with ncclIbDevs := some [], ncclIbMergedDevs := [] })
  if env.findInterfaces ≠ ncclSuccess then throw (.ret env.findInterfaces)
  else if env.nIpIfs ≠ 1 then throw (.ret ncclInternalError)
  else
    match env.deviceList with
    | none => throw (.ret ncclInternalError)
    | some devices => do
      searchDevices p devices
      if !env.freeDeviceList then throw (.ret ncclInternalError)
      else modify (fun x => { x with searched := true })

/-! ## The virtual devices -/

/-- `ncclIbMatchVfPath`. A path shorter than what is left away is compared as a whole. -/
def ncclIbMatchVfPath (p : InitParams) (path1 path2 : List Char) : Bool :=
  let cut := if p.ibMergeVfs ≠ 0 then 4 else 1
  if path1.length < cut then path1 = path2
  else path1.take (path1.length - cut) = path2.take (path1.length - cut)

/-- `ncclIbGetRealPort`. It compares with the path of each device before this one. -/
def ncclIbGetRealPort (p : InitParams) (devs : List NcclIbDev) (pciPath : Option (List Char))
    (devIdx : Nat) : Except Stop Nat :=
  match pciPath with
  | none => .ok 0
  | some path1 => do
    let paths ← (devs.take devIdx).mapM (fun dev => deref dev.pciPath)
    .ok (paths.countP (ncclIbMatchVfPath p path1))

/-- `ncclIbGetPlaneIndex`: the planes so far and the index of this one. Bit 14 marks the
virtual planes. -/
def ncclIbGetPlaneIndex (devPlane : Int) (planes : List Int) : Except Stop (List Int × Nat) :=
  let idx := planes.idxOf devPlane
  if idx < planes.length then .ok (planes, idx)
  else if idx = NCCL_IB_PLANE_MAX_INDEX - 1 then .error (.ret ncclInvalidUsage)
  else if devPlane ≠ NCCL_NET_ID_UNDEF ∧ devPlane / 2 ^ NCCL_IB_PLANE_MAX_INDEX % 2 = 1 then
    .error (.ret ncclInvalidUsage)
  else .ok (planes ++ [devPlane], idx)

/-- The virtual device that is one physical device. -/
def NcclIbMergedDev.single (d : Nat) : NcclIbMergedDev :=
  ⟨[d], by simp, by simp [NCCL_IB_MAX_DEVS_PER_NIC]⟩

/-- `ncclIbMakeVDeviceInternal` for one physical device: only a full table refuses. -/
def makeVDevice (d : Nat) : InitCall PUnit := do
  let x ← get
  if x.ncclIbMergedDevs.length = MAX_IB_VDEVS then throw (.ret ncclInvalidUsage)
  else set { x with ncclIbMergedDevs := x.ncclIbMergedDevs ++ [NcclIbMergedDev.single d] }

/-- The change of one entry. -/
def NetIb.setDev (x : NetIb) (d : Nat) (f : NcclIbDev → NcclIbDev) : NetIb :=
  { x with ncclIbDevs := x.ncclIbDevs.map (List.modify · d f) }

def liftStop {α : Type} : Except Stop α → InitCall α
  | .ok a => pure a
  | .error stop => throw stop

/-- The loop over the sorted devices, from device `d` on, with the planes so far. -/
def exposeDevs (p : InitParams) : Nat → Nat → List Int → InitCall PUnit
  | 0, _, _ => pure ⟨⟩
  | n + 1, d, planes => do
    let x ← get
    let dev ← liftStop (deref x.devs[d]?)
    let (planes, planeIdx) ← liftStop (ncclIbGetPlaneIndex dev.planeId planes)
    modify (fun x => x.setDev d (fun dev => { dev with planeIdx }))
    let realPort ← liftStop (ncclIbGetRealPort p x.devs dev.pciPath d)
    modify (fun x => x.setDev d (fun dev => { dev with realPort }))
    makeVDevice d
    exposeDevs p n (d + 1) planes

/-! ## The calls -/

/-- The order of the devices after the sort. -/
def InitEnv.order (p : InitParams) (env : InitEnv) (devs : List NcclIbDev) : List NcclIbDev :=
  if p.ibDevicePciOrder ≠ 0 then env.qsort devs else devs

/-- The sort and the loop after it. -/
def sortAndExpose (p : InitParams) (env : InitEnv) : InitCall PUnit := do
  modify (fun x => { x with ncclIbDevs := x.ncclIbDevs.map (env.order p) })
  let x ← get
  exposeDevs p x.devs.length 0 [NCCL_NET_ID_UNDEF]

/-- `ncclIbInitDevices`. The search, the sort and the loop after it run while
`ncclNIbDevs` is -1. -/
def ncclIbInitDevices (p : InitParams) (env : InitEnv) : InitCall PUnit := do
  let x ← get
  set { x with netRefCount := x.netRefCount + 1 }
  if x.netRefCount ≠ 0 then pure ⟨⟩
  else if p.ibDisable ≠ 0 then throw (.ret ncclInternalError)
  else if !env.ibvSymbols then throw (.ret ncclInternalError)
  else if x.ncclIbDevs = none then do
    searchAll p env
    sortAndExpose p env
  else pure ⟨⟩

/-- `ncclIbInit`. The start of the recovery thread returns success. -/
def ncclIbInit (p : InitParams) (env : InitEnv) : InitCall PUnit := do
  ncclIbInitDevices p env
  if !env.callocConfig then throw (.ret ncclSystemError) else pure ⟨⟩

/-- `ncclIbFinalize`. -/
def ncclIbFinalize (x : NetIb) : NetIb := { x with netRefCount := x.netRefCount - 1 }

end net_ib
