-- The physical devices (init.cc, common.h) and the order in which they are sorted. A
-- device is compared by the last component of its PCI path, and one without a path
-- goes to the back.
import MrcPlugin.Basic

namespace net_ib

/-! ## The data -/

/-- `ibv_port_attr`. -/
structure IbvPortAttr where
  lid : Nat
  active_mtu : Nat
  link_layer : Nat
  flags : Nat
  gid_tbl_len : Int
deriving DecidableEq, Repr

/-- `ncclIbGidInfo`. A GID is a number of 128 bits. -/
structure NcclIbGidInfo where
  link_layer : Nat
  localGid : Nat
  localGidIndex : Int
deriving DecidableEq, Repr

def IBV_LINK_LAYER_INFINIBAND : Nat := 1

def IBV_LINK_LAYER_ETHERNET : Nat := 2

/-- `ncclIbDev`. A context is a handle. `fullPciPath` is empty when it was not found,
and `pciPath` is NULL then. -/
structure NcclIbDev where
  context : Nat
  portNum : Nat
  portAttr : IbvPortAttr
  gidInfo : NcclIbGidInfo
  pciPath : Option (List Char)
  fullPciPath : List Char
  railId : Int
  planeId : Int
  planeIdx : Nat
  realPort : Nat
  /-- The counter of `stats`. -/
  fatalErrorCount : Nat
deriving DecidableEq, Repr

/-! ## The GID of a port -/

/-- `ncclIbExtractFlid`. -/
def ncclIbExtractFlid (gid : Nat) : Nat := gid / 2 ^ 80 % 2 ^ 16

/-- What `ncclIbGetGidIndex` stores and returns, and the GIDs of the provider. -/
structure GidEnv where
  getGidIndex : Nat → Nat → IbvPortAttr → Int × NcclResult
  queryGid : Nat → Nat → Int → Except NcclResult Nat

/-- `ncclIbGidInfoQuery`: the record, which a failing call leaves half written, and the
result. -/
def ncclIbGidInfoQuery (env : GidEnv) (context portNum : Nat) (portAttr : IbvPortAttr)
    (gidInfo : NcclIbGidInfo) : NcclIbGidInfo × NcclResult :=
  let (localGidIndex, res) := env.getGidIndex context portNum portAttr
  let gidInfo := { gidInfo with link_layer := portAttr.link_layer, localGidIndex }
  if res ≠ ncclSuccess then (gidInfo, res)
  else if localGidIndex < 0 then (gidInfo, ncclInternalError)
  else
    match env.queryGid context portNum localGidIndex with
    | .error res => (gidInfo, res)
    | .ok localGid => ({ gidInfo with localGid }, ncclSuccess)

/-- A provider that answers no question about GIDs. -/
def GidEnv.failing : GidEnv := ⟨fun _ _ _ => (0, ncclSystemError), fun _ _ _ => .error ncclSystemError⟩

/-! ## The order of the devices -/

/-- The value of a hexadecimal digit. -/
def hexDigit (c : Char) : Option Nat :=
  if '0' ≤ c ∧ c ≤ '9' then some (c.toNat - '0'.toNat)
  else if 'A' ≤ c ∧ c ≤ 'F' then some (c.toNat - 'A'.toNat + 10)
  else if 'a' ≤ c ∧ c ≤ 'f' then some (c.toNat - 'a'.toNat + 10)
  else none

/-- The first `n` digits of a bus id, up to a character that is no part of one. -/
def busIdDigits : Nat → List Char → List Nat
  | 0, _ => []
  | _, [] => []
  | n + 1, c :: cs =>
    if c = '.' ∨ c = ':' then busIdDigits (n + 1) cs
    else
      match hexDigit c with
      | none => []
      | some d => d :: busIdDigits n cs

/-- `busIdToInt64`. `strtol` ends at the largest value. -/
def busIdToInt64 (busId : List Char) : Nat :=
  min ((busIdDigits 16 busId).foldl (fun id d => 16 * id + d) 0) (2 ^ 63 - 1)

/-- `pciPathToInt64`: the last component of the path. -/
def pciPathToInt64 (path : List Char) : Nat :=
  let str := path.reverse
  let str := if str.head? = some '/' then str.tail else str
  busIdToInt64 (str.takeWhile (· ≠ '/')).reverse

/-- `ncclIbCompareDevs`. -/
def ncclIbCompareDevs (dev1 dev2 : NcclIbDev) : Int :=
  let path1 := dev1.fullPciPath
  let path2 := dev2.fullPciPath
  if path1.length = 0 ∨ path2.length = 0 then (path2.length : Int) - path1.length
  else if pciPathToInt64 path1 < pciPathToInt64 path2 then -1
  else if pciPathToInt64 path1 = pciPathToInt64 path2 then 0
  else 1

/-- An order that `qsort` can leave the devices in. It may leave equal ones in any
order. -/
structure PciSorted (devs sorted : List NcclIbDev) : Prop where
  perm : sorted.Perm devs
  sorted : sorted.Pairwise (fun dev1 dev2 => ncclIbCompareDevs dev1 dev2 ≤ 0)

/-- An order that the devices can be in after the sort, which
`NCCL_IB_DEVICE_PCI_ORDER` turns off. -/
def PciOrder (devicePciOrder : Int) (devs sorted : List NcclIbDev) : Prop :=
  if devicePciOrder ≠ 0 then PciSorted devs sorted else sorted = devs

/-! ## The comparison is an order -/

/-- What the comparison goes by: devices with a path first, then the number. -/
def pciKey (dev : NcclIbDev) : Nat :=
  if dev.fullPciPath.length = 0 then 2 ^ 63 else pciPathToInt64 dev.fullPciPath

theorem pciPathToInt64_lt (path : List Char) : pciPathToInt64 path < 2 ^ 63 := by
  unfold pciPathToInt64 busIdToInt64
  simp only
  omega

/-- The result of the comparison has the sign of the difference of the keys. -/
theorem compareDevs_sign (dev1 dev2 : NcclIbDev) :
    (ncclIbCompareDevs dev1 dev2 ≤ 0 ↔ pciKey dev1 ≤ pciKey dev2) ∧
      (ncclIbCompareDevs dev1 dev2 < 0 ↔ pciKey dev1 < pciKey dev2) := by
  have h1 := pciPathToInt64_lt dev1.fullPciPath
  have h2 := pciPathToInt64_lt dev2.fullPciPath
  unfold ncclIbCompareDevs pciKey
  simp only
  split
  · rename_i hempty
    split <;> split <;> omega
  · rename_i hpaths
    rw [not_or] at hpaths
    rw [if_neg hpaths.1, if_neg hpaths.2]
    split
    · omega
    · split <;> omega

/-- A sort of the devices. -/
def sortByKey (devs : List NcclIbDev) : List NcclIbDev :=
  devs.insertionSort (fun dev1 dev2 => pciKey dev1 ≤ pciKey dev2)

/-- Every list of devices has an order that the sort can leave it in. -/
theorem sortByKey_sorts (devs : List NcclIbDev) : PciSorted devs (sortByKey devs) := by
  refine ⟨List.perm_insertionSort .., ?_⟩
  have htotal : Std.Total (fun dev1 dev2 : NcclIbDev => pciKey dev1 ≤ pciKey dev2) :=
    ⟨fun a b => Nat.le_total _ _⟩
  have htrans : IsTrans NcclIbDev (fun dev1 dev2 => pciKey dev1 ≤ pciKey dev2) :=
    ⟨fun a b c => Nat.le_trans⟩
  have hsorted := List.pairwise_insertionSort
    (fun dev1 dev2 : NcclIbDev => pciKey dev1 ≤ pciKey dev2) devs
  exact hsorted.imp (fun {a b} h => (compareDevs_sign a b).1.mpr h)

end net_ib
