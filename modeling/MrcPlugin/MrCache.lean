-- The cache of memory registrations (reg.cc). Every device keeps one cache
-- that all comms on the device share. An entry is one MR of the provider
-- with the number of handles on it.
import MrcPlugin.Basic
import MrcPlugin.Lib.Runs
import Mathlib.Data.List.Perm.Basic
import Mathlib.Data.List.Count

namespace net_ib.reg

/-! ## The data -/

/-- `struct ncclIbMr`. The pointer `mr` is a number. -/
structure NcclIbMr where
  addr : Nat
  pages : Nat
  refs : Int
  mr : Nat
deriving DecidableEq, Repr

/-- `struct ncclIbMrCache`: the used slots, `population` of them, and the
number of slots that the cache counts as allocated. -/
structure NcclIbMrCache where
  slots : List NcclIbMr
  capacity : Nat
  room : slots.length ≤ capacity
deriving DecidableEq, Repr

def NcclIbMrCache.population (c : NcclIbMrCache) : Nat := c.slots.length

/-- A write into a used slot. -/
def NcclIbMrCache.setSlot (c : NcclIbMrCache) (slot : Nat) (e : NcclIbMr) : NcclIbMrCache where
  slots := c.slots.set slot e
  capacity := c.capacity
  room := by rw [List.length_set]; exact c.room

/-- A new entry at `slot`; the entries from there on move up by one. There is a
slot for the last of them only when the cache is not full. -/
def NcclIbMrCache.insert (c : NcclIbMrCache) (slot : Nat) (e : NcclIbMr)
    (hfree : c.population < c.capacity) : NcclIbMrCache where
  slots := c.slots.insertIdx slot e
  capacity := c.capacity
  room := Nat.le_trans List.length_insertIdx_le_succ hfree

/-- The provider function that a registration goes to. -/
inductive RegVia
  | ibv_reg_mr
  | ibv_reg_mr_iova2
  | ibv_reg_dmabuf_mr (offset : Nat) (fd : Int)
  | mlx5dv_reg_dmabuf_mr (offset : Nat) (fd : Int)
deriving DecidableEq, Repr

/-- An MR that is registered with the provider. -/
structure ProviderMr where
  ptr : Nat
  addr : Nat
  length : Nat
  via : RegVia
  relaxedOrdering : Bool
deriving DecidableEq, Repr

/-- What the cache code reads and writes of one `ncclIbDevs` entry, and the
side of the provider: the MRs that are registered, and the pointers given to
`ibv_dereg_mr` so far. -/
structure MrDev where
  mrCache : NcclIbMrCache
  dataDirect : Bool
  registered : List ProviderMr
  deregs : List Nat
deriving DecidableEq, Repr

/-- The answers of `malloc` and of the provider to one call of
`ncclIbRegMrDmaBufInternal2`. -/
structure RegEnv where
  malloc : Bool
  regMr : Option Nat
deriving DecidableEq, Repr

/-- The arguments of a registration, with `ncclIbRelaxedOrderingEnabled` and
the page size of the host. -/
structure RegArgs where
  data : Nat
  size : Nat
  offset : Nat
  fd : Int
  mrFlags : Nat
  relaxedOrderingEnabled : Bool
deriving DecidableEq, Repr

def NCCL_NET_MR_FLAG_FORCE_SO : Nat := 1

/-! ## The functions of reg.cc -/

/-- `(uintptr_t)data & -pageSize`. -/
def pageAddr (pageSize data : Nat) : Nat := data - data % pageSize

/-- The number of pages from the page of `data` to the end of the buffer. -/
def pageCount (pageSize data size : Nat) : Nat :=
  (data + size - pageAddr pageSize data + pageSize - 1) / pageSize

/-- Where the search loop stops: at an entry to share, or at the slot for a
new entry. -/
inductive Found
  | hit (slot : Nat)
  | miss (slot : Nat)
deriving DecidableEq, Repr

/-- The search loop of `ncclIbRegMrDmaBufInternal2`, from slot `slot` on. -/
def findSlot (pageSize addr pages : Nat) : List NcclIbMr → Nat → Found
  | [], slot => .miss slot
  | e :: es, slot =>
    if addr < e.addr then .miss slot
    else if (addr - e.addr) / pageSize + pages ≤ e.pages then .hit slot
    else findSlot pageSize addr pages es (slot + 1)

/-- The provider function that the branches on `fd`, on the data-direct
capability and on relaxed ordering choose. -/
def regVia (dataDirect relaxedOrdering : Bool) (a : RegArgs) : RegVia :=
  if a.fd ≠ -1 then
    if !dataDirect then .ibv_reg_dmabuf_mr a.offset a.fd else .mlx5dv_reg_dmabuf_mr a.offset a.fd
  else if relaxedOrdering then .ibv_reg_mr_iova2 else .ibv_reg_mr

/-- The capacity of the cache once it has to grow. -/
def NcclIbMrCache.grown (c : NcclIbMrCache) : NcclIbMrCache where
  slots := c.slots
  capacity := if c.capacity < 32 then 32 else 2 * c.capacity
  room := by have := c.room; split <;> omega

/-- Room for one more entry. The capacity grows before the allocation, so a
failed allocation leaves the larger number behind. -/
def growCache (c : NcclIbMrCache) (malloc : Bool) : NcclResult × NcclIbMrCache :=
  if c.population = c.capacity then
    if malloc then (ncclSuccess, c.grown) else (ncclSystemError, c.grown)
  else (ncclSuccess, c)

theorem NcclIbMrCache.grown_free (c : NcclIbMrCache) : c.grown.population < c.grown.capacity := by
  have := c.room
  show c.slots.length < if c.capacity < 32 then 32 else 2 * c.capacity
  split <;> omega

/-- A cache that has grown, or that was not full, has a free slot. -/
theorem growCache_room (c : NcclIbMrCache) (malloc : Bool) :
    (growCache c malloc).2.population < (growCache c malloc).2.capacity := by
  unfold growCache
  by_cases hfull : c.population = c.capacity
  · rw [if_pos hfull]
    cases malloc <;> exact c.grown_free
  · rw [if_neg hfull]
    exact Nat.lt_of_le_of_ne c.room hfull

theorem growCache_slots (c : NcclIbMrCache) (malloc : Bool) :
    (growCache c malloc).2.slots = c.slots := by
  unfold growCache
  split
  · cases malloc <;> rfl
  · rfl

/-- The branch of `ncclIbRegMrDmaBufInternal2` that found no entry to share. -/
def registerNew (pageSize : Nat) (d : MrDev) (a : RegArgs) (env : RegEnv) (slot : Nat) :
    NcclResult × MrDev × Option Nat :=
  let addr := pageAddr pageSize a.data
  let pages := pageCount pageSize a.data a.size
  let c := (growCache d.mrCache env.malloc).2
  match (growCache d.mrCache env.malloc).1 with
  | ncclSuccess =>
    let relaxedOrdering :=
      a.relaxedOrderingEnabled && (a.mrFlags &&& NCCL_NET_MR_FLAG_FORCE_SO == 0)
    match env.regMr with
    | none => (ncclSystemError, { d with mrCache := c }, none)
    | some mr =>
      (ncclSuccess,
        { d with
          mrCache := c.insert slot ⟨addr, pages, 1, mr⟩ (growCache_room d.mrCache env.malloc)
          registered := d.registered ++ [⟨mr, addr, pages * pageSize,
            regVia d.dataDirect relaxedOrdering a, relaxedOrdering⟩] },
        some mr)
  | res => (res, { d with mrCache := c }, none)

/-- `ncclIbRegMrDmaBufInternal2`. -/
def ncclIbRegMrDmaBufInternal2 (pageSize : Nat) (d : MrDev) (a : RegArgs) (env : RegEnv) :
    NcclResult × MrDev × Option Nat :=
  match findSlot pageSize (pageAddr pageSize a.data) (pageCount pageSize a.data a.size)
      d.mrCache.slots 0 with
  | .hit slot =>
    match d.mrCache.slots[slot]? with
    | some e =>
      (ncclSuccess,
        { d with mrCache := d.mrCache.setSlot slot { e with refs := e.refs + 1 } }, some e.mr)
    | none => (ncclInternalError, d, none)
  | .miss slot => registerNew pageSize d a env slot

/-- The loop of `ncclIbRegMrDmaBufInternal` over the devices of the comm. It
stops at the first device that fails; what the devices before it did stays. -/
def regDevs (pageSize : Nat) (a : RegArgs) (env : Nat → RegEnv) :
    List Nat → Nat → (Nat → MrDev) → List (Nat × Nat) →
      NcclResult × (Nat → MrDev) × Option (List (Nat × Nat))
  | [], _, devs, mrs => (ncclSuccess, devs, some mrs)
  | n :: ns, i, devs, mrs =>
    match ncclIbRegMrDmaBufInternal2 pageSize (devs n) a (env i) with
    | (ncclSuccess, d, some mr) =>
      regDevs pageSize a env ns (i + 1) (Function.update devs n d) (mrs ++ [(n, mr)])
    | (res, d, _) => (res, Function.update devs n d, none)

/-- `ncclIbRegMrDmaBufInternal`. A handle lists, for each device of the comm,
the device and its MR. -/
def ncclIbRegMrDmaBufInternal (pageSize : Nat) (devs : Nat → MrDev) (comm : List Nat) (a : RegArgs)
    (env : Nat → RegEnv) : NcclResult × (Nat → MrDev) × Option (List (Nat × Nat)) :=
  if a.size = 0 then (ncclInternalError, devs, none)
  else regDevs pageSize a env comm 0 devs []

/-- `ncclIbRegMr`: host memory, no flags. -/
def ncclIbRegMr (pageSize : Nat) (devs : Nat → MrDev) (comm : List Nat) (data size : Nat)
    (ro : Bool) (env : Nat → RegEnv) : NcclResult × (Nat → MrDev) × Option (List (Nat × Nat)) :=
  ncclIbRegMrDmaBufInternal pageSize devs comm ⟨data, size, 0, -1, 0, ro⟩ env

/-- `ncclIbRegMrDmaBuf`: a DMA-BUF file descriptor, no flags. -/
def ncclIbRegMrDmaBuf (pageSize : Nat) (devs : Nat → MrDev) (comm : List Nat)
    (data size offset : Nat) (fd : Int) (ro : Bool) (env : Nat → RegEnv) :
    NcclResult × (Nat → MrDev) × Option (List (Nat × Nat)) :=
  ncclIbRegMrDmaBufInternal pageSize devs comm ⟨data, size, offset, fd, 0, ro⟩ env

/-- The last entry moves over entry `i`. -/
def moveLast (slots : List NcclIbMr) (i : Nat) : List NcclIbMr :=
  match slots.getLast? with
  | none => slots
  | some last => (slots.set i last).dropLast

theorem length_moveLast (slots : List NcclIbMr) (i : Nat) :
    (moveLast slots i).length ≤ slots.length := by
  unfold moveLast
  split
  · exact Nat.le_refl _
  · rw [List.length_dropLast, List.length_set]
    exact Nat.sub_le _ _

/-- Entry `i` leaves the cache. An empty cache gives its slots back. -/
def NcclIbMrCache.remove (c : NcclIbMrCache) (i : Nat) : NcclIbMrCache where
  slots := moveLast c.slots i
  capacity := if (moveLast c.slots i).length = 0 then 0 else c.capacity
  room := by
    have := length_moveLast c.slots i
    have := c.room
    split <;> omega

/-- The last handle of entry `i` is gone: the entry leaves the cache, and the MR
leaves the provider. -/
def dropEntry (d : MrDev) (mhandle i : Nat) (deregOk : Bool) : NcclResult × MrDev :=
  let d := { d with
    mrCache := d.mrCache.remove i
    deregs := d.deregs ++ [mhandle] }
  if deregOk then
    (ncclSuccess, { d with registered := d.registered.filter (fun m => m.ptr ≠ mhandle) })
  else (ncclSystemError, d)

/-- `ncclIbDeregMrInternal`. -/
def ncclIbDeregMrInternal (d : MrDev) (mhandle : Nat) (deregOk : Bool) : NcclResult × MrDev :=
  match d.mrCache.slots.findIdx? (fun e => e.mr == mhandle) with
  | none => (ncclInternalError, d)
  | some i =>
    match d.mrCache.slots[i]? with
    | none => (ncclInternalError, d)
    | some e =>
      let d := { d with mrCache := d.mrCache.setSlot i { e with refs := e.refs - 1 } }
      if e.refs - 1 = 0 then dropEntry d mhandle i deregOk else (ncclSuccess, d)

/-- The loop of `ncclIbDeregMr` over the devices of the handle. -/
def deregDevs (deregOk : Nat → Bool) :
    List (Nat × Nat) → Nat → (Nat → MrDev) → NcclResult × (Nat → MrDev)
  | [], _, devs => (ncclSuccess, devs)
  | (n, mr) :: rest, i, devs =>
    match ncclIbDeregMrInternal (devs n) mr (deregOk i) with
    | (ncclSuccess, d) => deregDevs deregOk rest (i + 1) (Function.update devs n d)
    | (res, d) => (res, Function.update devs n d)

/-- `ncclIbDeregMr`. A NULL handle is no error. -/
def ncclIbDeregMr (deregOk : Nat → Bool) (mhandle : Option (List (Nat × Nat)))
    (devs : Nat → MrDev) : NcclResult × (Nat → MrDev) :=
  match mhandle with
  | none => (ncclSuccess, devs)
  | some mrs => deregDevs deregOk mrs 0 devs

end net_ib.reg
