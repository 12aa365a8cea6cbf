-- The order of the cache of memory registrations (reg.cc). The search loop stops
-- at the first entry with a larger address, so it finds a shared entry only in a
-- cache that is sorted by address. A new entry goes to its place, but the last
-- entry takes the place of one that leaves.
import MrcPlugin.MrCache

namespace net_ib.reg

open runs

/-! ## The order of the slots -/

/-- The slots are sorted by address. -/
def SortedSlots (slots : List NcclIbMr) : Prop :=
  slots.Pairwise (fun x y => x.addr ≤ y.addr)

instance (slots : List NcclIbMr) : Decidable (SortedSlots slots) :=
  inferInstanceAs (Decidable (List.Pairwise _ _))

/-- Entry `e` holds the `pages` pages at `addr`, as the search loop asks. -/
def HoldsPages (pageSize addr pages : Nat) (e : NcclIbMr) : Prop :=
  e.addr ≤ addr ∧ (addr - e.addr) / pageSize + pages ≤ e.pages

/-- A registration whose pages some entry holds shares an entry and does not
go to the provider. -/
def ReusesEntries (pageSize : Nat) (d : MrDev) : Prop :=
  ∀ (a : RegArgs) (env : RegEnv), (∃ e ∈ d.mrCache.slots,
      HoldsPages pageSize (pageAddr pageSize a.data) (pageCount pageSize a.data a.size) e) →
    ∃ e ∈ d.mrCache.slots, ∃ d',
      ncclIbRegMrDmaBufInternal2 pageSize d a env = (ncclSuccess, d', some e.mr) ∧
        d'.registered = d.registered

variable {pageSize addr pages : Nat} {slots : List NcclIbMr}

theorem SortedSlots.tail {e : NcclIbMr} {es : List NcclIbMr} (h : SortedSlots (e :: es)) :
    SortedSlots es :=
  (List.pairwise_cons.mp h).2

theorem SortedSlots.head_le {e : NcclIbMr} {es : List NcclIbMr} (h : SortedSlots (e :: es)) :
    ∀ x ∈ es, e.addr ≤ x.addr :=
  (List.pairwise_cons.mp h).1

/-- In a sorted cache the search finds an entry to share when there is one. -/
theorem findSlot_hit_of_holds (h : SortedSlots slots) {e : NcclIbMr} (he : e ∈ slots)
    (hold : HoldsPages pageSize addr pages e) (i : Nat) :
    ∃ slot, findSlot pageSize addr pages slots i = .hit slot ∧ i ≤ slot ∧ slot < i + slots.length := by
  induction slots generalizing i with
  | nil => cases he
  | cons x xs ih =>
    -- No entry up to `e` has a larger address than the request.
    have hx : x.addr ≤ addr := by
      rcases List.mem_cons.mp he with rfl | hmem
      · exact hold.1
      · exact Nat.le_trans (h.head_le e hmem) hold.1
    unfold findSlot
    rw [if_neg (Nat.not_lt.mpr hx)]
    by_cases hhit : (addr - x.addr) / pageSize + pages ≤ x.pages
    · rw [if_pos hhit]
      exact ⟨i, rfl, Nat.le_refl _, by simp⟩
    · rw [if_neg hhit]
      rcases List.mem_cons.mp he with rfl | hmem
      · exact absurd hold.2 hhit
      · obtain ⟨slot, hfind, hle, hlt⟩ := ih h.tail hmem (i + 1)
        refine ⟨slot, hfind, by omega, ?_⟩
        rw [List.length_cons]
        omega

/-- A new entry goes to its place. -/
theorem SortedSlots.insert (h : SortedSlots slots) (new : NcclIbMr) (hnew : new.addr = addr)
    {i slot : Nat} (hmiss : findSlot pageSize addr pages slots i = .miss slot) :
    i ≤ slot ∧ SortedSlots (slots.insertIdx (slot - i) new) := by
  induction slots generalizing i with
  | nil =>
    cases hmiss
    rw [Nat.sub_self]
    exact ⟨Nat.le_refl _, List.pairwise_singleton ..⟩
  | cons x xs ih =>
    unfold findSlot at hmiss
    split at hmiss
    · rename_i hlt
      cases hmiss
      rw [Nat.sub_self, List.insertIdx_zero]
      refine ⟨Nat.le_refl _, List.pairwise_cons.mpr ⟨fun y hy => ?_, h⟩⟩
      rw [hnew]
      rcases List.mem_cons.mp hy with rfl | hy
      · exact Nat.le_of_lt hlt
      · exact Nat.le_trans (Nat.le_of_lt hlt) (h.head_le y hy)
    split at hmiss
    · cases hmiss
    rename_i hle _
    obtain ⟨hi, hsorted⟩ := ih h.tail hmiss
    obtain ⟨k, rfl⟩ := Nat.exists_eq_add_of_le hi
    rw [show i + 1 + k - (i + 1) = k by omega] at hsorted
    rw [show i + 1 + k - i = k + 1 by omega, List.insertIdx_succ_cons]
    refine ⟨by omega, List.pairwise_cons.mpr ⟨fun y hy => ?_, hsorted⟩⟩
    rcases List.eq_or_mem_of_mem_insertIdx hy with rfl | hy
    · rw [hnew]
      exact Nat.le_of_not_lt hle
    · exact h.head_le y hy

/-! ## An entry leaves -/

/-- What `moveLast` does to the entry between `l` and `r`. -/
theorem moveLast_middle (l r : List NcclIbMr) (x y : NcclIbMr) :
    moveLast (l ++ x :: (r ++ [y])) l.length = l ++ y :: r := by
  unfold moveLast
  have hlast : (l ++ x :: (r ++ [y])).getLast? = some y := by
    rw [← List.cons_append, ← List.append_assoc, List.getLast?_concat]
  have hset : (l ++ x :: (r ++ [y])).set l.length y = (l ++ y :: r) ++ [y] := by simp
  rw [hlast]
  simp only
  rw [hset, List.dropLast_concat]

theorem moveLast_end (l : List NcclIbMr) (x : NcclIbMr) :
    moveLast (l ++ [x]) l.length = l := by
  simp [moveLast]

/-- A sorted cache stays sorted exactly when all entries behind the one that
leaves have the same address. -/
theorem sortedSlots_moveLast (h : SortedSlots slots) {i : Nat} (hi : i < slots.length) :
    SortedSlots (moveLast slots i) ↔
      ∀ x ∈ slots.drop (i + 1), ∀ y ∈ slots.drop (i + 1), x.addr = y.addr := by
  obtain ⟨l, x, r, hsplit, hlen⟩ : ∃ l x r, slots = l ++ x :: r ∧ l.length = i :=
    ⟨slots.take i, slots[i], slots.drop (i + 1), by
      rw [← List.drop_eq_getElem_cons hi, List.take_append_drop], by
      rw [List.length_take]
      omega⟩
  have hdrop : slots.drop (i + 1) = r := by
    rw [hsplit, ← hlen, ← List.drop_drop, List.drop_left]
    rfl
  rw [hdrop, hsplit, ← hlen]
  rw [hsplit] at h
  rcases List.eq_nil_or_concat r with rfl | ⟨r, y, rfl⟩
  · rw [moveLast_end]
    exact ⟨fun _ _ hx => absurd hx (List.not_mem_nil), fun _ => (List.pairwise_append.mp h).1⟩
  rw [List.concat_eq_append] at h ⊢
  rw [moveLast_middle]
  obtain ⟨hl, hxr, hcross⟩ := List.pairwise_append.mp h
  have hr := (List.pairwise_append.mp hxr.tail).1
  have hle : ∀ z ∈ r, z.addr ≤ y.addr := fun z hz =>
    (List.pairwise_append.mp hxr.tail).2.2 z hz y (List.mem_singleton_self _)
  constructor
  · intro hsorted
    have hge := SortedSlots.head_le (List.pairwise_append.mp hsorted).2.1
    have hall : ∀ z ∈ r ++ [y], z.addr = y.addr := by
      intro z hz
      rcases List.mem_append.mp hz with hz | hz
      · exact Nat.le_antisymm (hle z hz) (hge z hz)
      · rw [List.mem_singleton.mp hz]
    intro z hz w hw
    rw [hall z hz, hall w hw]
  · intro hsame
    have hy : y ∈ r ++ [y] := List.mem_append_right _ (List.mem_singleton_self _)
    refine List.pairwise_append.mpr ⟨hl, List.pairwise_cons.mpr ⟨fun z hz => ?_, hr⟩, ?_⟩
    · exact Nat.le_of_eq (hsame y hy z (List.mem_append_left _ hz))
    · intro a ha z hz
      rcases List.mem_cons.mp hz with rfl | hz
      · exact hcross a ha z (List.mem_cons_of_mem _ hy)
      · exact hcross a ha z (List.mem_cons_of_mem _ (List.mem_append_left _ hz))

/-- A count of handles is no address. -/
theorem sortedSlots_set {i : Nat} {e : NcclIbMr} {n : Int} (hget : slots[i]? = some e) :
    SortedSlots (slots.set i { e with refs := n }) ↔ SortedSlots slots := by
  obtain ⟨hi, rfl⟩ := List.getElem?_eq_some_iff.mp hget
  have hmap : (slots.set i { slots[i] with refs := n }).map NcclIbMr.addr =
      slots.map NcclIbMr.addr := by
    rw [List.map_set]
    apply List.ext_getElem?
    intro j
    by_cases hj : i = j
    · subst hj
      simp [hi]
    · simp [List.getElem?_set_ne hj]
  unfold SortedSlots
  rw [← List.pairwise_map (f := NcclIbMr.addr) (R := (· ≤ ·)),
    ← List.pairwise_map (f := NcclIbMr.addr) (R := (· ≤ ·)), hmap]

/-! ## The runs of one device -/

/-- A release of `mhandle` on `d` keeps the order: when the last handle of an
entry goes, all entries behind it have the same address. -/
def KeepsOrder (d : MrDev) (mhandle : Nat) : Prop :=
  ∀ i e, d.mrCache.slots.findIdx? (fun e => e.mr == mhandle) = some i →
    d.mrCache.slots[i]? = some e → e.refs = 1 →
    ∀ x ∈ d.mrCache.slots.drop (i + 1), ∀ y ∈ d.mrCache.slots.drop (i + 1), x.addr = y.addr

/-- The registrations and releases on one device, by any comms and with any
answers of the provider. Every release meets `guard`. -/
inductive DevStep (pageSize : Nat) (guard : MrDev → Nat → Prop) : MrDev → MrDev → Prop
  | register (d : MrDev) (a : RegArgs) (env : RegEnv) :
    DevStep pageSize guard d (ncclIbRegMrDmaBufInternal2 pageSize d a env).2.1
  | release (d : MrDev) (mhandle : Nat) (deregOk : Bool) (hguard : guard d mhandle) :
    DevStep pageSize guard d (ncclIbDeregMrInternal d mhandle deregOk).2

def devSystem (pageSize : Nat) (guard : MrDev → Nat → Prop) : System MrDev where
  init := fun d => d.mrCache.slots = []
  step := DevStep pageSize guard

theorem sorted_reg (d : MrDev) (a : RegArgs) (env : RegEnv) (h : SortedSlots d.mrCache.slots) :
    SortedSlots (ncclIbRegMrDmaBufInternal2 pageSize d a env).2.1.mrCache.slots := by
  have hgrow := growCache_slots d.mrCache env.malloc
  unfold ncclIbRegMrDmaBufInternal2
  cases hfind : findSlot pageSize (pageAddr pageSize a.data) (pageCount pageSize a.data a.size)
      d.mrCache.slots 0 with
  | hit slot =>
    simp only
    cases hget : d.mrCache.slots[slot]? with
    | none => exact h
    | some e => exact (sortedSlots_set hget).mpr h
  | miss slot =>
    simp only [registerNew]
    split
    · split
      · exact hgrow ▸ h
      · rename_i mr _
        obtain ⟨_, hsorted⟩ := h.insert ⟨_, pageCount pageSize a.data a.size, 1, mr⟩ rfl hfind
        show SortedSlots ((growCache d.mrCache env.malloc).2.slots.insertIdx slot _)
        rw [hgrow]
        exact hsorted
    · exact hgrow ▸ h

/-- A release keeps a sorted cache sorted exactly when `KeepsOrder` says so. -/
theorem sorted_dereg (d : MrDev) (mhandle : Nat) (deregOk : Bool)
    (h : SortedSlots d.mrCache.slots) :
    SortedSlots (ncclIbDeregMrInternal d mhandle deregOk).2.mrCache.slots ↔
      KeepsOrder d mhandle := by
  unfold ncclIbDeregMrInternal KeepsOrder
  cases hidx : d.mrCache.slots.findIdx? (fun e => e.mr == mhandle) with
  | none =>
    refine ⟨fun _ i e hi => ?_, fun _ => h⟩
    cases hi
  | some i =>
    have hi : i < d.mrCache.slots.length := (List.findIdx?_eq_some_iff_getElem.mp hidx).1
    have hget : d.mrCache.slots[i]? = some d.mrCache.slots[i] := List.getElem?_eq_getElem hi
    generalize d.mrCache.slots[i] = e at hget
    simp only [hget]
    have hset : SortedSlots (d.mrCache.slots.set i { e with refs := e.refs - 1 }) :=
      (sortedSlots_set hget).mpr h
    have hdrop : (d.mrCache.slots.set i { e with refs := e.refs - 1 }).drop (i + 1) =
        d.mrCache.slots.drop (i + 1) := by
      rw [List.drop_set, if_pos (Nat.lt_succ_self i)]
    have hmove := sortedSlots_moveLast hset (i := i) (by rw [List.length_set]; exact hi)
    rw [hdrop] at hmove
    by_cases hrefs : e.refs - 1 = 0
    · rw [if_pos hrefs]
      have hout : (dropEntry { d with
          mrCache := d.mrCache.setSlot i { e with refs := e.refs - 1 } } mhandle i
            deregOk).2.mrCache.slots =
          moveLast (d.mrCache.slots.set i { e with refs := e.refs - 1 }) i := by
        unfold dropEntry
        simp only
        split <;> rfl
      rw [hout, hmove]
      constructor
      · intro hsame j e' hj _ _
        cases hj
        exact hsame
      · intro hkeep
        exact hkeep i e rfl hget (by omega)
    · rw [if_neg hrefs]
      refine ⟨fun _ j e' hj he' hone => ?_, fun _ => hset⟩
      cases hj
      rw [hget] at he'
      cases he'
      omega

theorem reuses_of_sorted (d : MrDev) (h : SortedSlots d.mrCache.slots) :
    ReusesEntries pageSize d := by
  rintro a env ⟨e, he, hold⟩
  obtain ⟨slot, hfind, _, hlt⟩ := findSlot_hit_of_holds h he hold 0
  rw [Nat.zero_add] at hlt
  refine ⟨d.mrCache.slots[slot], List.getElem_mem hlt, ?_⟩
  unfold ncclIbRegMrDmaBufInternal2
  rw [hfind]
  simp only [List.getElem?_eq_getElem hlt]
  exact ⟨_, rfl, rfl⟩

/-! ## The laws -/

/-- In a run whose releases all keep the order, the cache is always sorted and a
registration shares an entry whenever some entry holds its pages. From such a
state, a release leaves a sorted cache only when it keeps the order. -/
theorem the_cache_stays_sorted (pageSize : Nat) (d : MrDev)
    (h : Reachable (devSystem pageSize KeepsOrder) d) :
    SortedSlots d.mrCache.slots ∧ ReusesEntries pageSize d ∧
      ∀ mhandle deregOk,
        SortedSlots (ncclIbDeregMrInternal d mhandle deregOk).2.mrCache.slots ↔
          KeepsOrder d mhandle := by
  have hsorted : SortedSlots d.mrCache.slots := by
    refine h.invariant (P := fun d => SortedSlots d.mrCache.slots) (fun d hd => ?_)
      (fun s t _ hs hstep => ?_)
    · rw [show d.mrCache.slots = [] from hd]
      exact List.Pairwise.nil
    · cases hstep with
      | register a env => exact sorted_reg s a env hs
      | release mhandle deregOk hguard => exact (sorted_dereg s mhandle deregOk hs).mpr hguard
  exact ⟨hsorted, reuses_of_sorted d hsorted, fun mhandle deregOk =>
    sorted_dereg d mhandle deregOk hsorted⟩

/-- A registration of page `n`, for which the provider gives the MR `n`. -/
def regPage (d : MrDev) (n : Nat) : MrDev :=
  (ncclIbRegMrDmaBufInternal2 4096 d ⟨n * 4096, 4096, 0, -1, 0, true⟩ ⟨true, some n⟩).2.1

/-- Three pages, one after the other, each with its own MR. -/
def threePages : MrDev := regPage (regPage (regPage ⟨⟨[], 0, by decide⟩, false, [], []⟩ 1) 2) 3

theorem reachable_threePages (guard : MrDev → Nat → Prop) :
    Reachable (devSystem 4096 guard) threePages := by
  have hreg : ∀ d n, Reachable (devSystem 4096 guard) d →
      Reachable (devSystem 4096 guard) (regPage d n) := fun d n hd =>
    hd.step (DevStep.register d _ _)
  exact hreg _ _ (hreg _ _ (hreg _ _ (Reachable.init rfl)))

/-- The release of the last page keeps the order. -/
theorem three_pages_are_sorted :
    SortedSlots threePages.mrCache.slots ∧
      SortedSlots (ncclIbDeregMrInternal threePages 3 true).2.mrCache.slots := by
  obtain ⟨hsorted, _, hiff⟩ := the_cache_stays_sorted 4096 threePages (reachable_threePages _)
  refine ⟨hsorted, (hiff 3 true).mpr ?_⟩
  intro i e hi _ _ x hx
  have hi' : i = 2 := Option.some.inj (hi.symm.trans (by decide))
  have hnone : threePages.mrCache.slots.drop (2 + 1) = [] := by decide
  rw [hi', hnone] at hx
  cases hx

/-- After the release of the first page the third one is in front of the second,
and the second page is registered once more. -/
theorem a_release_hides_the_second_page : ∃ d,
    Reachable (devSystem 4096 (fun _ _ => True)) d ∧ ¬ SortedSlots d.mrCache.slots ∧
      ¬ ReusesEntries 4096 d := by
  refine ⟨(ncclIbDeregMrInternal threePages 1 true).2,
    (reachable_threePages _).step (DevStep.release _ 1 true trivial), by decide, ?_⟩
  intro h
  obtain ⟨e, _, d', hout, hsame⟩ := h ⟨8192, 4096, 0, -1, 0, true⟩ ⟨true, some 4⟩
    ⟨⟨8192, 1, 1, 2⟩, by decide, by decide, by decide⟩
  have hreg : d'.registered.length = 3 := by
    rw [← (Prod.mk.inj (Prod.mk.inj hout).2).1]
    decide
  rw [hsame] at hreg
  exact absurd hreg (by decide)

end net_ib.reg
