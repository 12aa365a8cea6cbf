-- Who owns an MR of the cache. A handle on an MR is one reference, an entry
-- of the cache counts them, and the provider keeps exactly the MRs that have
-- a handle. The laws hold after any sequence of registrations and releases,
-- by any number of comms.
import MrcPlugin.MrCache
import Mathlib.Data.List.Nodup

namespace net_ib.reg

open runs

/-! ## The invariant of one device -/

/-- The MR holds every page of the `size` bytes at `data`. -/
def Covers (pageSize : Nat) (m : ProviderMr) (data size : Nat) : Prop :=
  ∀ a, data ≤ a → a < data + size →
    m.addr ≤ pageAddr pageSize a ∧ pageAddr pageSize a + pageSize ≤ m.addr + m.length

/-- The entries `slots` own the MRs of the provider, where `H p` handles are
out on the MR `p`. -/
structure Owned (pageSize : Nat) (slots : List NcclIbMr) (registered : List ProviderMr)
    (H : Nat → Nat) : Prop where
  nodup : (slots.map (·.mr)).Nodup
  refs : ∀ e ∈ slots, e.refs = H e.mr ∧ 0 < H e.mr
  entry : ∀ p, 0 < H p → ∃ e ∈ slots, e.mr = p
  aligned : ∀ e ∈ slots, pageSize ∣ e.addr
  backed : ∀ e ∈ slots, ∃ m ∈ registered,
    m.ptr = e.mr ∧ m.addr = e.addr ∧ m.length = e.pages * pageSize
  only : ∀ m ∈ registered, 0 < H m.ptr
  regNodup : (registered.map (·.ptr)).Nodup

variable {pageSize : Nat} {e : NcclIbMr} {slots slots' es : List NcclIbMr}
  {registered : List ProviderMr} {H : Nat → Nat}

/-- The order of the entries does not matter. -/
theorem Owned.perm (h : Owned pageSize slots registered H) (hp : slots.Perm slots') :
    Owned pageSize slots' registered H := by
  obtain ⟨h1, h2, h3, h4, h5, h6, h7⟩ := h
  refine ⟨(hp.map _).nodup_iff.mp h1, ?_, ?_, ?_, ?_, h6, h7⟩
  · intro e he
    exact h2 e (hp.mem_iff.mpr he)
  · intro p hp0
    obtain ⟨e, he, hep⟩ := h3 p hp0
    exact ⟨e, hp.mem_iff.mp he, hep⟩
  · intro e he
    exact h4 e (hp.mem_iff.mpr he)
  · intro e he
    exact h5 e (hp.mem_iff.mpr he)

/-- The other entries are entries of other MRs. -/
theorem Owned.mr_ne (h : Owned pageSize (e :: es) registered H) :
    ∀ x ∈ es, x.mr ≠ e.mr := by
  intro x hx he
  have := h.nodup
  simp only [List.map_cons, List.nodup_cons, List.mem_map, not_exists, not_and] at this
  exact this.1 x hx he

/-- One more handle on the first entry. -/
theorem Owned.bump (h : Owned pageSize (e :: es) registered H) :
    Owned pageSize ({ e with refs := e.refs + 1 } :: es) registered
      (Function.update H e.mr (H e.mr + 1)) := by
  have hne := h.mr_ne
  obtain ⟨h1, h2, h3, h4, h5, h6, h7⟩ := h
  refine ⟨h1, ?_, ?_, ?_, ?_, ?_, h7⟩
  · intro x hx
    rcases List.mem_cons.mp hx with rfl | hx
    · have := (h2 e (by simp)).1
      simp only [Function.update_self]
      omega
    · rw [Function.update_of_ne (hne x hx)]
      exact h2 x (by simp [hx])
  · intro p hp
    by_cases hpe : p = e.mr
    · exact ⟨_, List.mem_cons_self, hpe.symm⟩
    · rw [Function.update_of_ne hpe] at hp
      obtain ⟨x, hx, hxp⟩ := h3 p hp
      rcases List.mem_cons.mp hx with rfl | hx
      · exact absurd hxp.symm hpe
      · exact ⟨x, by simp [hx], hxp⟩
  · intro x hx
    rcases List.mem_cons.mp hx with rfl | hx
    · exact h4 e (by simp)
    · exact h4 x (by simp [hx])
  · intro x hx
    rcases List.mem_cons.mp hx with rfl | hx
    · exact h5 e (by simp)
    · exact h5 x (by simp [hx])
  · intro m hm
    have := h6 m hm
    by_cases hme : m.ptr = e.mr
    · rw [hme, Function.update_self]; omega
    · rw [Function.update_of_ne hme]; exact this

/-- A new MR with its first handle. -/
theorem Owned.insert {m : ProviderMr} (h : Owned pageSize es registered H)
    (hfresh : ∀ m' ∈ registered, m'.ptr ≠ m.ptr) (hal : pageSize ∣ e.addr)
    (hm : m.ptr = e.mr ∧ m.addr = e.addr ∧ m.length = e.pages * pageSize) (he : e.refs = 1) :
    Owned pageSize (e :: es) (registered ++ [m]) (Function.update H e.mr (H e.mr + 1)) := by
  obtain ⟨h1, h2, h3, h4, h5, h6, h7⟩ := h
  have hnew : ∀ x ∈ es, x.mr ≠ e.mr := by
    intro x hx hxe
    obtain ⟨m', hm', hptr, _⟩ := h5 x hx
    exact hfresh m' hm' (by rw [hptr, hxe, hm.1])
  have hH : H e.mr = 0 := by
    by_contra hpos
    obtain ⟨x, hx, hxe⟩ := h3 e.mr (by omega)
    exact hnew x hx hxe
  refine ⟨?_, ?_, ?_, ?_, ?_, ?_, ?_⟩
  · simp only [List.map_cons, List.nodup_cons, List.mem_map, not_exists, not_and]
    exact ⟨hnew, h1⟩
  · intro x hx
    rcases List.mem_cons.mp hx with rfl | hx
    · simp only [Function.update_self, he, hH]; decide
    · rw [Function.update_of_ne (hnew x hx)]
      exact h2 x hx
  · intro p hp
    by_cases hpe : p = e.mr
    · exact ⟨e, List.mem_cons_self, hpe.symm⟩
    · rw [Function.update_of_ne hpe] at hp
      obtain ⟨x, hx, hxp⟩ := h3 p hp
      exact ⟨x, by simp [hx], hxp⟩
  · intro x hx
    rcases List.mem_cons.mp hx with rfl | hx
    · exact hal
    · exact h4 x hx
  · intro x hx
    rcases List.mem_cons.mp hx with rfl | hx
    · exact ⟨m, by simp, hm⟩
    · obtain ⟨m', hm', hx'⟩ := h5 x hx
      exact ⟨m', by simp [hm'], hx'⟩
  · intro m' hm'
    rcases List.mem_append.mp hm' with hm' | hm'
    · have := h6 m' hm'
      rw [Function.update_of_ne (by rw [← hm.1]; exact hfresh m' hm')]
      exact this
    · simp only [List.mem_singleton] at hm'
      subst hm'
      rw [hm.1, Function.update_self]
      omega
  · rw [List.map_append, List.nodup_append]
    refine ⟨h7, by simp, ?_⟩
    intro a ha b hb hab
    simp only [List.map_cons, List.map_nil, List.mem_singleton] at hb
    obtain ⟨m', hm', hma⟩ := List.mem_map.mp ha
    exact hfresh m' hm' (by rw [hma, hab, hb])

/-- One handle less on the first entry, with handles left. -/
theorem Owned.lower (h : Owned pageSize (e :: es) registered H) (hmore : 1 < H e.mr) :
    Owned pageSize ({ e with refs := e.refs - 1 } :: es) registered
      (Function.update H e.mr (H e.mr - 1)) := by
  have hne := h.mr_ne
  obtain ⟨h1, h2, h3, h4, h5, h6, h7⟩ := h
  refine ⟨h1, ?_, ?_, ?_, ?_, ?_, h7⟩
  · intro x hx
    rcases List.mem_cons.mp hx with rfl | hx
    · have := (h2 e (by simp)).1
      simp only [Function.update_self]
      omega
    · rw [Function.update_of_ne (hne x hx)]
      exact h2 x (by simp [hx])
  · intro p hp
    by_cases hpe : p = e.mr
    · exact ⟨_, List.mem_cons_self, hpe.symm⟩
    · rw [Function.update_of_ne hpe] at hp
      obtain ⟨x, hx, hxp⟩ := h3 p hp
      rcases List.mem_cons.mp hx with rfl | hx
      · exact absurd hxp.symm hpe
      · exact ⟨x, by simp [hx], hxp⟩
  · intro x hx
    rcases List.mem_cons.mp hx with rfl | hx
    · exact h4 e (by simp)
    · exact h4 x (by simp [hx])
  · intro x hx
    rcases List.mem_cons.mp hx with rfl | hx
    · exact h5 e (by simp)
    · exact h5 x (by simp [hx])
  · intro m hm
    have := h6 m hm
    by_cases hme : m.ptr = e.mr
    · rw [hme, Function.update_self]; omega
    · rw [Function.update_of_ne hme]; exact this

/-- The last handle on the first entry goes, and the MR goes with it. -/
theorem Owned.drop (h : Owned pageSize (e :: es) registered H) (hlast : H e.mr = 1) :
    Owned pageSize es (registered.filter (fun m => m.ptr ≠ e.mr))
      (Function.update H e.mr (H e.mr - 1)) := by
  have hne := h.mr_ne
  obtain ⟨h1, h2, h3, h4, h5, h6, h7⟩ := h
  simp only [List.map_cons, List.nodup_cons] at h1
  refine ⟨h1.2, ?_, ?_, ?_, ?_, ?_, ?_⟩
  · intro x hx
    rw [Function.update_of_ne (hne x hx)]
    exact h2 x (by simp [hx])
  · intro p hp
    have hpe : p ≠ e.mr := by
      rintro rfl
      rw [Function.update_self] at hp
      omega
    rw [Function.update_of_ne hpe] at hp
    obtain ⟨x, hx, hxp⟩ := h3 p hp
    rcases List.mem_cons.mp hx with rfl | hx
    · exact absurd hxp.symm hpe
    · exact ⟨x, hx, hxp⟩
  · intro x hx
    exact h4 x (by simp [hx])
  · intro x hx
    obtain ⟨m, hm, hptr, hrest⟩ := h5 x (by simp [hx])
    refine ⟨m, List.mem_filter.mpr ⟨hm, ?_⟩, hptr, hrest⟩
    simpa [hptr] using hne x hx
  · intro m hm
    obtain ⟨hm, hme⟩ := List.mem_filter.mp hm
    have hme : m.ptr ≠ e.mr := by simpa using hme
    rw [Function.update_of_ne hme]
    exact h6 m hm
  · exact h7.sublist (List.filter_sublist.map _)

/-! ## The calls on one device -/

/-- The device keeps the invariant, where `H p` handles are out on `p`. -/
def DevOwned (pageSize : Nat) (d : MrDev) (H : Nat → Nat) : Prop :=
  Owned pageSize d.mrCache.slots d.registered H

theorem findSlot_miss_le {addr pages : Nat} (slots : List NcclIbMr) (i slot : Nat)
    (h : findSlot pageSize addr pages slots i = .miss slot) : slot ≤ i + slots.length := by
  induction slots generalizing i with
  | nil => simp only [findSlot, Found.miss.injEq] at h; simp [h]
  | cons e es ih =>
    unfold findSlot at h
    split at h
    · simp only [Found.miss.injEq] at h; simp [← h]
    · split at h
      · simp at h
      · have := ih (i + 1) h
        simp only [List.length_cons]
        omega

theorem findSlot_hit {addr pages : Nat} (slots : List NcclIbMr) (i slot : Nat)
    (h : findSlot pageSize addr pages slots i = .hit slot) :
    ∃ j e, slot = i + j ∧ slots[j]? = some e ∧ e.addr ≤ addr ∧
      (addr - e.addr) / pageSize + pages ≤ e.pages := by
  induction slots generalizing i with
  | nil => simp [findSlot] at h
  | cons e es ih =>
    unfold findSlot at h
    split at h
    · simp at h
    · split at h
      · simp only [Found.hit.injEq] at h
        exact ⟨0, e, by omega, by simp, by omega, ‹_›⟩
      · obtain ⟨j, x, hj, hx, hrest⟩ := ih (i + 1) h
        exact ⟨j + 1, x, by omega, by simpa using hx, hrest⟩

theorem pageAddr_dvd (pageSize data : Nat) : pageSize ∣ pageAddr pageSize data :=
  Nat.dvd_sub_mod data

/-- Pages that start at `addr` hold every page of a buffer whose first page is
`addr`, when there are as many as the code counts. -/
theorem covers_of_pages {m : ProviderMr} {data size : Nat} (hp : 0 < pageSize)
    (h1 : m.addr ≤ pageAddr pageSize data)
    (h2 : pageAddr pageSize data + pageCount pageSize data size * pageSize ≤ m.addr + m.length) :
    Covers pageSize m data size := by
  intro a ha1 ha2
  have hle : pageAddr pageSize data ≤ data := Nat.sub_le _ _
  have hmono : pageAddr pageSize data ≤ pageAddr pageSize a := by
    unfold pageAddr
    rw [← Nat.div_mul_self_eq_mod_sub_self, ← Nat.div_mul_self_eq_mod_sub_self]
    exact Nat.mul_le_mul_right _ (Nat.div_le_div_right ha1)
  refine ⟨Nat.le_trans h1 hmono, ?_⟩
  obtain ⟨x, hx⟩ := pageAddr_dvd pageSize data
  obtain ⟨y, hy⟩ := pageAddr_dvd pageSize a
  have hya : pageSize * y ≤ a := hy ▸ Nat.sub_le _ _
  have hxy : x ≤ y := by
    rw [hx, hy] at hmono
    exact Nat.le_of_mul_le_mul_left hmono hp
  -- the page of `a` is one of the counted pages
  have hcount : y - x + 1 ≤ pageCount pageSize data size := by
    unfold pageCount
    rw [hx, Nat.le_div_iff_mul_le hp]
    have hsub : (y - x) * pageSize = pageSize * y - pageSize * x := by
      rw [Nat.sub_mul, Nat.mul_comm y, Nat.mul_comm x]
    have : pageSize * x ≤ pageSize * y := Nat.mul_le_mul_left _ hxy
    rw [Nat.add_mul, hsub, Nat.one_mul]
    omega
  have hmul := Nat.mul_le_mul_right pageSize hcount
  have hexp : (y - x + 1) * pageSize = pageSize * y - pageSize * x + pageSize := by
    rw [Nat.add_mul, Nat.sub_mul, Nat.mul_comm y, Nat.mul_comm x, Nat.one_mul]
  have : pageSize * x ≤ pageSize * y := Nat.mul_le_mul_left _ hxy
  rw [hy]
  rw [hx] at h2
  omega

/-- What one registration on one device does when `malloc` and the provider
answer, and the new pointer is not in use. -/
theorem ncclIbRegMrDmaBufInternal2_spec (hp : 0 < pageSize) (d : MrDev) (a : RegArgs) (env : RegEnv)
    (p : Nat) (H : Nat → Nat) (hd : DevOwned pageSize d H) (hmalloc : env.malloc = true)
    (hreg : env.regMr = some p) (hfresh : ∀ m ∈ d.registered, m.ptr ≠ p) :
    ∃ d' mr m, ncclIbRegMrDmaBufInternal2 pageSize d a env = (ncclSuccess, d', some mr) ∧
      DevOwned pageSize d' (Function.update H mr (H mr + 1)) ∧
      m ∈ d'.registered ∧ m.ptr = mr ∧ Covers pageSize m a.data a.size ∧
      (∀ m ∈ d.registered, m ∈ d'.registered) ∧
      (∀ m ∈ d'.registered, m ∈ d.registered ∨ m.ptr = p) ∧ d'.deregs = d.deregs := by
  unfold ncclIbRegMrDmaBufInternal2
  cases hf : findSlot pageSize (pageAddr pageSize a.data) (pageCount pageSize a.data a.size)
      d.mrCache.slots 0 with
  | hit slot =>
    obtain ⟨j, e, hj, he, hle, hpages⟩ := findSlot_hit _ _ _ hf
    have hj : slot = j := by omega
    subst hj
    have hlt : slot < d.mrCache.slots.length := (List.getElem?_eq_some_iff.mp he).1
    have hget : d.mrCache.slots[slot] = e := (List.getElem?_eq_some_iff.mp he).2
    have hmem : e ∈ d.mrCache.slots := hget ▸ List.getElem_mem hlt
    have hfirst : Owned pageSize (e :: d.mrCache.slots.eraseIdx slot) d.registered H := by
      refine hd.perm ?_
      have := List.getElem_cons_eraseIdx_perm hlt
      rw [hget] at this
      exact this.symm
    obtain ⟨m, hm, hptr, haddr, hlen⟩ := hd.backed e hmem
    simp only [he]
    refine ⟨_, e.mr, m, rfl, ?_, hm, hptr, ?_, fun _ h => h, fun _ h => Or.inl h, rfl⟩
    · exact hfirst.bump.perm (List.set_perm_cons_eraseIdx hlt _).symm
    · apply covers_of_pages hp
      · rw [haddr]; exact hle
      · -- the entry starts on a page, so the division is exact
        obtain ⟨x, hx⟩ := hd.aligned e hmem
        obtain ⟨y, hy⟩ := pageAddr_dvd pageSize a.data
        have hxy : x ≤ y := by
          rw [hx, hy] at hle
          exact Nat.le_of_mul_le_mul_left hle hp
        have hdiv : (pageAddr pageSize a.data - e.addr) / pageSize = y - x := by
          rw [hx, hy, ← Nat.mul_sub, Nat.mul_div_cancel_left _ hp]
        rw [hdiv] at hpages
        have hmul := Nat.mul_le_mul_right pageSize hpages
        rw [Nat.add_mul, Nat.sub_mul, Nat.mul_comm y, Nat.mul_comm x] at hmul
        have : pageSize * x ≤ pageSize * y := Nat.mul_le_mul_left _ hxy
        rw [haddr, hlen, hx, hy]
        omega
  | miss slot =>
    have hslot := findSlot_miss_le _ _ _ hf
    have hgrow : (growCache d.mrCache env.malloc).1 = ncclSuccess := by
      unfold growCache
      rw [hmalloc]
      split <;> rfl
    have hslots := growCache_slots d.mrCache env.malloc
    simp only [registerNew, hgrow, hreg]
    refine ⟨_, p, _, rfl, ?_, List.mem_append_right _ (List.mem_singleton.mpr rfl), rfl, ?_, ?_, ?_,
      rfl⟩
    · have hins := hd.insert (e := ⟨pageAddr pageSize a.data, pageCount pageSize a.data a.size, 1, p⟩)
        (m := ⟨p, pageAddr pageSize a.data, pageCount pageSize a.data a.size * pageSize,
          regVia d.dataDirect (a.relaxedOrderingEnabled && (a.mrFlags &&& NCCL_NET_MR_FLAG_FORCE_SO == 0)) a,
          a.relaxedOrderingEnabled && (a.mrFlags &&& NCCL_NET_MR_FLAG_FORCE_SO == 0)⟩)
        hfresh (pageAddr_dvd _ _) ⟨rfl, rfl, rfl⟩ rfl
      refine hins.perm (List.Perm.symm ?_)
      show ((growCache d.mrCache env.malloc).2.slots.insertIdx slot _).Perm _
      rw [hslots]
      exact List.perm_insertIdx _ _ (by simpa using hslot)
    · exact covers_of_pages hp (Nat.le_refl _) (Nat.le_refl _)
    · intro m hm
      exact List.mem_append_left _ hm
    · intro m hm
      rcases List.mem_append.mp hm with hm | hm
      · exact Or.inl hm
      · simp only [List.mem_singleton] at hm
        exact Or.inr (by rw [hm])

/-- The last entry over entry `i` leaves the entries without entry `i`. -/
theorem moveLast_perm (slots : List NcclIbMr) (i : Nat) (hi : i < slots.length) :
    (moveLast slots i).Perm (slots.eraseIdx i) := by
  rcases List.eq_nil_or_concat slots with rfl | ⟨init, last, rfl⟩
  · simp at hi
  · simp only [List.concat_eq_append] at hi ⊢
    unfold moveLast
    simp only [List.getLast?_append, List.getLast?_singleton, Option.some_or]
    by_cases hlast : i < init.length
    · rw [List.set_append_left _ _ hlast, List.dropLast_concat, List.eraseIdx_append_of_lt_length hlast]
      exact (List.set_perm_cons_eraseIdx hlast last).trans (List.perm_append_singleton _ _).symm
    · have hi' : i = init.length := by simp at hi; omega
      subst hi'
      rw [List.set_append_right _ _ (Nat.le_refl _), List.eraseIdx_append_of_length_le (Nat.le_refl _)]
      simp

/-- What one release on one device does when the provider answers, for an MR
with a handle. -/
theorem ncclIbDeregMrInternal_spec (d : MrDev) (mr : Nat) (H : Nat → Nat)
    (hd : DevOwned pageSize d H) (hmr : 0 < H mr) :
    ∃ d', ncclIbDeregMrInternal d mr true = (ncclSuccess, d') ∧
      DevOwned pageSize d' (Function.update H mr (H mr - 1)) ∧
      (∀ m ∈ d.registered, m.ptr ≠ mr ∨ 1 < H mr → m ∈ d'.registered) ∧
      d'.deregs = d.deregs ++ (if H mr = 1 then [mr] else []) := by
  obtain ⟨e₀, he₀, hmr₀⟩ := hd.entry mr hmr
  unfold ncclIbDeregMrInternal
  cases hf : d.mrCache.slots.findIdx? (fun e => e.mr == mr) with
  | none =>
    have := List.findIdx?_eq_none_iff.mp hf e₀ he₀
    simp [hmr₀] at this
  | some i =>
    obtain ⟨hlt, hi, _⟩ := List.findIdx?_eq_some_iff_getElem.mp hf
    simp only [List.getElem?_eq_getElem hlt]
    generalize hget : d.mrCache.slots[i] = e at hi ⊢
    have hemr : e.mr = mr := by simpa using hi
    subst hemr
    have hfirst : Owned pageSize (e :: d.mrCache.slots.eraseIdx i) d.registered H := by
      refine hd.perm ?_
      have := List.getElem_cons_eraseIdx_perm hlt
      rw [hget] at this
      exact this.symm
    have hrefs := (hfirst.refs e (by simp)).1
    by_cases hone : H e.mr = 1
    · have hzero : e.refs - 1 = 0 := by omega
      simp only [hzero, if_true, dropEntry, hone]
      refine ⟨_, rfl, ?_, ?_, rfl⟩
      · have hdrop := hfirst.drop hone
        rw [hone] at hdrop
        refine hdrop.perm ?_
        show List.Perm _ (moveLast (d.mrCache.slots.set i _) i)
        refine List.Perm.trans ?_ (moveLast_perm _ i (by simpa using hlt)).symm
        rw [List.eraseIdx_set_eq]
      · rintro m hm (hne | hmore)
        · exact List.mem_filter.mpr ⟨hm, by simpa using hne⟩
        · omega
    · have hzero : e.refs - 1 ≠ 0 := by omega
      simp only [hzero, if_false, hone, List.append_nil]
      refine ⟨_, rfl, ?_, fun _ hm _ => hm, rfl⟩
      exact (hfirst.lower (by omega)).perm (List.set_perm_cons_eraseIdx hlt _).symm

/-! ## The calls on all devices of a comm -/

/-- The number of references that the list holds on the MR `p` of device `n`. -/
def held (mrs : List (Nat × Nat)) (n p : Nat) : Nat := mrs.count (n, p)

/-- Every device keeps the invariant, where `mrs` are all references held. -/
def AllOwned (pageSize : Nat) (devs : Nat → MrDev) (mrs : List (Nat × Nat)) : Prop :=
  ∀ n, DevOwned pageSize (devs n) (held mrs n)

theorem held_cons (mrs : List (Nat × Nat)) (n p : Nat) :
    held ((n, p) :: mrs) n = Function.update (held mrs n) p (held mrs n p + 1) := by
  funext q
  unfold held
  rw [List.count_cons]
  by_cases hq : q = p
  · subst hq; simp
  · rw [Function.update_of_ne hq]
    simp [Ne.symm hq]

theorem held_cons_ne (mrs : List (Nat × Nat)) {n n' p : Nat} (h : n' ≠ n) :
    held ((n, p) :: mrs) n' = held mrs n' := by
  funext q
  unfold held
  rw [List.count_cons]
  simp [Ne.symm h]

theorem held_perm {mrs mrs' : List (Nat × Nat)} (h : mrs.Perm mrs') (n : Nat) :
    held mrs n = held mrs' n := by
  funext p
  exact h.count_eq _

theorem AllOwned.perm {devs : Nat → MrDev} {mrs mrs' : List (Nat × Nat)}
    (h : AllOwned pageSize devs mrs) (hp : mrs.Perm mrs') : AllOwned pageSize devs mrs' :=
  fun n => held_perm hp n ▸ h n

/-- One device changes, and with it the references on one of its MRs. -/
theorem AllOwned.update {devs : Nat → MrDev} {mrs : List (Nat × Nat)} {n p : Nat} {d : MrDev}
    (h : AllOwned pageSize devs mrs)
    (hd : DevOwned pageSize d (Function.update (held mrs n) p (held mrs n p + 1))) :
    AllOwned pageSize (Function.update devs n d) ((n, p) :: mrs) := by
  intro n'
  by_cases hn : n' = n
  · subst hn
    rw [Function.update_self, held_cons]
    exact hd
  · rw [Function.update_of_ne hn, held_cons_ne _ hn]
    exact h n'

/-- One reference less: what `AllOwned.update` adds goes. -/
theorem AllOwned.release {devs : Nat → MrDev} {mrs : List (Nat × Nat)} {n p : Nat} {d : MrDev}
    (h : AllOwned pageSize devs ((n, p) :: mrs))
    (hd : DevOwned pageSize d
      (Function.update (held ((n, p) :: mrs) n) p (held ((n, p) :: mrs) n p - 1))) :
    AllOwned pageSize (Function.update devs n d) mrs := by
  intro n'
  by_cases hn : n' = n
  · subst hn
    rw [Function.update_self]
    have hheld : Function.update (held ((n', p) :: mrs) n') p (held ((n', p) :: mrs) n' p - 1) =
        held mrs n' := by
      rw [held_cons]
      simp
    rw [← hheld]
    exact hd
  · rw [Function.update_of_ne hn, ← held_cons_ne (p := p) mrs hn]
    exact h n'

/-- The MRs of the list are registered, and each holds the buffer. -/
def AllCover (pageSize : Nat) (devs : Nat → MrDev) (mrs : List (Nat × Nat)) (data size : Nat) :
    Prop :=
  ∀ n p, (n, p) ∈ mrs → ∃ m ∈ (devs n).registered, m.ptr = p ∧ Covers pageSize m data size

/-- `malloc` answers, and each registration gets a pointer that no live MR
has, from call `i` on. -/
structure ProviderOk (devs : Nat → MrDev) (env : Nat → RegEnv) (i : Nat) : Prop where
  malloc : ∀ j ≥ i, (env j).malloc = true
  regMr : ∀ j ≥ i, ∃ p, (env j).regMr = some p ∧ ∀ n, ∀ m ∈ (devs n).registered, m.ptr ≠ p
  distinct : ∀ j ≥ i, ∀ k ≥ i, j ≠ k → (env j).regMr ≠ (env k).regMr

theorem ProviderOk.next {devs : Nat → MrDev} {env : Nat → RegEnv} {i n p : Nat} {d : MrDev}
    (h : ProviderOk devs env i) (hp : (env i).regMr = some p)
    (hd : ∀ m ∈ d.registered, m ∈ (devs n).registered ∨ m.ptr = p) :
    ProviderOk (Function.update devs n d) env (i + 1) := by
  refine ⟨fun j hj => h.malloc j (by omega), ?_, fun j hj k hk => h.distinct j (by omega) k (by omega)⟩
  intro j hj
  obtain ⟨q, hq, hfresh⟩ := h.regMr j (by omega)
  refine ⟨q, hq, ?_⟩
  intro n' m hm
  by_cases hn : n' = n
  · subst hn
    rw [Function.update_self] at hm
    rcases hd m hm with hm | hm
    · exact hfresh n' m hm
    · intro hqp
      apply h.distinct i (Nat.le_refl i) j (by omega) (by omega)
      rw [hp, hq, ← hm, hqp]
  · rw [Function.update_of_ne hn] at hm
    exact hfresh n' m hm

/-- A registration over the devices of a comm succeeds and adds one reference
for each device. -/
theorem regDevs_spec (hp : 0 < pageSize) (a : RegArgs) (env : Nat → RegEnv) (comm : List Nat)
    (i : Nat) (devs : Nat → MrDev) (mrs others : List (Nat × Nat))
    (howned : AllOwned pageSize devs (mrs ++ others)) (hok : ProviderOk devs env i)
    (hcover : AllCover pageSize devs mrs a.data a.size) :
    ∃ devs' mrs', regDevs pageSize a env comm i devs mrs = (ncclSuccess, devs', some mrs') ∧
      AllOwned pageSize devs' (mrs' ++ others) ∧ AllCover pageSize devs' mrs' a.data a.size ∧
      mrs'.map Prod.fst = mrs.map Prod.fst ++ comm ∧
      (∀ n, ∀ m ∈ (devs n).registered, m ∈ (devs' n).registered) ∧
      ∀ n, (devs' n).deregs = (devs n).deregs := by
  induction comm generalizing i devs mrs with
  | nil => exact ⟨devs, mrs, rfl, howned, hcover, by simp, fun _ _ h => h, fun _ => rfl⟩
  | cons n ns ih =>
    obtain ⟨p, hreg, hfresh⟩ := hok.regMr i (Nat.le_refl i)
    obtain ⟨d, mr, m, heq, hd, hm, hptr, hcov, hkeep, honly, hder⟩ :=
      ncclIbRegMrDmaBufInternal2_spec hp (devs n) a (env i) p _ (howned n)
        (hok.malloc i (Nat.le_refl i)) hreg (hfresh n)
    have hkeep' : ∀ n', ∀ m ∈ (devs n').registered,
        m ∈ (Function.update devs n d n').registered := by
      intro n' m' hm'
      by_cases hn : n' = n
      · subst hn; rw [Function.update_self]; exact hkeep m' hm'
      · rw [Function.update_of_ne hn]; exact hm'
    have howned' : AllOwned pageSize (Function.update devs n d) (mrs ++ [(n, mr)] ++ others) := by
      refine (howned.update hd).perm ?_
      rw [List.append_assoc]
      exact List.perm_middle.symm
    have hcover' : AllCover pageSize (Function.update devs n d) (mrs ++ [(n, mr)]) a.data a.size := by
      intro n' p' hmem
      rcases List.mem_append.mp hmem with hmem | hmem
      · obtain ⟨m', hm', hrest⟩ := hcover n' p' hmem
        exact ⟨m', hkeep' n' m' hm', hrest⟩
      · simp only [List.mem_singleton, Prod.mk.injEq] at hmem
        obtain ⟨rfl, rfl⟩ := hmem
        exact ⟨m, by rw [Function.update_self]; exact hm, hptr, hcov⟩
    obtain ⟨devs', mrs', hres, h1, h2, h3, h4, h5⟩ :=
      ih (i + 1) _ _ howned' (hok.next hreg honly) hcover'
    refine ⟨devs', mrs', ?_, h1, h2, ?_, fun n' m' hm' => h4 n' m' (hkeep' n' m' hm'), ?_⟩
    · simp only [regDevs, heq, hres]
    · rw [h3]; simp
    · intro n'
      rw [h5]
      by_cases hn : n' = n
      · subst hn; rw [Function.update_self]; exact hder
      · rw [Function.update_of_ne hn]

/-- A release over the devices of a handle succeeds, takes the references of
the handle away, and gives an MR to `ibv_dereg_mr` once when the last reference
on it goes. -/
theorem deregDevs_spec (mrs others : List (Nat × Nat)) (i : Nat) (devs : Nat → MrDev)
    (howned : AllOwned pageSize devs (mrs ++ others)) :
    ∃ devs', deregDevs (fun _ => true) mrs i devs = (ncclSuccess, devs') ∧
      AllOwned pageSize devs' others ∧
      (∀ n, ∀ m ∈ (devs n).registered, 0 < held others n m.ptr → m ∈ (devs' n).registered) ∧
      ∀ n p, (devs' n).deregs.count p = (devs n).deregs.count p +
        if 0 < held mrs n p ∧ held others n p = 0 then 1 else 0 := by
  induction mrs generalizing i devs with
  | nil => exact ⟨devs, rfl, howned, fun _ _ h _ => h, by simp [held]⟩
  | cons np rest ih =>
    obtain ⟨n, mr⟩ := np
    rw [List.cons_append] at howned
    have hheld : held ((n, mr) :: (rest ++ others)) n mr = held (rest ++ others) n mr + 1 := by
      rw [held_cons, Function.update_self]
    obtain ⟨d, heq, hd, hkeep, hder⟩ :=
      ncclIbDeregMrInternal_spec (devs n) mr _ (howned n) (by omega)
    obtain ⟨devs', hres, h1, h2, h3⟩ := ih (i + 1) _ (howned.release hd)
    have hsplit : ∀ n' p, held (rest ++ others) n' p = held rest n' p + held others n' p :=
      fun n' p => List.count_append
    refine ⟨devs', by simp only [deregDevs, heq, hres], h1, ?_, ?_⟩
    · intro n' m hm hpos
      apply h2 n' m _ hpos
      by_cases hn : n' = n
      · subst hn
        rw [Function.update_self]
        apply hkeep m hm
        by_cases hmr : m.ptr = mr
        · right
          have := hsplit n' mr
          rw [hmr] at hpos
          omega
        · exact Or.inl hmr
      · rw [Function.update_of_ne hn]
        exact hm
    · intro n' p
      rw [h3 n' p]
      by_cases hn : n' = n
      · subst hn
        rw [Function.update_self, hder, List.count_append, Nat.add_assoc]
        congr 1
        by_cases hp : p = mr
        · subst hp
          have hrest : held ((n', p) :: rest) n' p = held rest n' p + 1 := by
            rw [held_cons, Function.update_self]
          have hone : held ((n', p) :: (rest ++ others)) n' p = 1 ↔
              held rest n' p = 0 ∧ held others n' p = 0 := by
            have := hsplit n' p
            omega
          by_cases ho : held others n' p = 0 <;> by_cases hr : held rest n' p = 0
          · simp [hone, hrest, ho, hr]
          · simp [hone, hrest, ho, hr, Nat.pos_of_ne_zero hr]
          · simp [hone, hrest, ho, hr]
          · simp [hone, hrest, ho, hr]
        · have hrest : held ((n', mr) :: rest) n' p = held rest n' p := by
            rw [held_cons, Function.update_of_ne hp]
          rw [hrest]
          have hnone : (if held ((n', mr) :: (rest ++ others)) n' mr = 1 then [mr] else []).count p = 0 := by
            split
            · simp [Ne.symm hp]
            · rfl
          omega
      · rw [Function.update_of_ne hn, held_cons_ne _ hn]

/-! ## Whole runs -/

/-- A handle that a registration gave out, with the buffer it was asked for. -/
structure Handle where
  data : Nat
  size : Nat
  mrs : List (Nat × Nat)
deriving DecidableEq, Repr

/-- The devices of the process, and the handles that are out. -/
structure World where
  devs : Nat → MrDev
  handles : List Handle

/-- All references that the handles hold. -/
def World.outstanding (w : World) : List (Nat × Nat) := w.handles.flatMap (·.mrs)

/-- A registration by a comm on the devices `comm`. -/
def World.regMr (pageSize : Nat) (w : World) (comm : List Nat) (a : RegArgs) (env : Nat → RegEnv) :
    NcclResult × World :=
  match ncclIbRegMrDmaBufInternal pageSize w.devs comm a env with
  | (res, devs, some mrs) => (res, ⟨devs, w.handles ++ [⟨a.data, a.size, mrs⟩]⟩)
  | (res, devs, none) => (res, { w with devs })

/-- The release of a handle. -/
def World.deregMr (w : World) (h : Handle) : NcclResult × World :=
  let r := ncclIbDeregMr (fun _ => true) (some h.mrs) w.devs
  (r.1, ⟨r.2, w.handles.erase h⟩)

/-- A call that the provider answers. A release takes a handle that is out. -/
inductive Step (pageSize : Nat) : World → World → Prop
  | regMr (w : World) (comm : List Nat) (a : RegArgs) (env : Nat → RegEnv) :
      ProviderOk w.devs env 0 → Step pageSize w (w.regMr pageSize comm a env).2
  | deregMr (w : World) (h : Handle) : h ∈ w.handles → Step pageSize w (w.deregMr h).2

def emptyDev (dataDirect : Bool) : MrDev := ⟨⟨[], 0, Nat.le_refl 0⟩, dataDirect, [], []⟩

/-- Runs that start with empty caches. -/
def system (pageSize : Nat) : System World where
  init w := w.handles = [] ∧ ∀ n, ∃ dataDirect, w.devs n = emptyDev dataDirect
  step := Step pageSize

structure Good (pageSize : Nat) (w : World) : Prop where
  owned : AllOwned pageSize w.devs w.outstanding
  cover : ∀ h ∈ w.handles, AllCover pageSize w.devs h.mrs h.data h.size

theorem good_init (w : World) (h : (system pageSize).init w) : Good pageSize w := by
  obtain ⟨hh, hd⟩ := h
  refine ⟨?_, by simp [hh]⟩
  intro n
  obtain ⟨dd, hn⟩ := hd n
  unfold DevOwned
  rw [hn]
  have hout : w.outstanding = [] := by simp [World.outstanding, hh]
  rw [hout]
  constructor <;> simp [emptyDev, held]

/-- A registration of at least one byte succeeds, with one MR for each device
of the comm, and keeps the invariant. -/
theorem good_reg (hp : 0 < pageSize) (w : World) (comm : List Nat) (a : RegArgs)
    (env : Nat → RegEnv) (hok : ProviderOk w.devs env 0) (h : Good pageSize w) :
    Good pageSize (w.regMr pageSize comm a env).2 ∧
      (0 < a.size → ∃ mrs, (w.regMr pageSize comm a env).1 = ncclSuccess ∧
        (w.regMr pageSize comm a env).2.handles = w.handles ++ [⟨a.data, a.size, mrs⟩] ∧
        mrs.map Prod.fst = comm ∧
        AllCover pageSize (w.regMr pageSize comm a env).2.devs mrs a.data a.size) ∧
      ∀ n, ((w.regMr pageSize comm a env).2.devs n).deregs = (w.devs n).deregs := by
  by_cases hsize : a.size = 0
  · have hw : w.regMr pageSize comm a env = (ncclInternalError, w) := by
      simp [World.regMr, ncclIbRegMrDmaBufInternal, hsize]
    rw [hw]
    exact ⟨h, fun h0 => absurd h0 (by omega), fun _ => rfl⟩
  · obtain ⟨devs', mrs', hres, h1, h2, h3, h4, h5⟩ := regDevs_spec hp a env comm 0 w.devs []
      w.outstanding h.owned hok (by simp [AllCover])
    have hw : w.regMr pageSize comm a env =
        (ncclSuccess, ⟨devs', w.handles ++ [⟨a.data, a.size, mrs'⟩]⟩) := by
      simp only [World.regMr, ncclIbRegMrDmaBufInternal, hsize, if_false, hres]
    rw [hw]
    refine ⟨⟨?_, ?_⟩, fun _ => ⟨mrs', rfl, rfl, by simpa using h3, h2⟩, h5⟩
    · refine h1.perm ?_
      simp only [World.outstanding, List.flatMap_append, List.flatMap_cons, List.flatMap_nil,
        List.append_nil]
      exact List.perm_append_comm
    · intro x hx
      rcases List.mem_append.mp hx with hx | hx
      · intro n p hnp
        obtain ⟨m, hm, hrest⟩ := h.cover x hx n p hnp
        exact ⟨m, h4 n m hm, hrest⟩
      · simp only [List.mem_singleton] at hx
        subst hx
        exact h2

theorem outstanding_erase (w : World) (x : Handle) (hx : x ∈ w.handles) :
    w.outstanding.Perm (x.mrs ++ (w.handles.erase x).flatMap (·.mrs)) := by
  have := (List.perm_cons_erase hx).flatMap_right (·.mrs)
  simpa [World.outstanding] using this

/-- The release of a handle succeeds and keeps the invariant. -/
theorem good_dereg (w : World) (x : Handle) (hx : x ∈ w.handles) (h : Good pageSize w) :
    Good pageSize (w.deregMr x).2 ∧ (w.deregMr x).1 = ncclSuccess ∧
      ∀ n p, ((w.deregMr x).2.devs n).deregs.count p = (w.devs n).deregs.count p +
        if 0 < held w.outstanding n p ∧ held (w.deregMr x).2.outstanding n p = 0 then 1 else 0 := by
  have hperm := outstanding_erase w x hx
  obtain ⟨devs', hres, h1, h2, h3⟩ := deregDevs_spec x.mrs _ 0 w.devs (h.owned.perm hperm)
  have hd : w.deregMr x = (ncclSuccess, ⟨devs', w.handles.erase x⟩) := by
    simp only [World.deregMr, ncclIbDeregMr, hres]
  rw [hd]
  refine ⟨⟨h1, ?_⟩, rfl, ?_⟩
  · intro y hy n p hnp
    obtain ⟨m, hm, hptr, hcov⟩ := h.cover y (List.mem_of_mem_erase hy) n p hnp
    refine ⟨m, h2 n m hm ?_, hptr, hcov⟩
    rw [hptr]
    exact List.count_pos_iff.mpr (List.mem_flatMap.mpr ⟨y, hy, hnp⟩)
  · intro n p
    rw [h3 n p, held_perm hperm n]
    have hsplit : held (x.mrs ++ (w.handles.erase x).flatMap (·.mrs)) n p =
        held x.mrs n p + held ((w.handles.erase x).flatMap (·.mrs)) n p := List.count_append
    simp only [World.outstanding]
    congr 1
    exact if_congr (by omega) rfl rfl

theorem good_reachable (hp : 0 < pageSize) {w : World} (h : Reachable (system pageSize) w) :
    Good pageSize w := by
  apply h.invariant good_init
  intro s t _ hs hstep
  cases hstep with
  | regMr comm a env hok => exact (good_reg hp s comm a env hok hs).1
  | deregMr x hx => exact (good_dereg s x hx hs).1

/-! ## The laws -/

/-- After any run, each entry counts the handles on its MR, each MR with a
handle has one entry, the provider keeps exactly the MRs with a handle, and the
MRs of a handle hold every page of its buffer for as long as the handle is out.
A registration succeeds and releases nothing. A release succeeds and gives an
MR to `ibv_dereg_mr` once, and only when the last handle on it goes. -/
theorem each_mr_lives_as_long_as_its_handles (hp : 0 < pageSize) {w : World}
    (h : Reachable (system pageSize) w) :
    (∀ n, ∀ e ∈ (w.devs n).mrCache.slots, e.refs = held w.outstanding n e.mr) ∧
    (∀ n p, 0 < held w.outstanding n p →
      ((w.devs n).mrCache.slots.map (·.mr)).count p = 1) ∧
    (∀ n p, ((w.devs n).registered.map (·.ptr)).count p =
      if 0 < held w.outstanding n p then 1 else 0) ∧
    (∀ x ∈ w.handles, AllCover pageSize w.devs x.mrs x.data x.size) ∧
    (∀ comm a env, ProviderOk w.devs env 0 →
      (0 < a.size → ∃ mrs, (w.regMr pageSize comm a env).1 = ncclSuccess ∧
        (w.regMr pageSize comm a env).2.handles = w.handles ++ [⟨a.data, a.size, mrs⟩] ∧
        mrs.map Prod.fst = comm ∧
        AllCover pageSize (w.regMr pageSize comm a env).2.devs mrs a.data a.size) ∧
      ∀ n, ((w.regMr pageSize comm a env).2.devs n).deregs = (w.devs n).deregs) ∧
    (∀ x ∈ w.handles, (w.deregMr x).1 = ncclSuccess ∧
      ∀ n p, ((w.deregMr x).2.devs n).deregs.count p = (w.devs n).deregs.count p +
        if 0 < held w.outstanding n p ∧ held (w.deregMr x).2.outstanding n p = 0 then 1 else 0) := by
  have hg := good_reachable hp h
  refine ⟨?_, ?_, ?_, hg.cover, ?_, ?_⟩
  · intro n e he
    exact ((hg.owned n).refs e he).1
  · intro n p hpos
    obtain ⟨e, he, hep⟩ := (hg.owned n).entry p hpos
    exact List.count_eq_one_of_mem (hg.owned n).nodup (List.mem_map.mpr ⟨e, he, hep⟩)
  · intro n p
    split
    · rename_i hpos
      obtain ⟨e, he, hep⟩ := (hg.owned n).entry p hpos
      obtain ⟨m, hm, hptr, _⟩ := (hg.owned n).backed e he
      exact List.count_eq_one_of_mem (hg.owned n).regNodup
        (List.mem_map.mpr ⟨m, hm, by rw [hptr, hep]⟩)
    · rename_i hnone
      apply List.count_eq_zero_of_not_mem
      intro hmem
      obtain ⟨m, hm, hptr⟩ := List.mem_map.mp hmem
      exact hnone (hptr ▸ (hg.owned n).only m hm)
  · intro comm a env hok
    exact (good_reg hp w comm a env hok hg).2
  · intro x hx
    exact (good_dereg w x hx hg).2

/-- Two comms register overlapping buffers: the second handle shares the MR of
the first, and one entry counts both. -/
theorem two_handles_share_one_mr :
    ∃ w, Reachable (system 4096) w ∧ held w.outstanding 0 7 = 2 ∧
      ((w.devs 0).mrCache.slots.map (·.mr)).count 7 = 1 := by
  let w₀ : World := ⟨fun _ => emptyDev false, []⟩
  let env (first : Nat) : Nat → RegEnv := fun j => ⟨true, some (first + j)⟩
  let w₁ := (w₀.regMr 4096 [0] ⟨8192, 10000, 0, -1, 0, true⟩ (env 7)).2
  let w₂ := (w₁.regMr 4096 [0] ⟨9000, 100, 0, -1, 0, true⟩ (env 100)).2
  have h₀ : Reachable (system 4096) w₀ := .init ⟨rfl, fun _ => ⟨false, rfl⟩⟩
  have h₁ : Reachable (system 4096) w₁ := h₀.step (.regMr _ _ _ _ ⟨fun _ _ => rfl,
    fun j _ => ⟨7 + j, rfl, by simp [w₀, emptyDev]⟩, by simp [env]⟩)
  have hdev : ∀ n, (w₁.devs n).registered = if n = 0 then [⟨7, 8192, 12288, .ibv_reg_mr_iova2, true⟩]
      else [] := by
    intro n
    by_cases hn : n = 0
    · subst hn; rfl
    · rw [if_neg hn]
      show ((Function.update w₀.devs 0 _) n).registered = []
      rw [Function.update_of_ne hn]
      rfl
  have h₂ : Reachable (system 4096) w₂ := h₁.step (.regMr _ _ _ _ ⟨fun _ _ => rfl,
    fun j _ => ⟨100 + j, rfl, by
      intro n m hm
      rw [hdev] at hm
      split at hm
      · simp only [List.mem_singleton] at hm
        subst hm
        show (7 : Nat) ≠ 100 + j
        omega
      · simp at hm⟩, by simp [env]⟩)
  have hheld : held w₂.outstanding 0 7 = 2 := by decide
  exact ⟨w₂, h₂, hheld,
    (each_mr_lives_as_long_as_its_handles (by decide) h₂).2.1 0 7 (by rw [hheld]; decide)⟩

end net_ib.reg
