-- A registration that fails (reg.cc). The devices of the comm register one after
-- another, and the call stops at the first one that refuses. What the devices
-- before it did stays, and a full cache has raised its capacity by then.
import MrcPlugin.MrOwnership
import Mathlib.Algebra.BigOperators.Group.List.Basic

namespace net_ib.reg

variable {pageSize : Nat}

/-! ## What a device refuses -/

/-- The device refuses the registration: the cache holds no entry to share, and
either `malloc` fails for the cache that has to grow, or the provider fails. -/
def Refused (pageSize : Nat) (d : MrDev) (a : RegArgs) (env : RegEnv) : Prop :=
  (∃ slot, findSlot pageSize (pageAddr pageSize a.data) (pageCount pageSize a.data a.size)
    d.mrCache.slots 0 = .miss slot) ∧
  ((d.mrCache.population = d.mrCache.capacity ∧ env.malloc = false) ∨ env.regMr = none)

/-- The number of slots that `ncclRealloc` leaves allocated for the cache. -/
def allocatedAfter (pageSize : Nat) (d : MrDev) (a : RegArgs) (env : RegEnv) (allocated : Nat) :
    Nat :=
  match findSlot pageSize (pageAddr pageSize a.data) (pageCount pageSize a.data a.size)
      d.mrCache.slots 0 with
  | .hit _ => allocated
  | .miss _ =>
    if d.mrCache.population = d.mrCache.capacity ∧ env.malloc then
      (growCache d.mrCache true).2.capacity
    else allocated

/-- The allocated slots along the loop of `regDevs`. -/
def allocDevs (pageSize : Nat) (a : RegArgs) (env : Nat → RegEnv) :
    List Nat → Nat → (Nat → MrDev) → (Nat → Nat) → (Nat → Nat)
  | [], _, _, allocated => allocated
  | n :: ns, i, devs, allocated =>
    let allocated' := Function.update allocated n
      (allocatedAfter pageSize (devs n) a (env i) (allocated n))
    match ncclIbRegMrDmaBufInternal2 pageSize (devs n) a (env i) with
    | (ncclSuccess, d, some _) =>
      allocDevs pageSize a env ns (i + 1) (Function.update devs n d) allocated'
    | _ => allocated'

/-- The allocated slots after `ncclIbRegMrDmaBufInternal`. -/
def allocatedSlots (pageSize : Nat) (devs : Nat → MrDev) (comm : List Nat) (a : RegArgs)
    (env : Nat → RegEnv) (allocated : Nat → Nat) : Nat → Nat :=
  if a.size = 0 then allocated else allocDevs pageSize a env comm 0 devs allocated

/-- A full cache always gets a larger capacity, also when `malloc` fails. -/
theorem growCache_capacity (c : NcclIbMrCache) (malloc : Bool) :
    (growCache c malloc).2.capacity = c.capacity ↔ c.population ≠ c.capacity := by
  unfold growCache
  split
  · rename_i hfull
    have hmore : c.grown.capacity ≠ c.capacity := by
      have := c.grown_free
      show c.grown.capacity ≠ c.capacity
      have hsame : c.grown.population = c.population := rfl
      omega
    cases malloc <;> simpa [hfull] using hmore
  · rename_i hfree
    simpa using hfree

theorem growCache_free {c : NcclIbMrCache} (h : c.population ≠ c.capacity) (malloc : Bool) :
    growCache c malloc = (ncclSuccess, c) := if_neg h

/-- How one device answers a registration. -/
inductive Answer (pageSize : Nat) (d : MrDev) (a : RegArgs) (env : RegEnv) :
    NcclResult × MrDev × Option Nat → Prop
  | share (slot : Nat) (e : NcclIbMr)
      (hfound : findSlot pageSize (pageAddr pageSize a.data) (pageCount pageSize a.data a.size)
        d.mrCache.slots 0 = .hit slot)
      (he : d.mrCache.slots[slot]? = some e) :
      Answer pageSize d a env (ncclSuccess,
        { d with mrCache := d.mrCache.setSlot slot { e with refs := e.refs + 1 } }, some e.mr)
  | insert (slot mr : Nat) (c : NcclIbMrCache) (m : ProviderMr)
      (hfound : findSlot pageSize (pageAddr pageSize a.data) (pageCount pageSize a.data a.size)
        d.mrCache.slots 0 = .miss slot)
      (hmr : env.regMr = some mr)
      (hroom : ¬ (d.mrCache.population = d.mrCache.capacity ∧ env.malloc = false))
      (hslots : c.slots = d.mrCache.slots.insertIdx slot
        ⟨pageAddr pageSize a.data, pageCount pageSize a.data a.size, 1, mr⟩) :
      Answer pageSize d a env (ncclSuccess, { d with
        mrCache := c
        registered := d.registered ++ [m] }, some mr)
  | refuse (hrefused : Refused pageSize d a env) :
      Answer pageSize d a env
        (ncclSystemError, { d with mrCache := (growCache d.mrCache env.malloc).2 }, none)

theorem internal2_answer (pageSize : Nat) (d : MrDev) (a : RegArgs) (env : RegEnv) :
    Answer pageSize d a env (ncclIbRegMrDmaBufInternal2 pageSize d a env) := by
  unfold ncclIbRegMrDmaBufInternal2
  cases hf : findSlot pageSize (pageAddr pageSize a.data) (pageCount pageSize a.data a.size)
      d.mrCache.slots 0 with
  | hit slot =>
    obtain ⟨j, e, hj, he, -⟩ := findSlot_hit _ _ _ hf
    obtain rfl : slot = j := by omega
    simp only [he]
    exact .share slot e hf he
  | miss slot =>
    by_cases hroom : d.mrCache.population = d.mrCache.capacity ∧ env.malloc = false
    · have hgrow : (growCache d.mrCache env.malloc).1 = ncclSystemError := by
        unfold growCache
        rw [if_pos hroom.1, hroom.2]
        rfl
      simp only [registerNew, hgrow]
      exact .refuse ⟨⟨slot, hf⟩, Or.inl hroom⟩
    · have hgrow : (growCache d.mrCache env.malloc).1 = ncclSuccess := by
        unfold growCache
        split
        · rename_i hfull
          have : env.malloc = true := by simpa [hfull] using hroom
          rw [this]
          rfl
        · rfl
      simp only [registerNew, hgrow]
      cases hmr : env.regMr with
      | none => exact .refuse ⟨⟨slot, hf⟩, Or.inr hmr⟩
      | some mr =>
        refine .insert slot mr _ _ hf hmr hroom ?_
        show (growCache d.mrCache env.malloc).2.slots.insertIdx slot _ = _
        rw [growCache_slots]

theorem refused_iff (pageSize : Nat) (d : MrDev) (a : RegArgs) (env : RegEnv) :
    (ncclIbRegMrDmaBufInternal2 pageSize d a env).1 ≠ ncclSuccess ↔ Refused pageSize d a env := by
  have h := internal2_answer pageSize d a env
  generalize ncclIbRegMrDmaBufInternal2 pageSize d a env = out at h
  cases h with
  | share slot e hfound he =>
    refine ⟨fun h => absurd rfl h, fun h => ?_⟩
    obtain ⟨⟨slot', hmiss⟩, -⟩ := h
    rw [hfound] at hmiss
    cases hmiss
  | insert slot mr c m hfound hmr hroom hslots =>
    refine ⟨fun h => absurd rfl h, fun h => ?_⟩
    rcases h.2 with hfull | hnone
    · exact absurd hfull hroom
    · rw [hmr] at hnone
      cases hnone
  | refuse hrefused => exact ⟨fun _ => hrefused, fun _ h => by cases h⟩

/-! ## A device that has registered the range shares it -/

/-- The cache holds an entry that the range can share. -/
def Shares (pageSize : Nat) (d : MrDev) (a : RegArgs) : Prop :=
  ∃ slot, findSlot pageSize (pageAddr pageSize a.data) (pageCount pageSize a.data a.size)
    d.mrCache.slots 0 = .hit slot

theorem Shares.not_refused {d : MrDev} {a : RegArgs} (h : Shares pageSize d a) (env : RegEnv) :
    ¬ Refused pageSize d a env := by
  rintro ⟨⟨slot', hmiss⟩, -⟩
  obtain ⟨slot, hhit⟩ := h
  rw [hhit] at hmiss
  cases hmiss

/-- The new entry is the one that the search finds next time. -/
theorem findSlot_insertIdx {addr pages : Nat} (e : NcclIbMr) (haddr : e.addr = addr)
    (hpages : e.pages = pages) : ∀ (slots : List NcclIbMr) (i j : Nat),
      findSlot pageSize addr pages slots i = .miss (i + j) →
      findSlot pageSize addr pages (slots.insertIdx j e) i = .hit (i + j) := by
  have hhead : ∀ (es : List NcclIbMr) (i : Nat),
      findSlot pageSize addr pages (e :: es) i = .hit i := by
    intro es i
    unfold findSlot
    rw [if_neg (by omega), if_pos (by rw [haddr, hpages, Nat.sub_self, Nat.zero_div]; omega)]
  intro slots
  induction slots with
  | nil =>
    intro i j h
    obtain rfl : j = 0 := by
      simp only [findSlot, Found.miss.injEq] at h
      omega
    exact hhead [] i
  | cons x xs ih =>
    intro i j h
    cases j with
    | zero => exact hhead (x :: xs) i
    | succ j =>
      have hxs := ih (i + 1) j
      unfold findSlot at h
      split at h
      · simp only [Found.miss.injEq] at h
        omega
      · rename_i hlt
        split at h
        · cases h
        · rename_i hno
          rw [List.insertIdx_succ_cons]
          unfold findSlot
          rw [if_neg hlt, if_neg hno, show i + (j + 1) = i + 1 + j by omega]
          exact hxs (by rw [h]; congr 1; omega)

/-- A reference more on an entry does not change what the search finds. -/
theorem findSlot_set {addr pages : Nat} (e e' : NcclIbMr) (haddr : e'.addr = e.addr)
    (hpages : e'.pages = e.pages) : ∀ (slots : List NcclIbMr) (i j : Nat), slots[j]? = some e →
      findSlot pageSize addr pages (slots.set j e') i = findSlot pageSize addr pages slots i := by
  intro slots
  induction slots with
  | nil => intro i j h; cases j <;> rfl
  | cons x xs ih =>
    intro i j h
    cases j with
    | zero =>
      obtain rfl : x = e := by simpa using h
      show findSlot pageSize addr pages (e' :: xs) i = _
      unfold findSlot
      rw [haddr, hpages]
    | succ j =>
      show findSlot pageSize addr pages (x :: xs.set j e') i = _
      unfold findSlot
      rw [ih (i + 1) j (by simpa using h)]

/-- What a device is after it took part. -/
theorem internal2_shares {d d' : MrDev} {a : RegArgs} {env : RegEnv} {mr : Option Nat}
    (h : ncclIbRegMrDmaBufInternal2 pageSize d a env = (ncclSuccess, d', mr)) :
    Shares pageSize d' a := by
  have ha := internal2_answer pageSize d a env
  rw [h] at ha
  cases ha with
  | share slot e hfound he =>
    have hsame : ∀ addr pages, findSlot pageSize addr pages
        (d.mrCache.slots.set slot { e with refs := e.refs + 1 }) 0 =
        findSlot pageSize addr pages d.mrCache.slots 0 :=
      fun addr pages => findSlot_set e { e with refs := e.refs + 1 } rfl rfl d.mrCache.slots 0 slot he
    exact ⟨slot, (hsame _ _).trans hfound⟩
  | insert slot p c m hfound hmr hroom hslots =>
    refine ⟨slot, ?_⟩
    have := findSlot_insertIdx ⟨pageAddr pageSize a.data, pageCount pageSize a.data a.size, 1, p⟩
      rfl rfl d.mrCache.slots 0 slot (by rw [Nat.zero_add]; exact hfound)
    rw [Nat.zero_add, ← hslots] at this
    exact this

/-! ## The references only go up -/

/-- All references on the entries of a cache. -/
def refsSum (d : MrDev) : Int := (d.mrCache.slots.map (·.refs)).sum

theorem refsSum_set {slots : List NcclIbMr} {j : Nat} {e : NcclIbMr} (h : slots[j]? = some e) :
    ((slots.set j { e with refs := e.refs + 1 }).map (·.refs)).sum =
      (slots.map (·.refs)).sum + 1 := by
  induction slots generalizing j with
  | nil => cases h
  | cons x xs ih =>
    cases j with
    | zero =>
      obtain rfl : x = e := by simpa using h
      simp only [List.set_cons_zero, List.map_cons, List.sum_cons]
      omega
    | succ j =>
      have := ih (j := j) (by simpa using h)
      simp only [List.set_cons_succ, List.map_cons, List.sum_cons, this]
      omega

theorem refsSum_insertIdx (slots : List NcclIbMr) (j : Nat) (e : NcclIbMr)
    (h : j ≤ slots.length) :
    ((slots.insertIdx j e).map (·.refs)).sum = e.refs + (slots.map (·.refs)).sum := by
  have := ((List.perm_insertIdx e slots h).map (·.refs)).sum_eq
  simpa using this

/-- A registration on a device adds one reference, or it fails and adds none. -/
theorem internal2_refs (pageSize : Nat) (d : MrDev) (a : RegArgs) (env : RegEnv) :
    refsSum (ncclIbRegMrDmaBufInternal2 pageSize d a env).2.1 =
      refsSum d + if (ncclIbRegMrDmaBufInternal2 pageSize d a env).1 = ncclSuccess then 1 else 0 := by
  have h := internal2_answer pageSize d a env
  generalize ncclIbRegMrDmaBufInternal2 pageSize d a env = out at h
  cases h with
  | share slot e hfound he => exact refsSum_set he
  | insert slot mr c m hfound hmr hroom hslots =>
    have hle := findSlot_miss_le _ _ _ hfound
    have := refsSum_insertIdx d.mrCache.slots slot
      ⟨pageAddr pageSize a.data, pageCount pageSize a.data a.size, 1, mr⟩ (by omega)
    show (c.slots.map (·.refs)).sum = _
    rw [hslots, this]
    show 1 + refsSum d = refsSum d + 1
    omega
  | refuse hrefused =>
    show (((growCache d.mrCache env.malloc).2.slots).map (·.refs)).sum = _
    rw [growCache_slots]
    simp [refsSum]

/-! ## The loop over the devices -/


/-- One turn of the loop: the device answers, and the loop goes on or stops. -/
theorem regDevs_cons (pageSize : Nat) (a : RegArgs) (env : Nat → RegEnv) (n : Nat) (ns : List Nat)
    (i : Nat) (devs : Nat → MrDev) (mrs : List (Nat × Nat)) :
    (Refused pageSize (devs n) a (env i) ∧ regDevs pageSize a env (n :: ns) i devs mrs =
      (ncclSystemError, Function.update devs n
        { devs n with mrCache := (growCache (devs n).mrCache (env i).malloc).2 }, none)) ∨
    (¬ Refused pageSize (devs n) a (env i) ∧ ∃ d mr,
      ncclIbRegMrDmaBufInternal2 pageSize (devs n) a (env i) = (ncclSuccess, d, some mr) ∧
      regDevs pageSize a env (n :: ns) i devs mrs =
        regDevs pageSize a env ns (i + 1) (Function.update devs n d) (mrs ++ [(n, mr)])) := by
  have h := internal2_answer pageSize (devs n) a (env i)
  have hiff := refused_iff pageSize (devs n) a (env i)
  rw [regDevs]
  generalize ncclIbRegMrDmaBufInternal2 pageSize (devs n) a (env i) = out at h hiff
  cases h with
  | share slot e hfound he => exact Or.inr ⟨fun hr => hiff.mpr hr rfl, _, _, rfl, rfl⟩
  | insert slot mr c m hfound hmr hroom hslots =>
    exact Or.inr ⟨fun hr => hiff.mpr hr rfl, _, _, rfl, rfl⟩
  | refuse hrefused => exact Or.inl ⟨hrefused, rfl⟩

theorem regDevs_refs (pageSize : Nat) (a : RegArgs) (env : Nat → RegEnv) (n : Nat) (comm : List Nat) :
    ∀ (i : Nat) (devs : Nat → MrDev) (mrs : List (Nat × Nat)),
      refsSum (devs n) ≤ refsSum ((regDevs pageSize a env comm i devs mrs).2.1 n) := by
  have hupdate : ∀ (devs : Nat → MrDev) (m : Nat) (d : MrDev), refsSum (devs m) ≤ refsSum d →
      refsSum (devs n) ≤ refsSum (Function.update devs m d n) := by
    intro devs m d h
    by_cases hnm : n = m
    · subst hnm
      rwa [Function.update_self]
    · exact Int.le_of_eq (congrArg refsSum (Function.update_of_ne hnm _ _).symm)
  induction comm with
  | nil => intro i devs mrs; exact Int.le_refl _
  | cons m ms ih =>
    intro i devs mrs
    rcases regDevs_cons pageSize a env m ms i devs mrs with
      ⟨-, h⟩ | ⟨-, d, mr, hd, h⟩
    · rw [h]
      refine hupdate _ _ _ (Int.le_of_eq ?_)
      show _ = ((growCache (devs m).mrCache (env i).malloc).2.slots.map (·.refs)).sum
      rw [growCache_slots]
      rfl
    · rw [h]
      have hone := internal2_refs pageSize (devs m) a (env i)
      rw [hd, if_pos rfl] at hone
      have hone : refsSum d = refsSum (devs m) + 1 := hone
      exact Int.le_trans (hupdate devs m d (by omega)) (ih _ _ _)

variable {a : RegArgs} {env : Nat → RegEnv}

/-- Device `n` is entry `i` of the comm, and no entry before it. -/
def FirstAt (comm : List Nat) (i n : Nat) : Prop := comm[i]? = some n ∧ n ∉ comm.take i

theorem FirstAt.cons {comm : List Nat} {m i n : Nat} (h : FirstAt comm i n) (hne : n ≠ m) :
    FirstAt (m :: comm) (i + 1) n := by
  refine ⟨by simpa using h.1, ?_⟩
  rw [List.take_succ_cons, List.mem_cons, not_or]
  exact ⟨hne, h.2⟩

theorem FirstAt.tail {comm : List Nat} {m i n : Nat} (h : FirstAt (m :: comm) (i + 1) n) :
    n ≠ m ∧ FirstAt comm i n := by
  obtain ⟨hget, hnot⟩ := h
  rw [List.take_succ_cons, List.mem_cons, not_or] at hnot
  exact ⟨hnot.1, by simpa using hget, hnot.2⟩

/-- The loop succeeds when no device refuses. A device that stands in the comm
twice shares its own entry the second time. -/
theorem regDevs_ok (comm : List Nat) : ∀ (i : Nat) (devs : Nat → MrDev) (mrs : List (Nat × Nat)),
    (∀ j n, FirstAt comm j n → Shares pageSize (devs n) a ∨
      ¬ Refused pageSize (devs n) a (env (i + j))) →
      (regDevs pageSize a env comm i devs mrs).1 = ncclSuccess := by
  induction comm with
  | nil => intro i devs mrs _; rfl
  | cons m ms ih =>
    intro i devs mrs hno
    have hfirst : ¬ Refused pageSize (devs m) a (env i) :=
      (hno 0 m ⟨rfl, List.not_mem_nil⟩).elim (fun h => h.not_refused _) id
    rcases regDevs_cons pageSize a env m ms i devs mrs with
      ⟨hr, -⟩ | ⟨-, d, mr, hd, h⟩
    · exact absurd hr hfirst
    · rw [h]
      refine ih _ _ _ (fun j n hj => ?_)
      by_cases hnm : n = m
      · subst hnm
        rw [Function.update_self]
        exact Or.inl (internal2_shares hd)
      · rw [Function.update_of_ne hnm, show i + 1 + j = i + (j + 1) by omega]
        exact hno (j + 1) n (hj.cons hnm)

/-- The loop fails when a device refuses. -/
theorem regDevs_fails (comm : List Nat) : ∀ (i : Nat) (devs : Nat → MrDev) (mrs : List (Nat × Nat))
    (j n : Nat), FirstAt comm j n → Refused pageSize (devs n) a (env (i + j)) →
      (regDevs pageSize a env comm i devs mrs).1 ≠ ncclSuccess := by
  induction comm with
  | nil => intro i devs mrs j n h; cases h.1
  | cons m ms ih =>
    intro i devs mrs j n h hr
    rcases regDevs_cons pageSize a env m ms i devs mrs with
      ⟨-, hout⟩ | ⟨hno, d, mr, hd, hout⟩
    · rw [hout]
      exact fun hc => by cases hc
    · cases j with
      | zero =>
        obtain rfl : m = n := by simpa using h.1
        exact absurd hr hno
      | succ j =>
        obtain ⟨hnm, htail⟩ := h.tail
        rw [hout]
        refine ih _ _ _ j n htail ?_
        rw [Function.update_of_ne hnm, show i + 1 + j = i + (j + 1) by omega]
        exact hr

/-! ## The laws -/

/-- A call that fails leaves every cache, the number of its slots and the MRs of
the provider as they were. -/
def FailsCleanly (pageSize : Nat) (devs : Nat → MrDev) (comm : List Nat) (a : RegArgs)
    (env : Nat → RegEnv) (allocated : Nat → Nat) : Prop :=
  (ncclIbRegMrDmaBufInternal pageSize devs comm a env).1 ≠ ncclSuccess → ∀ n,
    ((ncclIbRegMrDmaBufInternal pageSize devs comm a env).2.1 n).mrCache = (devs n).mrCache ∧
    ((ncclIbRegMrDmaBufInternal pageSize devs comm a env).2.1 n).registered =
      (devs n).registered ∧
    ((ncclIbRegMrDmaBufInternal pageSize devs comm a env).2.1 n).mrCache.capacity =
      allocatedSlots pageSize devs comm a env allocated n

/-- When the first device refuses with a slot free in its cache, the call changes
nothing. -/
theorem first_refusal_is_clean {devs : Nat → MrDev} {m : Nat} {ms : List Nat}
    {allocated : Nat → Nat} (hr : Refused pageSize (devs m) a (env 0))
    (hfree : (devs m).mrCache.population ≠ (devs m).mrCache.capacity)
    (hcap : ∀ n, (devs n).mrCache.capacity = allocated n) (hsize : a.size ≠ 0) :
    FailsCleanly pageSize devs (m :: ms) a env allocated := by
  intro _ n
  have hsame : (ncclIbRegMrDmaBufInternal pageSize devs (m :: ms) a env).2.1 = devs := by
    unfold ncclIbRegMrDmaBufInternal
    rw [if_neg hsize]
    rcases regDevs_cons pageSize a env m ms 0 devs [] with
      ⟨-, h⟩ | ⟨hno, -⟩
    · rw [h, growCache_free hfree]
      exact Function.update_eq_self m devs
    · exact absurd hr hno
  have halloc : allocatedSlots pageSize devs (m :: ms) a env allocated = allocated := by
    have hafter : allocatedAfter pageSize (devs m) a (env 0) (allocated m) = allocated m := by
      unfold allocatedAfter
      split
      · rfl
      · exact if_neg (fun hfull => hfree hfull.1)
    have hans := internal2_answer pageSize (devs m) a (env 0)
    have hfail := (refused_iff pageSize (devs m) a (env 0)).mpr hr
    unfold allocatedSlots
    rw [if_neg hsize, allocDevs, hafter, Function.update_eq_self]
    generalize ncclIbRegMrDmaBufInternal2 pageSize (devs m) a (env 0) = out at hans hfail
    cases hans with
    | share slot e hfound he => exact absurd rfl hfail
    | insert slot mr cap mr' hfound hmr hroom => exact absurd rfl hfail
    | refuse hrefused => rfl
  rw [hsame, halloc]
  exact ⟨rfl, rfl, hcap n⟩

/-- A failed registration leaves no trace when the size is 0, when no device
refuses, or when the first device refuses and its cache has a free slot. In all
other cases it leaves one. -/
theorem a_failed_registration_is_clean_iff_the_first_device_fails (pageSize : Nat)
    (devs : Nat → MrDev) (comm : List Nat) (a : RegArgs) (env : Nat → RegEnv)
    (allocated : Nat → Nat) (hcap : ∀ n, (devs n).mrCache.capacity = allocated n) :
    FailsCleanly pageSize devs comm a env allocated ↔
      a.size = 0 ∨ (∀ i n, FirstAt comm i n → ¬ Refused pageSize (devs n) a (env i)) ∨
      ∃ n, comm[0]? = some n ∧ Refused pageSize (devs n) a (env 0) ∧
        (devs n).mrCache.population ≠ (devs n).mrCache.capacity := by
  by_cases hsize : a.size = 0
  · refine ⟨fun _ => Or.inl hsize, fun _ _ n => ?_⟩
    unfold allocatedSlots ncclIbRegMrDmaBufInternal
    rw [if_pos hsize, if_pos hsize]
    exact ⟨rfl, rfl, hcap n⟩
  constructor
  · intro hclean
    by_contra hnot
    simp only [not_or, not_forall, not_exists, not_and, not_not] at hnot
    obtain ⟨-, ⟨i, n, hfirst, hr⟩, hfull⟩ := hnot
    cases comm with
    | nil => cases hfirst.1
    | cons m ms =>
      have hfail : (ncclIbRegMrDmaBufInternal pageSize devs (m :: ms) a env).1 ≠ ncclSuccess := by
        unfold ncclIbRegMrDmaBufInternal
        rw [if_neg hsize]
        exact regDevs_fails _ 0 devs [] i n hfirst (by rw [Nat.zero_add]; exact hr)
      have hkeep := (hclean hfail m).1
      unfold ncclIbRegMrDmaBufInternal at hkeep
      rw [if_neg hsize] at hkeep
      rcases regDevs_cons pageSize a env m ms 0 devs [] with
        ⟨hm, h⟩ | ⟨-, d, mr, hd, h⟩
      · -- The first device refused with a full cache: its capacity has grown.
        rw [h] at hkeep
        simp only [Function.update_self] at hkeep
        have hgrown := (growCache_capacity (devs m).mrCache (env 0).malloc).mp (by rw [hkeep])
        exact hgrown (hfull m rfl hm)
      · -- The first device took a reference, which no later device gives back.
        have hmore := regDevs_refs pageSize a env m ms 1
          (Function.update devs m d) [(m, mr)]
        have hone := internal2_refs pageSize (devs m) a (env 0)
        rw [hd, if_pos rfl] at hone
        have hone : refsSum d = refsSum (devs m) + 1 := hone
        rw [Function.update_self] at hmore
        have hsum : refsSum ((regDevs pageSize a env (m :: ms) 0 devs []).2.1 m) =
            refsSum (devs m) := by
          unfold refsSum
          rw [hkeep]
        rw [h] at hsum
        have hsum : refsSum ((regDevs pageSize a env ms 1 (Function.update devs m d)
            [(m, mr)]).2.1 m) = refsSum (devs m) := hsum
        omega
  · rintro (h0 | hno | ⟨n, hn, hr, hfree⟩)
    · exact absurd h0 hsize
    · intro hfail
      refine absurd ?_ hfail
      unfold ncclIbRegMrDmaBufInternal
      rw [if_neg hsize]
      exact regDevs_ok _ 0 devs [] (fun j n hj => Or.inr (by rw [Nat.zero_add]; exact hno j n hj))
    · cases comm with
      | nil => cases hn
      | cons m ms =>
        obtain rfl : m = n := by simpa using hn
        exact first_refusal_is_clean hr hfree hcap hsize

/-- A buffer of one page. -/
def onePage : RegArgs := ⟨0x1000, 0x1000, 0, -1, 0, false⟩

theorem a_refusal_of_the_first_of_two_devices_is_clean :
    FailsCleanly 0x1000 (fun _ => ⟨⟨[], 32, by decide⟩, false, [], []⟩) [0, 1] onePage
      (fun _ => ⟨true, none⟩) (fun _ => 32) :=
  (a_failed_registration_is_clean_iff_the_first_device_fails 0x1000
    (fun _ => ⟨⟨[], 32, by decide⟩, false, [], []⟩) [0, 1] onePage (fun _ => ⟨true, none⟩) (fun _ => 32)
    (fun _ => rfl)).mpr (Or.inr (Or.inr ⟨0, rfl, ⟨⟨0, rfl⟩, Or.inr rfl⟩, by decide⟩))

/-- The second device refuses: the first one keeps an entry with a reference that
no handle holds, and its MR stays registered. -/
theorem a_refusal_of_the_second_device_leaves_an_entry :
    ¬ ∀ (pageSize : Nat) (devs : Nat → MrDev) (comm : List Nat) (a : RegArgs)
      (env : Nat → RegEnv) (allocated : Nat → Nat),
      (∀ n, (devs n).mrCache.capacity = allocated n) →
      FailsCleanly pageSize devs comm a env allocated := by
  intro h
  have hfail := h 0x1000 (fun _ => ⟨⟨[], 32, by decide⟩, false, [], []⟩) [0, 1] onePage
    (fun i => ⟨true, if i = 0 then some 7 else none⟩) (fun _ => 32) (fun _ => rfl)
  have hmr := (hfail (by decide) 0).2.1
  revert hmr
  decide

end net_ib.reg
