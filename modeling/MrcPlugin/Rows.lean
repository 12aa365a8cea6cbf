-- The rows of a send comm: which send each entry of `sendReqs` stands for. A row is
-- free again when its last send is reported done, while a request that is done may be
-- in use for another group already. The sends of a later group may come into a row that
-- is not free yet, at the entries that the earlier groups do not have.
import MrcPlugin.SendRuns
import MrcPlugin.Lib.Counts

namespace net_ib.p2p

open counts

/-! ## The invariant -/

/-- The part of a send comm that its rows live in, with the history. -/
structure Rows where
  fifoHead : Nat
  reqs : Nat → NcclIbRequest
  sendReqs : Nat → Nat → Option Nat
  cnt : Nat → Int
  owner : Nat → Nat → Option Owner
  serialOf : Nat → Nat
  nextSerial : Nat
  reported : List Nat

/-- The number of entries of each group. -/
def groupSize (g : Nat → List NcclIbSendFifo) (id : Nat) : Nat := (g id).length

/-- Whether an entry stands for a send that is not reported done. -/
def Rows.isOpen (x : Rows) (slot r : Nat) : Bool :=
  match x.owner slot r with
  | none => false
  | some o => o.serial ∉ x.reported

/-- Every send of group `id` has its entry and is not reported done. -/
def Rows.OpenGroup (size : Nat → Nat) (x : Rows) (id : Nat) : Prop :=
  ∀ r < size id, ∃ o, x.owner (slotOf id) r = some o ∧ o.id = id ∧ o.serial ∉ x.reported

/-- What the rows keep, where `size id` is the number of entries of group `id`. -/
structure RowsGood (size : Nat → Nat) (x : Rows) : Prop where
  entry : ∀ slot r, x.owner slot r = none ↔ x.sendReqs slot r = none
  owner : ∀ slot r o, x.owner slot r = some o → slotOf o.id = slot ∧
    o.id ≤ x.fifoHead ∧ r < size o.id ∧ o.serial < x.nextSerial
  one_entry : ∀ slot r slot' r' o o', x.owner slot r = some o → x.owner slot' r' = some o' →
    o.serial = o'.serial → slot = slot' ∧ r = r'
  open_req : ∀ slot r o, x.owner slot r = some o → o.serial ∉ x.reported →
    ∃ i < NET_IB_MAX_REQUESTS, x.sendReqs slot r = some i ∧ x.serialOf i = o.serial ∧
      (x.reqs i).type = NCCL_NET_IB_REQ_SEND ∧ (x.reqs i).id = o.id ∧ (x.reqs i).nreqs = size o.id
  live : ∀ i < NET_IB_MAX_REQUESTS, (x.reqs i).type ≠ NCCL_NET_IB_REQ_UNUSED →
    (x.reqs i).type = NCCL_NET_IB_REQ_SEND ∧ x.serialOf i ∉ x.reported ∧
    ∃ r, x.sendReqs (slotOf (x.reqs i).id) r = some i ∧
      x.owner (slotOf (x.reqs i).id) r = some ⟨(x.reqs i).id, x.serialOf i⟩
  cnt : ∀ slot, x.cnt slot = (List.range NCCL_NET_IB_MAX_RECVS).countP (x.isOpen slot)
  row_open : ∀ slot r o, x.owner slot r = some o →
    ∃ r' o', x.owner slot r' = some o' ∧ o'.serial ∉ x.reported
  /-- While a send of a group of the past has its entry, no entry below the size of that
  group belongs to a later one. -/
  full : ∀ slot r o, x.owner slot r = some o → o.id < x.fifoHead →
    ∀ r' < size o.id, ∃ o', x.owner slot r' = some o' ∧ o'.id ≤ o.id
  /-- No send of the current group is done. -/
  current : ∀ slot r o, x.owner slot r = some o → o.id = x.fifoHead → o.serial ∉ x.reported
  posted_pos : ∀ id < x.fifoHead, 0 < size id
  reported_lt : ∀ n ∈ x.reported, n < x.nextSerial
  reported_nodup : x.reported.Nodup

section
variable {size : Nat → Nat} {x y : Rows}

theorem rows_isOpen_iff (slot r : Nat) : x.isOpen slot r = true ↔
    ∃ o, x.owner slot r = some o ∧ o.serial ∉ x.reported := by
  unfold Rows.isOpen
  cases ho : x.owner slot r with
  | none => simp
  | some o => simp

/-- The rows of a comm that has accepted no send. -/
structure Rows.Init (x : Rows) : Prop where
  fifoHead : x.fifoHead = 0
  reqs : ∀ i < NET_IB_MAX_REQUESTS, (x.reqs i).type = NCCL_NET_IB_REQ_UNUSED
  sendReqs : ∀ slot r, x.sendReqs slot r = none
  cnt : ∀ slot, x.cnt slot = 0
  owner : ∀ slot r, x.owner slot r = none
  reported : x.reported = []

theorem Rows.Init.good (h : x.Init) : RowsGood size x := by
  have hnone : ∀ {slot r o}, x.owner slot r = some o → False := by
    intro slot r o ho
    rw [h.owner slot r] at ho
    cases ho
  refine
    { entry := fun slot r => ⟨fun _ => h.sendReqs slot r, fun _ => h.owner slot r⟩
      owner := fun _ _ _ ho => (hnone ho).elim
      one_entry := fun _ _ _ _ _ _ ho => (hnone ho).elim
      open_req := fun _ _ _ ho => (hnone ho).elim
      live := fun i hi hlive => (hlive (h.reqs i hi)).elim
      cnt := fun slot => ?_
      row_open := fun _ _ _ ho => (hnone ho).elim
      full := fun _ _ _ ho => (hnone ho).elim
      current := fun _ _ _ ho => (hnone ho).elim
      posted_pos := fun id hid => by rw [h.fifoHead] at hid; omega
      reported_lt := fun n hn => by rw [h.reported] at hn; cases hn
      reported_nodup := by rw [h.reported]; exact List.nodup_nil }
  have hzero : (List.range NCCL_NET_IB_MAX_RECVS).countP (x.isOpen slot) = 0 := by
    apply List.countP_eq_zero.mpr
    intro r _ hopen
    obtain ⟨o, ho, _⟩ := (rows_isOpen_iff slot r).mp hopen
    exact hnone ho
  rw [h.cnt, hzero]
  rfl

/-- A row in which a group of the past has a send is taken up to the size of the group. -/
theorem RowsGood.isSome (h : RowsGood size x) {slot r : Nat} {o : Owner}
    (ho : x.owner slot r = some o) (hlt : o.id < x.fifoHead) {r' : Nat} (hr' : r' < size o.id) :
    (x.owner slot r').isSome := by
  obtain ⟨o', ho', _⟩ := h.full _ _ _ ho hlt r' hr'
  exact Option.isSome_iff_exists.mpr ⟨o', ho'⟩

/-- The requests of an open group. -/
theorem RowsGood.open_reqs (h : RowsGood size x) {id : Nat} (hopen : x.OpenGroup size id) {r : Nat}
    (hr : r < size id) : ∃ i < NET_IB_MAX_REQUESTS, x.sendReqs (slotOf id) r = some i ∧
      (x.reqs i).type = NCCL_NET_IB_REQ_SEND ∧ (x.reqs i).id = id ∧ (x.reqs i).nreqs = size id ∧
      x.owner (slotOf id) r = some ⟨id, x.serialOf i⟩ := by
  obtain ⟨o, ho, hoid, hrep⟩ := hopen r hr
  obtain ⟨i, hi, hsend, hserial, htype, hid, hn⟩ := h.open_req _ _ _ ho hrep
  rw [hoid] at hid hn
  refine ⟨i, hi, hsend, htype, hid, hn, ?_⟩
  rw [ho, hserial, ← hoid]

/-- The requests of an open group are the live requests of its id, one for each entry. -/
theorem RowsGood.group (h : RowsGood size x) {id : Nat} (hopen : x.OpenGroup size id) :
    ∃ f : Nat → Nat, (∀ r < size id, f r < NET_IB_MAX_REQUESTS ∧
        x.sendReqs (slotOf id) r = some (f r) ∧ (x.reqs (f r)).type = NCCL_NET_IB_REQ_SEND ∧
        (x.reqs (f r)).id = id ∧ (x.reqs (f r)).nreqs = size id) ∧
      ((List.range (size id)).map f).Nodup ∧
      ∀ i < NET_IB_MAX_REQUESTS, i ∈ (List.range (size id)).map f ↔
        ((x.reqs i).type ≠ NCCL_NET_IB_REQ_UNUSED ∧ (x.reqs i).id = id) := by
  have hreq : ∀ r, ∃ i, r < size id → i < NET_IB_MAX_REQUESTS ∧
      x.sendReqs (slotOf id) r = some i ∧ (x.reqs i).type = NCCL_NET_IB_REQ_SEND ∧
      (x.reqs i).id = id ∧ (x.reqs i).nreqs = size id ∧
      x.owner (slotOf id) r = some ⟨id, x.serialOf i⟩ := by
    intro r
    by_cases hr : r < size id
    · obtain ⟨i, hi⟩ := h.open_reqs hopen hr
      exact ⟨i, fun _ => hi⟩
    · exact ⟨0, fun hlt => absurd hlt hr⟩
  choose f hf using hreq
  refine ⟨f, fun r hr => ?_, ?_, fun i hi => ⟨fun hmem => ?_, ?_⟩⟩
  · obtain ⟨h1, h2, h3, h4, h5, _⟩ := hf r hr
    exact ⟨h1, h2, h3, h4, h5⟩
  · refine List.Nodup.map_on ?_ List.nodup_range
    intro a ha b hb hab
    obtain ⟨_, _, _, _, _, hoa⟩ := hf a (List.mem_range.mp ha)
    obtain ⟨_, _, _, _, _, hob⟩ := hf b (List.mem_range.mp hb)
    rw [hab] at hoa
    exact (h.one_entry _ _ _ _ _ _ hoa hob rfl).2
  · obtain ⟨r, hr, rfl⟩ := List.mem_map.mp hmem
    obtain ⟨_, _, htype, hid, _⟩ := hf r (List.mem_range.mp hr)
    exact ⟨by rw [htype]; simp, hid⟩
  · rintro ⟨hlive, hid⟩
    obtain ⟨_, _, r, hsend, ho⟩ := h.live i hi hlive
    rw [hid] at hsend ho
    have hr : r < size id := (h.owner _ _ _ ho).2.2.1
    have heq := (hf r hr).2.1
    rw [hsend] at heq
    exact List.mem_map.mpr ⟨r, List.mem_range.mpr hr, (Option.some.inj heq).symm⟩

/-! ## Requests change -/

/-- Changes that leave the type, the id and the size of every request are no change
of the rows. -/
theorem RowsGood.reqs_change (h : RowsGood size x) {reqs : Nat → NcclIbRequest}
    (hreqs : ∀ i, (reqs i).type = (x.reqs i).type ∧ (reqs i).id = (x.reqs i).id ∧
      (reqs i).nreqs = (x.reqs i).nreqs) : RowsGood size { x with reqs } := by
  refine { h with open_req := ?_, live := ?_ }
  · intro slot r o ho hopen
    obtain ⟨i, hi, hsend, hserial, htype, hid, hn⟩ := h.open_req slot r o ho hopen
    obtain ⟨k1, k2, k3⟩ := hreqs i
    exact ⟨i, hi, hsend, hserial, k1.trans htype, k2.trans hid, k3.trans hn⟩
  · intro i hi hlive
    obtain ⟨k1, k2, _⟩ := hreqs i
    have := h.live i hi (fun hu => hlive (k1.trans hu))
    simp only [k1, k2]
    exact this

/-! ## A send is reported done -/

/-- Send `i` is reported done: its request is free, and the row is free when the
send was the last one of it. -/
structure Rows.Done (x y : Rows) (i slot : Nat) : Prop where
  fifoHead : y.fifoHead = x.fifoHead
  reqs : y.reqs = Function.update x.reqs i (ncclIbFreeRequest (x.reqs i))
  cnt : y.cnt = Function.update x.cnt slot (x.cnt slot - 1)
  row : y.sendReqs =
    if x.cnt slot - 1 = 0 then Function.update x.sendReqs slot (fun _ => none) else x.sendReqs
  owner : y.owner = fun slot r => if (y.sendReqs slot r).isNone then none else x.owner slot r
  serialOf : y.serialOf = x.serialOf
  nextSerial : y.nextSerial = x.nextSerial
  reported : y.reported = x.reported ++ [x.serialOf i]

/-- Whether an entry stays open when send `n` is reported. -/
def Rows.openBut (x : Rows) (n slot r : Nat) : Bool :=
  match x.owner slot r with
  | none => false
  | some o => o.serial ∉ x.reported ++ [n]

theorem rows_openBut_iff (n slot r : Nat) : x.openBut n slot r = true ↔
    ∃ o, x.owner slot r = some o ∧ o.serial ∉ x.reported ∧ o.serial ≠ n := by
  unfold Rows.openBut
  cases ho : x.owner slot r with
  | none => simp
  | some o => simp

section
variable {slot r : Nat} {o : Owner}

/-- The send that is reported is the only one of its number. -/
theorem RowsGood.openBut_other (h : RowsGood size x) (ho : x.owner slot r = some o)
    (slot' r' : Nat) (hne : ¬ (slot' = slot ∧ r' = r)) :
    x.openBut o.serial slot' r' = x.isOpen slot' r' := by
  rw [Bool.eq_iff_iff, rows_openBut_iff, rows_isOpen_iff]
  constructor
  · rintro ⟨o', ho', hrep, _⟩
    exact ⟨o', ho', hrep⟩
  · rintro ⟨o', ho', hrep⟩
    refine ⟨o', ho', hrep, fun he => hne ?_⟩
    exact h.one_entry _ _ _ _ _ _ ho' ho he

/-- One entry less is open in the slot. -/
theorem RowsGood.count_openBut (h : RowsGood size x) (hr : r < NCCL_NET_IB_MAX_RECVS)
    (ho : x.owner slot r = some o) (hrep : o.serial ∉ x.reported) :
    ((List.range NCCL_NET_IB_MAX_RECVS).countP (x.openBut o.serial slot) : Int) =
      x.cnt slot - 1 := by
  have hflip := countP_flip (f := x.openBut o.serial slot) (g := x.isOpen slot) List.nodup_range
    (List.mem_range.mpr hr) ?_ ?_ ?_
  · have := h.cnt slot
    omega
  · rw [Bool.eq_false_iff, ne_eq, rows_openBut_iff]
    rintro ⟨o', ho', _, hne⟩
    rw [ho] at ho'
    cases ho'
    exact hne rfl
  · exact (rows_isOpen_iff slot r).mpr ⟨o, ho, hrep⟩
  · intro r' hr'
    exact (h.openBut_other ho slot r' (fun hc => hr' hc.2)).symm

end

section
variable {i slot : Nat}

theorem Rows.Done.row_eq (hd : Rows.Done x y i slot) (slot' r' : Nat) : y.sendReqs slot' r' =
    if slot' = slot ∧ x.cnt slot - 1 = 0 then none else x.sendReqs slot' r' := by
  rw [hd.row]
  by_cases hz : x.cnt slot - 1 = 0
  · by_cases hs : slot' = slot
    · subst hs
      simp [hz]
    · simp [hz, hs]
  · simp [hz]

/-- The rows and the owners that stay. -/
theorem Rows.Done.owner_iff (hd : Rows.Done x y i slot) (h : RowsGood size x) (slot' r' : Nat)
    (o : Owner) : y.owner slot' r' = some o ↔
      x.owner slot' r' = some o ∧ ¬ (slot' = slot ∧ x.cnt slot - 1 = 0) := by
  have hentry := h.entry slot' r'
  rw [hd.owner]
  simp only [hd.row_eq]
  by_cases hz : slot' = slot ∧ x.cnt slot - 1 = 0
  · simp [hz]
  · rw [if_neg hz]
    cases hsr : x.sendReqs slot' r' with
    | none => simp [hentry.mpr hsr]
    | some j => simp [hz]

theorem Rows.Done.fresh (hd : Rows.Done x y i slot) {j : Nat}
    (hlive : (y.reqs j).type ≠ NCCL_NET_IB_REQ_UNUSED) : j ≠ i ∧ y.reqs j = x.reqs j := by
  have hji : j ≠ i := by
    rintro rfl
    rw [hd.reqs, Function.update_self] at hlive
    exact hlive rfl
  exact ⟨hji, by rw [hd.reqs, Function.update_of_ne hji]⟩

theorem Rows.Done.mem_reported (hd : Rows.Done x y i slot) (n : Nat) :
    n ∈ y.reported ↔ n ∈ x.reported ∨ n = x.serialOf i := by
  rw [hd.reported, List.mem_append, List.mem_singleton]

end

/-- Send `i`, which has entry `r` of row `slot`, is reported done. -/
structure Rows.Reporting (size : Nat → Nat) (x y : Rows) (i slot r : Nat) : Prop where
  good : RowsGood size x
  size_le : ∀ id, size id ≤ NCCL_NET_IB_MAX_RECVS
  send : x.sendReqs slot r = some i
  owner : x.owner slot r = some ⟨(x.reqs i).id, x.serialOf i⟩
  isOpen : x.serialOf i ∉ x.reported
  done : Rows.Done x y i slot

theorem RowsGood.reporting (h : RowsGood size x) (hsize : ∀ id, size id ≤ NCCL_NET_IB_MAX_RECVS)
    {i : Nat} (hi : i < NET_IB_MAX_REQUESTS) (hlive : (x.reqs i).type ≠ NCCL_NET_IB_REQ_UNUSED)
    (hd : Rows.Done x y i (slotOf (x.reqs i).id)) :
    ∃ r, Rows.Reporting size x y i (slotOf (x.reqs i).id) r := by
  obtain ⟨_, hrep, r, hsend, ho⟩ := h.live i hi hlive
  exact ⟨r, h, hsize, hsend, ho, hrep, hd⟩

section
variable {i slot r : Nat}

/-- One open entry less is counted in the slot. -/
theorem Rows.Reporting.count (h : Rows.Reporting size x y i slot r) :
    ((List.range NCCL_NET_IB_MAX_RECVS).countP (x.openBut (x.serialOf i) slot) : Int) =
      x.cnt slot - 1 :=
  h.good.count_openBut (Nat.lt_of_lt_of_le (h.good.owner _ _ _ h.owner).2.2.1 (h.size_le _))
    h.owner h.isOpen

/-- When the slot is free again, the send was the last one of its row. -/
theorem Rows.Reporting.last (h : Rows.Reporting size x y i slot r) (hz : x.cnt slot - 1 = 0)
    {r' : Nat} {o' : Owner} (ho' : x.owner slot r' = some o') (hrep' : o'.serial ∉ x.reported) :
    o'.serial = x.serialOf i := by
  have hcount := h.count
  rw [hz] at hcount
  have hr' := Nat.lt_of_lt_of_le (h.good.owner _ _ _ ho').2.2.1 (h.size_le _)
  by_contra hne
  have := List.countP_eq_zero.mp (Int.natCast_eq_zero.mp hcount) r' (List.mem_range.mpr hr')
  exact this ((rows_openBut_iff _ _ _).mpr ⟨o', ho', hrep', hne⟩)

/-- The serial of the send is in no other entry. -/
theorem Rows.Reporting.serial (h : Rows.Reporting size x y i slot r) {slot' r' : Nat} {o' : Owner}
    (ho' : x.owner slot' r' = some o') (he : o'.serial = x.serialOf i) :
    slot' = slot ∧ r' = r ∧ o'.id = (x.reqs i).id := by
  have ho := h.owner
  obtain ⟨rfl, rfl⟩ := h.good.one_entry _ _ _ _ _ _ ho' ho he
  rw [ho] at ho'
  cases ho'
  exact ⟨rfl, rfl, rfl⟩

theorem Rows.Reporting.isOpen_eq (h : Rows.Reporting size x y i slot r) (slot' : Nat) :
    y.isOpen slot' = fun r' =>
      if slot' = slot ∧ x.cnt slot - 1 = 0 then false else x.openBut (x.serialOf i) slot' r' := by
  funext r'
  rw [Bool.eq_iff_iff, rows_isOpen_iff]
  simp only [h.done.owner_iff h.good, h.done.mem_reported, not_or]
  by_cases hz : slot' = slot ∧ x.cnt slot - 1 = 0
  · simp [hz]
  · rw [if_neg hz, rows_openBut_iff]
    simp [hz]

theorem Rows.Reporting.entry (h : Rows.Reporting size x y i slot r) (slot' r' : Nat) :
    y.owner slot' r' = none ↔ y.sendReqs slot' r' = none := by
  have hentry := h.good.entry slot' r'
  rw [h.done.owner]
  simp only [h.done.row_eq]
  by_cases hz : slot' = slot ∧ x.cnt slot - 1 = 0
  · simp [hz]
  · simp [hz, hentry]

theorem Rows.Reporting.open_req (h : Rows.Reporting size x y i slot r) {slot' r' : Nat} {o' : Owner}
    (ho' : y.owner slot' r' = some o') (hopen : o'.serial ∉ y.reported) :
    ∃ j < NET_IB_MAX_REQUESTS, y.sendReqs slot' r' = some j ∧ y.serialOf j = o'.serial ∧
      (y.reqs j).type = NCCL_NET_IB_REQ_SEND ∧ (y.reqs j).id = o'.id ∧
      (y.reqs j).nreqs = size o'.id := by
  obtain ⟨ho', hkept⟩ := (h.done.owner_iff h.good _ _ _).mp ho'
  rw [h.done.mem_reported, not_or] at hopen
  obtain ⟨j, hj, hsend', hserial', hreq⟩ := h.good.open_req _ _ _ ho' hopen.1
  have hji : j ≠ i := by
    rintro rfl
    exact hopen.2 hserial'.symm
  refine ⟨j, hj, ?_, (congrFun h.done.serialOf j).trans hserial', ?_⟩
  · rw [h.done.row_eq, if_neg hkept, hsend']
  · rw [h.done.reqs, Function.update_of_ne hji]
    exact hreq

theorem Rows.Reporting.live (h : Rows.Reporting size x y i slot r) {j : Nat}
    (hj : j < NET_IB_MAX_REQUESTS) (hlive : (y.reqs j).type ≠ NCCL_NET_IB_REQ_UNUSED) :
    (y.reqs j).type = NCCL_NET_IB_REQ_SEND ∧ y.serialOf j ∉ y.reported ∧
      ∃ r', y.sendReqs (slotOf (y.reqs j).id) r' = some j ∧
        y.owner (slotOf (y.reqs j).id) r' = some ⟨(y.reqs j).id, y.serialOf j⟩ := by
  obtain ⟨hji, hreq⟩ := h.done.fresh hlive
  rw [hreq] at hlive ⊢
  rw [h.done.serialOf]
  obtain ⟨htype, hrep, r', hsend', ho'⟩ := h.good.live j hj hlive
  have hne : x.serialOf j ≠ x.serialOf i := by
    intro he
    obtain ⟨hs, rfl, _⟩ := h.serial ho' he
    rw [hs, h.send] at hsend'
    exact hji (Option.some.inj hsend').symm
  have hkept : ¬ (slotOf (x.reqs j).id = slot ∧ x.cnt slot - 1 = 0) := by
    rintro ⟨hs, hz⟩
    rw [hs] at ho'
    exact hne (h.last hz ho' hrep)
  refine ⟨htype, ?_, r', ?_, (h.done.owner_iff h.good _ _ _).mpr ⟨ho', hkept⟩⟩
  · simp [h.done.mem_reported, hrep, hne]
  · rw [h.done.row_eq, if_neg hkept, hsend']

theorem Rows.Reporting.cnt (h : Rows.Reporting size x y i slot r) (slot' : Nat) :
    y.cnt slot' = (List.range NCCL_NET_IB_MAX_RECVS).countP (y.isOpen slot') := by
  rw [h.done.cnt, h.isOpen_eq]
  by_cases hs : slot' = slot
  · subst hs
    rw [Function.update_self]
    by_cases hz : x.cnt slot' - 1 = 0
    · simp [hz]
    · simp only [hz, and_false, if_false]
      exact h.count.symm
  · rw [Function.update_of_ne hs, h.good.cnt]
    simp only [hs, false_and, if_false]
    congr 2
    funext r'
    exact (h.good.openBut_other h.owner slot' r' (fun hc => hs hc.1)).symm

/-- A row that stays has an open entry: the reported one was not its last. -/
theorem Rows.Reporting.row_open (h : Rows.Reporting size x y i slot r) {slot' r' : Nat} {o' : Owner}
    (ho' : y.owner slot' r' = some o') :
    ∃ r'' o'', y.owner slot' r'' = some o'' ∧ o''.serial ∉ y.reported := by
  obtain ⟨ho', hkept⟩ := (h.done.owner_iff h.good _ _ _).mp ho'
  by_cases hs : slot' = slot
  · subst hs
    have hz : x.cnt slot' - 1 ≠ 0 := fun hz => hkept ⟨rfl, hz⟩
    have hcount := h.count
    obtain ⟨r'', _, hr''⟩ := List.countP_pos_iff.mp (show 0 < (List.range
      NCCL_NET_IB_MAX_RECVS).countP (x.openBut (x.serialOf i) slot') by omega)
    obtain ⟨o'', ho'', hrep'', hne⟩ := (rows_openBut_iff _ _ _).mp hr''
    exact ⟨r'', o'', (h.done.owner_iff h.good _ _ _).mpr ⟨ho'', hkept⟩,
      by simp [h.done.mem_reported, hrep'', hne]⟩
  · obtain ⟨r'', o'', ho'', hrep''⟩ := h.good.row_open _ _ _ ho'
    refine ⟨r'', o'', (h.done.owner_iff h.good _ _ _).mpr ⟨ho'', hkept⟩, ?_⟩
    rw [h.done.mem_reported, not_or]
    exact ⟨hrep'', fun he => hs (h.serial ho'' he).1⟩

theorem Rows.Reporting.current (h : Rows.Reporting size x y i slot r)
    (hid : (x.reqs i).id < x.fifoHead) {slot' r' : Nat} {o' : Owner}
    (ho' : y.owner slot' r' = some o') (hcur : o'.id = y.fifoHead) : o'.serial ∉ y.reported := by
  obtain ⟨ho', _⟩ := (h.done.owner_iff h.good _ _ _).mp ho'
  rw [h.done.fifoHead] at hcur
  rw [h.done.mem_reported, not_or]
  refine ⟨h.good.current _ _ _ ho' hcur, fun he => ?_⟩
  have := (h.serial ho' he).2.2
  omega

end

section
variable {i : Nat}

theorem RowsGood.done (hgood : RowsGood size x) (hsize : ∀ id, size id ≤ NCCL_NET_IB_MAX_RECVS)
    (hi : i < NET_IB_MAX_REQUESTS) (hlive : (x.reqs i).type ≠ NCCL_NET_IB_REQ_UNUSED)
    (hid : (x.reqs i).id < x.fifoHead) (hd : Rows.Done x y i (slotOf (x.reqs i).id)) :
    RowsGood size y := by
  obtain ⟨r, h⟩ := hgood.reporting hsize hi hlive hd
  have howner := hd.owner_iff hgood
  refine
    { entry := h.entry
      owner := fun slot' r' o' ho' => ?_
      one_entry := fun slot1 r1 slot2 r2 o1 o2 h1 h2 => ?_
      open_req := fun _ _ _ ho' hopen => h.open_req ho' hopen
      live := fun _ hj hlive' => h.live hj hlive'
      cnt := h.cnt
      row_open := fun _ _ _ ho' => h.row_open ho'
      full := fun slot' r' o' ho' hlt r'' hr'' => ?_
      current := fun _ _ _ ho' hcur => h.current hid ho' hcur
      posted_pos := ?_
      reported_lt := fun n hn => ?_
      reported_nodup := ?_ }
  · rw [hd.fifoHead, hd.nextSerial]
    exact hgood.owner _ _ _ ((howner _ _ _).mp ho').1
  · exact hgood.one_entry _ _ _ _ _ _ ((howner _ _ _).mp h1).1 ((howner _ _ _).mp h2).1
  · obtain ⟨ho', hkept⟩ := (howner _ _ _).mp ho'
    rw [hd.fifoHead] at hlt
    obtain ⟨o'', ho'', hle⟩ := hgood.full _ _ _ ho' hlt r'' hr''
    exact ⟨o'', (howner _ _ _).mpr ⟨ho'', hkept⟩, hle⟩
  · rw [hd.fifoHead]
    exact hgood.posted_pos
  · rw [hd.nextSerial]
    rcases (hd.mem_reported n).mp hn with hn | rfl
    · exact hgood.reported_lt n hn
    · exact (hgood.owner _ _ _ h.owner).2.2.2
  · rw [hd.reported, List.nodup_append]
    refine ⟨hgood.reported_nodup, List.nodup_singleton _, ?_⟩
    rintro a ha b hb rfl
    rw [List.mem_singleton.mp hb] at ha
    exact h.isOpen ha

/-- A group other than the one of the send stays open, and its row stays. -/
theorem RowsGood.openGroup_done (hgood : RowsGood size x)
    (hsize : ∀ id, size id ≤ NCCL_NET_IB_MAX_RECVS) (hi : i < NET_IB_MAX_REQUESTS)
    (hlive : (x.reqs i).type ≠ NCCL_NET_IB_REQ_UNUSED) {id : Nat}
    (hd : Rows.Done x y i (slotOf (x.reqs i).id)) (hne : id ≠ (x.reqs i).id)
    (hopen : x.OpenGroup size id) : y.OpenGroup size id ∧
      ∀ r < size id, y.sendReqs (slotOf id) r = x.sendReqs (slotOf id) r := by
  obtain ⟨r, h⟩ := hgood.reporting hsize hi hlive hd
  have hother : ∀ r' o', x.owner (slotOf id) r' = some o' → o'.id = id →
      o'.serial ≠ x.serialOf i := by
    intro r' o' ho' hoid he
    exact hne (hoid.symm.trans (h.serial ho' he).2.2)
  -- An entry of the group is open besides, so the row is not free.
  have hkept : ∀ r' o', x.owner (slotOf id) r' = some o' → o'.id = id → o'.serial ∉ x.reported →
      ¬ (slotOf id = slotOf (x.reqs i).id ∧ x.cnt (slotOf (x.reqs i).id) - 1 = 0) := by
    rintro r' o' ho' hoid hrep' ⟨hslot, hz⟩
    have hne' := hother r' o' ho' hoid
    rw [hslot] at ho'
    exact hne' (h.last hz ho' hrep')
  refine ⟨fun r' hr' => ?_, fun r' hr' => ?_⟩
  · obtain ⟨o', ho', hoid, hrep'⟩ := hopen r' hr'
    refine ⟨o', (hd.owner_iff hgood _ _ _).mpr ⟨ho', hkept r' o' ho' hoid hrep'⟩, hoid, ?_⟩
    rw [hd.mem_reported, not_or]
    exact ⟨hrep', hother r' o' ho' hoid⟩
  · obtain ⟨o', ho', hoid, hrep'⟩ := hopen r' hr'
    rw [hd.row_eq, if_neg (hkept r' o' ho' hoid hrep')]

end

/-! ## A send takes an entry -/

/-- A send of the current group takes entry `r` with request `i`. -/
structure Rows.Taken (x y : Rows) (r i : Nat) (req : NcclIbRequest) : Prop where
  fifoHead : y.fifoHead = x.fifoHead
  req : y.reqs i = req
  reqs : ∀ j, j ≠ i → y.reqs j = x.reqs j
  entry : ∀ slot' r', y.sendReqs slot' r' =
    if slot' = slotOf x.fifoHead ∧ r' = r then some i else x.sendReqs slot' r'
  owner : ∀ slot' r', y.owner slot' r' =
    if slot' = slotOf x.fifoHead ∧ r' = r then some ⟨x.fifoHead, x.nextSerial⟩
    else x.owner slot' r'
  cnt : y.cnt = Function.update x.cnt (slotOf x.fifoHead) (x.cnt (slotOf x.fifoHead) + 1)
  serialOf : y.serialOf i = x.nextSerial
  serials : ∀ j, j ≠ i → y.serialOf j = x.serialOf j
  nextSerial : y.nextSerial = x.nextSerial + 1
  reported : y.reported = x.reported

section
variable {r i : Nat} {req : NcclIbRequest}

/-- The new entry is open, and the others are as they were. -/
theorem Rows.Taken.isOpen (ht : Rows.Taken x y r i req) (h : RowsGood size x) (slot' r' : Nat) :
    y.isOpen slot' r' = if slot' = slotOf x.fifoHead ∧ r' = r then true else x.isOpen slot' r' := by
  have hrep : x.nextSerial ∉ x.reported := fun hm => Nat.lt_irrefl _ (h.reported_lt _ hm)
  unfold Rows.isOpen
  rw [ht.owner, ht.reported]
  by_cases hat : slot' = slotOf x.fifoHead ∧ r' = r
  · simp [hat, hrep]
  · simp [hat]

/-- An owner after the step is the new one or one of before. -/
theorem Rows.Taken.owner_cases (ht : Rows.Taken x y r i req) {slot' r' : Nat} {o : Owner}
    (ho : y.owner slot' r' = some o) :
    (slot' = slotOf x.fifoHead ∧ r' = r ∧ o = ⟨x.fifoHead, x.nextSerial⟩) ∨
      x.owner slot' r' = some o := by
  rw [ht.owner] at ho
  split at ho
  · rename_i hat
    exact .inl ⟨hat.1, hat.2, (Option.some.inj ho).symm⟩
  · exact .inr ho

/-- An owner of before stays. -/
theorem Rows.Taken.owner_keep (ht : Rows.Taken x y r i req) (h : RowsGood size x)
    (hnone : x.sendReqs (slotOf x.fifoHead) r = none) {slot' r' : Nat} {o : Owner}
    (ho : x.owner slot' r' = some o) :
    y.owner slot' r' = some o ∧ y.sendReqs slot' r' = x.sendReqs slot' r' := by
  have hne : ¬ (slot' = slotOf x.fifoHead ∧ r' = r) := by
    rintro ⟨rfl, rfl⟩
    rw [(h.entry _ _).mpr hnone] at ho
    cases ho
  rw [ht.owner, ht.entry, if_neg hne, if_neg hne]
  exact ⟨ho, rfl⟩

/-- A send of the current group is about to take the free entry `r` with the unused
request `i`. -/
structure Rows.Binding (size : Nat → Nat) (x y : Rows) (r i : Nat) (req : NcclIbRequest) :
    Prop where
  good : RowsGood size x
  taken : Rows.Taken x y r i req
  entry_lt : r < size x.fifoHead
  row_lt : r < NCCL_NET_IB_MAX_RECVS
  free : x.sendReqs (slotOf x.fifoHead) r = none
  index : i < NET_IB_MAX_REQUESTS
  unused : (x.reqs i).type = NCCL_NET_IB_REQ_UNUSED
  type : req.type = NCCL_NET_IB_REQ_SEND
  id : req.id = x.fifoHead
  nreqs : req.nreqs = size x.fifoHead

theorem Rows.Binding.keep (h : Rows.Binding size x y r i req) {slot' r' : Nat} {o : Owner}
    (ho : x.owner slot' r' = some o) :
    y.owner slot' r' = some o ∧ y.sendReqs slot' r' = x.sendReqs slot' r' :=
  h.taken.owner_keep h.good h.free ho

theorem Rows.Binding.owner_new (h : Rows.Binding size x y r i req) :
    y.owner (slotOf x.fifoHead) r = some ⟨x.fifoHead, x.nextSerial⟩ := by
  rw [h.taken.owner, if_pos ⟨rfl, rfl⟩]

theorem Rows.Binding.entry_new (h : Rows.Binding size x y r i req) :
    y.sendReqs (slotOf x.fifoHead) r = some i := by
  rw [h.taken.entry, if_pos ⟨rfl, rfl⟩]

/-- The serial of the new send is not reported. -/
theorem Rows.Binding.isNew (h : Rows.Binding size x y r i req) : x.nextSerial ∉ x.reported :=
  fun hm => Nat.lt_irrefl _ (h.good.reported_lt _ hm)

theorem Rows.Binding.owner (h : Rows.Binding size x y r i req) {slot' r' : Nat} {o : Owner}
    (ho : y.owner slot' r' = some o) : slotOf o.id = slot' ∧ o.id ≤ y.fifoHead ∧
      r' < size o.id ∧ o.serial < y.nextSerial := by
  rw [h.taken.fifoHead, h.taken.nextSerial]
  rcases h.taken.owner_cases ho with ⟨rfl, rfl, rfl⟩ | ho
  · exact ⟨rfl, Nat.le_refl _, h.entry_lt, Nat.lt_succ_self _⟩
  · obtain ⟨h1, h2, h3, h4⟩ := h.good.owner _ _ _ ho
    exact ⟨h1, h2, h3, Nat.lt_succ_of_lt h4⟩

theorem Rows.Binding.one_entry (h : Rows.Binding size x y r i req) {slot1 r1 slot2 r2 : Nat}
    {o1 o2 : Owner} (h1 : y.owner slot1 r1 = some o1) (h2 : y.owner slot2 r2 = some o2)
    (he : o1.serial = o2.serial) : slot1 = slot2 ∧ r1 = r2 := by
  have hlt : ∀ slot' r' o', x.owner slot' r' = some o' → o'.serial < x.nextSerial :=
    fun slot' r' o' ho' => (h.good.owner _ _ _ ho').2.2.2
  rcases h.taken.owner_cases h1 with ⟨rfl, rfl, rfl⟩ | h1 <;>
    rcases h.taken.owner_cases h2 with ⟨rfl, rfl, rfl⟩ | h2
  · exact ⟨rfl, rfl⟩
  · have := hlt _ _ _ h2
    simp only at he
    omega
  · have := hlt _ _ _ h1
    simp only at he
    omega
  · exact h.good.one_entry _ _ _ _ _ _ h1 h2 he

theorem Rows.Binding.open_req (h : Rows.Binding size x y r i req) {slot' r' : Nat} {o : Owner}
    (ho : y.owner slot' r' = some o) (hopen : o.serial ∉ y.reported) :
    ∃ j < NET_IB_MAX_REQUESTS, y.sendReqs slot' r' = some j ∧ y.serialOf j = o.serial ∧
      (y.reqs j).type = NCCL_NET_IB_REQ_SEND ∧ (y.reqs j).id = o.id ∧
      (y.reqs j).nreqs = size o.id := by
  rw [h.taken.reported] at hopen
  rcases h.taken.owner_cases ho with ⟨rfl, rfl, rfl⟩ | ho
  · refine ⟨i, h.index, h.entry_new, h.taken.serialOf, ?_⟩
    rw [h.taken.req]
    exact ⟨h.type, h.id, h.nreqs⟩
  · obtain ⟨j, hj, hsend, hserial, htype, hrest⟩ := h.good.open_req _ _ _ ho hopen
    have hji : j ≠ i := by
      rintro rfl
      rw [h.unused] at htype
      cases htype
    rw [(h.keep ho).2]
    refine ⟨j, hj, hsend, (h.taken.serials j hji).trans hserial, ?_⟩
    rw [h.taken.reqs j hji]
    exact ⟨htype, hrest⟩

theorem Rows.Binding.live (h : Rows.Binding size x y r i req) {j : Nat}
    (hj : j < NET_IB_MAX_REQUESTS) (hlive : (y.reqs j).type ≠ NCCL_NET_IB_REQ_UNUSED) :
    (y.reqs j).type = NCCL_NET_IB_REQ_SEND ∧ y.serialOf j ∉ y.reported ∧
      ∃ r', y.sendReqs (slotOf (y.reqs j).id) r' = some j ∧
        y.owner (slotOf (y.reqs j).id) r' = some ⟨(y.reqs j).id, y.serialOf j⟩ := by
  rw [h.taken.reported]
  by_cases hji : j = i
  · subst hji
    rw [h.taken.req, h.id, h.taken.serialOf]
    exact ⟨h.type, h.isNew, r, h.entry_new, h.owner_new⟩
  · rw [h.taken.reqs j hji] at hlive ⊢
    rw [h.taken.serials j hji]
    obtain ⟨htype, hrep, r', hsend, ho⟩ := h.good.live j hj hlive
    obtain ⟨ho', hsend'⟩ := h.keep ho
    exact ⟨htype, hrep, r', hsend'.trans hsend, ho'⟩

/-- One open entry more is counted in the slot. -/
theorem Rows.Binding.cnt (h : Rows.Binding size x y r i req) (slot' : Nat) :
    y.cnt slot' = (List.range NCCL_NET_IB_MAX_RECVS).countP (y.isOpen slot') := by
  rw [h.taken.cnt]
  by_cases hs : slot' = slotOf x.fifoHead
  · subst hs
    rw [Function.update_self, h.good.cnt]
    have hflip := countP_flip (f := x.isOpen (slotOf x.fifoHead))
      (g := y.isOpen (slotOf x.fifoHead)) List.nodup_range (List.mem_range.mpr h.row_lt) ?_ ?_ ?_
    · rw [hflip]
      rfl
    · unfold Rows.isOpen
      rw [(h.good.entry _ _).mpr h.free]
    · rw [h.taken.isOpen h.good, if_pos ⟨rfl, rfl⟩]
    · intro r' hr'
      rw [h.taken.isOpen h.good, if_neg (fun hc => hr' hc.2)]
  · rw [Function.update_of_ne hs, h.good.cnt]
    congr 2
    funext r'
    rw [h.taken.isOpen h.good, if_neg (fun hc => hs hc.1)]

theorem Rows.Binding.rowsGood (h : Rows.Binding size x y r i req) : RowsGood size y where
  entry slot' r' := by
    rw [h.taken.owner, h.taken.entry]
    split
    · simp
    · exact h.good.entry slot' r'
  owner _ _ _ ho := h.owner ho
  one_entry _ _ _ _ _ _ h1 h2 he := h.one_entry h1 h2 he
  open_req _ _ _ ho hopen := h.open_req ho hopen
  live _ hj hlive := h.live hj hlive
  cnt := h.cnt
  row_open slot' r' o ho := by
    rw [h.taken.reported]
    rcases h.taken.owner_cases ho with ⟨rfl, rfl, rfl⟩ | ho
    · exact ⟨_, _, h.owner_new, h.isNew⟩
    · obtain ⟨r'', o'', ho'', hrep⟩ := h.good.row_open _ _ _ ho
      exact ⟨r'', o'', (h.keep ho'').1, hrep⟩
  full slot' r' o ho hlt r'' hr'' := by
    rw [h.taken.fifoHead] at hlt
    rcases h.taken.owner_cases ho with ⟨rfl, rfl, rfl⟩ | ho
    · exact absurd hlt (Nat.lt_irrefl _)
    · obtain ⟨o'', ho'', hle⟩ := h.good.full _ _ _ ho hlt r'' hr''
      exact ⟨o'', (h.keep ho'').1, hle⟩
  current slot' r' o ho hcur := by
    rw [h.taken.reported]
    rw [h.taken.fifoHead] at hcur
    rcases h.taken.owner_cases ho with ⟨rfl, rfl, rfl⟩ | ho
    · exact h.isNew
    · exact h.good.current _ _ _ ho hcur
  posted_pos := by
    rw [h.taken.fifoHead]
    exact h.good.posted_pos
  reported_lt n hn := by
    rw [h.taken.reported] at hn
    rw [h.taken.nextSerial]
    exact Nat.lt_succ_of_lt (h.good.reported_lt n hn)
  reported_nodup := by
    rw [h.taken.reported]
    exact h.good.reported_nodup

theorem RowsGood.taken (h : RowsGood size x) (ht : Rows.Taken x y r i req)
    (hr : r < size x.fifoHead) (hr8 : r < NCCL_NET_IB_MAX_RECVS)
    (hnone : x.sendReqs (slotOf x.fifoHead) r = none) (hi : i < NET_IB_MAX_REQUESTS)
    (hunused : (x.reqs i).type = NCCL_NET_IB_REQ_UNUSED) (htype : req.type = NCCL_NET_IB_REQ_SEND)
    (hid : req.id = x.fifoHead) (hnreqs : req.nreqs = size x.fifoHead) : RowsGood size y :=
  Rows.Binding.rowsGood ⟨h, ht, hr, hr8, hnone, hi, hunused, htype, hid, hnreqs⟩

/-- An open group stays open. -/
theorem Rows.Taken.openGroup (ht : Rows.Taken x y r i req) (h : RowsGood size x)
    (hnone : x.sendReqs (slotOf x.fifoHead) r = none) {id : Nat} (hopen : x.OpenGroup size id) :
    y.OpenGroup size id := by
  intro r' hr'
  obtain ⟨o, ho, hoid, hrep⟩ := hopen r' hr'
  refine ⟨o, (ht.owner_keep h hnone ho).1, hoid, ?_⟩
  rw [ht.reported]
  exact hrep

end

/-! ## A full group is posted -/

/-- With a send of the current group in the slot, all entries that are taken are
entries of that group, whatever group they belong to. -/
theorem RowsGood.below (h : RowsGood size x) {r : Nat} {o : Owner}
    (ho : x.owner (slotOf x.fifoHead) r = some o) (hcur : o.id = x.fifoHead) (r' : Nat) (o' : Owner)
    (ho' : x.owner (slotOf x.fifoHead) r' = some o') : r' < size x.fifoHead := by
  obtain ⟨_, hle, hr', _⟩ := h.owner _ _ _ ho'
  rcases Nat.lt_or_eq_of_le hle with hlt | heq
  · have hr := (h.owner _ _ _ ho).2.2.1
    rw [hcur] at hr
    by_contra hge
    obtain ⟨o'', ho'', hid⟩ := h.full _ _ _ ho' hlt r (by omega)
    rw [ho] at ho''
    cases ho''
    omega
  · rwa [heq] at hr'

/-- When the counter has reached the size of the group, every entry is taken by a send
that is not done. -/
theorem RowsGood.row_open_of_full (h : RowsGood size x)
    (hsize : ∀ id, size id ≤ NCCL_NET_IB_MAX_RECVS) {r : Nat} {o : Owner}
    (ho : x.owner (slotOf x.fifoHead) r = some o) (hcur : o.id = x.fifoHead)
    (hcnt : ¬ x.cnt (slotOf x.fifoHead) < size x.fifoHead) : ∀ r' < size x.fifoHead,
      ∃ o', x.owner (slotOf x.fifoHead) r' = some o' ∧ o'.serial ∉ x.reported := by
  have hbelow : ∀ r', x.isOpen (slotOf x.fifoHead) r' = true → r' < size x.fifoHead := by
    intro r' hr'
    obtain ⟨o', ho', _⟩ := (rows_isOpen_iff _ _).mp hr'
    exact h.below ho hcur r' o' ho'
  have hcount := h.cnt (slotOf x.fifoHead)
  rw [countP_range_of_lt (hsize _) hbelow] at hcount
  intro r' hr'
  have hopen := all_of_countP_ge (f := x.isOpen (slotOf x.fifoHead))
    (l := List.range (size x.fifoHead)) (by rw [List.length_range]; omega) r' (List.mem_range.mpr hr')
  exact (rows_isOpen_iff _ _).mp hopen

/-- A full row whose first entry is of the current group is the open current group. -/
theorem RowsGood.openGroup_full (h : RowsGood size x)
    (hfull : ∀ r < size x.fifoHead,
      ∃ o, x.owner (slotOf x.fifoHead) r = some o ∧ o.serial ∉ x.reported)
    {o : Owner} (ho : x.owner (slotOf x.fifoHead) 0 = some o) (hcur : o.id = x.fifoHead) :
    x.OpenGroup size x.fifoHead := by
  intro r hr
  obtain ⟨o', ho', hrep⟩ := hfull r hr
  refine ⟨o', ho', ?_, hrep⟩
  obtain ⟨_, hle, hr', _⟩ := h.owner _ _ _ ho'
  by_contra hne
  -- An earlier group in the row would have the first entry.
  obtain ⟨o'', ho'', hid⟩ := h.full _ _ _ ho' (Nat.lt_of_le_of_ne hle hne) 0 (by omega)
  rw [ho] at ho''
  cases ho''
  omega

/-- The full group of the current id goes out. -/
theorem RowsGood.posted (h : RowsGood size x) (hpos : 0 < size x.fifoHead)
    (hfull : ∀ r < size x.fifoHead, ∃ o, x.owner (slotOf x.fifoHead) r = some o) :
    RowsGood size { x with fifoHead := x.fifoHead + 1 } := by
  refine { h with owner := ?_, full := ?_, current := ?_, posted_pos := ?_ }
  · intro slot r o ho
    obtain ⟨h1, h2, h3, h4⟩ := h.owner _ _ _ ho
    exact ⟨h1, Nat.le_succ_of_le h2, h3, h4⟩
  · intro slot r o ho hlt r' hr'
    obtain ⟨hslot, _, _, _⟩ := h.owner _ _ _ ho
    by_cases hcur : o.id = x.fifoHead
    · rw [hcur] at hr' hslot
      rw [← hslot, hcur]
      obtain ⟨o', ho'⟩ := hfull r' hr'
      exact ⟨o', ho', (h.owner _ _ _ ho').2.1⟩
    · exact h.full _ _ _ ho (Nat.lt_of_le_of_ne (Nat.le_of_lt_succ hlt) hcur) r' hr'
  · intro slot r o ho hcur
    have := (h.owner _ _ _ ho).2.1
    simp only at hcur
    omega
  · intro id hid
    by_cases hcur : id = x.fifoHead
    · rw [hcur]
      exact hpos
    · exact h.posted_pos id (by simp only at hid; omega)

end

end net_ib.p2p
