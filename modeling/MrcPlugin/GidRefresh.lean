-- The refresh of a GID (common.cc). When the GID table of a port has changed, the event
-- thread asks for the attributes of the port and selects a GID again. The record of the
-- device is written while the questions are asked, and a refused one leaves it as it
-- is by then.
import MrcPlugin.GidIndex
import MrcPlugin.AsyncEvents

namespace net_ib

open runs

/-! ## A refresh -/

/-- What a refresh finds: the answers of the port and the attributes, if they are told. -/
structure GidRefresh where
  port : GidPort
  user : GidFilter
  portAttr : Option IbvPortAttr

/-- The answers to the event thread, when the record holds the index `gidIndex`. The
last question comes after all candidates. -/
def GidRefresh.env (x : GidRefresh) (gidIndex : Int) : EventEnv where
  getGidIndex := fun _ _ portAttr => ncclIbGetGidIndex x.port x.user portAttr gidIndex
  queryGid := fun _ _ index =>
    (x.port.queryGid (x.portAttr.elim 0 IbvPortAttr.gid_tbl_len) index).map IbvGid.number
  queryPort := fun _ _ => x.portAttr.elim (.error ncclSystemError) .ok
  ackOk := true

/-- The device and the result after the refresh. -/
def GidRefresh.run (x : GidRefresh) (dev : NcclIbDev) : NcclIbDev × NcclResult :=
  ncclIbEventGidChange (x.env dev.gidInfo.localGidIndex) dev

/-! ## The property -/

/-- The GID of a record is the entry of the table at its index. -/
def Paired (entry : Int → GidEntry) (gidInfo : NcclIbGidInfo) : Prop :=
  gidInfo.localGid = (entry gidInfo.localGidIndex).gid.number

/-- A refresh that fails changes nothing, and one that succeeds publishes an entry of the
table and the attributes that were asked for with it. -/
structure AllOrNothing (x : GidRefresh) (dev : NcclIbDev) : Prop where
  nothing : (x.run dev).2 ≠ ncclSuccess →
    (x.run dev).1.gidInfo = dev.gidInfo ∧ (x.run dev).1.portAttr = dev.portAttr
  all : dev.gidInfo.link_layer = IBV_LINK_LAYER_ETHERNET → (x.run dev).2 = ncclSuccess →
    Paired x.port.entry (x.run dev).1.gidInfo ∧ x.portAttr = some (x.run dev).1.portAttr ∧
      (x.run dev).1.gidInfo.link_layer = (x.run dev).1.portAttr.link_layer
  ignored : dev.gidInfo.link_layer ≠ IBV_LINK_LAYER_ETHERNET → x.run dev = (dev, ncclSuccess)

/-! ## Where a refresh stops -/

/-- The choice that stands when the first question about a candidate is refused. -/
def standing (port : GidPort) (user : GidFilter) : List Int → Int → Option Int
  | [], _ => none
  | k :: ks, i =>
    if port.Refused user k i then some i
    else standing port user ks (if port.Replaces user k i then k else i)

/-- The choice among all candidates. -/
def choice (port : GidPort) (user : GidFilter) (ks : List Int) (i : Int) : Int :=
  ks.foldl (fun i k => if port.Replaces user k i then k else i) i

/-- The index that is asked for last, unless a question before it is refused. On
InfiniBand it is the routable one or 0. -/
def lastIndex (x : GidRefresh) (portAttr : IbvPortAttr) : Int :=
  if portAttr.link_layer = IBV_LINK_LAYER_INFINIBAND then
    if x.user.routableFlidGidIndex < portAttr.gid_tbl_len ∧
        ncclIbExtractFlid (x.port.entry x.user.routableFlidGidIndex).gid.number ≠ 0 then
      x.user.routableFlidGidIndex
    else 0
  else if x.user.gidIndex ≥ 0 then x.user.gidIndex
  else choice x.port x.user (candidates portAttr.gid_tbl_len) 0

/-- The index that stands when a question before the last one is refused, where `old` is
the index of the record. -/
def earlyStop (x : GidRefresh) (portAttr : IbvPortAttr) (old : Int) : Option Int :=
  if portAttr.link_layer = IBV_LINK_LAYER_INFINIBAND then
    if x.user.routableFlidGidIndex < portAttr.gid_tbl_len ∧
        x.port.refuses 0 x.user.routableFlidGidIndex = true then
      some old
    else none
  else if x.user.gidIndex ≥ 0 then none
  else standing x.port x.user (candidates portAttr.gid_tbl_len) 0

/-- The index that stands when a question is refused. An index below 0 is not asked
for. -/
def GidRefresh.stops (x : GidRefresh) (portAttr : IbvPortAttr) (old : Int) : Option Int :=
  match earlyStop x portAttr old with
  | some j => some j
  | none =>
    if lastIndex x portAttr < 0 ∨
        x.port.refuses portAttr.gid_tbl_len (lastIndex x portAttr) = true then
      some (lastIndex x portAttr)
    else none

/-- When a question about the GIDs of an Ethernet device is refused, the port is still on
Ethernet and the index that stands by then is the one of the record. -/
def GidRefresh.StopsInPlace (x : GidRefresh) (dev : NcclIbDev) : Prop :=
  ∀ portAttr j, dev.gidInfo.link_layer = IBV_LINK_LAYER_ETHERNET → x.portAttr = some portAttr →
    x.stops portAttr dev.gidInfo.localGidIndex = some j →
      portAttr.link_layer = IBV_LINK_LAYER_ETHERNET ∧ j = dev.gidInfo.localGidIndex

section
variable {port : GidPort} {user : GidFilter} {x : GidRefresh} {portAttr : IbvPortAttr}
  {dev : NcclIbDev} {ks : List Int} {i j old : Int}

/-- The loop with a candidate that is refused. -/
theorem updateLoop_refused (h : standing port user ks i = some j) :
    updateLoop port user ks i = (j, ncclSystemError) := by
  induction ks generalizing i with
  | nil => cases h
  | cons k ks ih =>
    rw [standing] at h
    rw [updateLoop]
    obtain ⟨hrefused, heq⟩ | ⟨hanswered, htakes, heq⟩ | ⟨hanswered, htakes, heq⟩ :=
      update_cases port user k i
    · rw [if_pos hrefused] at h
      cases h
      rw [heq]
    · rw [if_neg hanswered, if_pos htakes] at h
      rw [heq]
      exact ih h
    · rw [if_neg hanswered, if_neg htakes] at h
      rw [heq]
      exact ih h

/-- The loop with candidates that are all answered. -/
theorem updateLoop_answered (h : standing port user ks i = none) :
    updateLoop port user ks i = (choice port user ks i, ncclSuccess) := by
  induction ks generalizing i with
  | nil => rfl
  | cons k ks ih =>
    rw [standing] at h
    rw [updateLoop, choice, List.foldl_cons]
    obtain ⟨hrefused, -⟩ | ⟨hanswered, htakes, heq⟩ | ⟨hanswered, htakes, heq⟩ :=
      update_cases port user k i
    · rw [if_pos hrefused] at h
      cases h
    · rw [if_neg hanswered, if_pos htakes] at h
      rw [heq, if_pos htakes]
      exact ih h
    · rw [if_neg hanswered, if_neg htakes] at h
      rw [heq, if_neg htakes]
      exact ih h

/-- What `ncclIbGetGidIndex` leaves when a question is refused. -/
theorem getGidIndex_refused (h : earlyStop x portAttr old = some j) :
    ncclIbGetGidIndex x.port x.user portAttr old = (j, ncclSystemError) := by
  unfold earlyStop at h
  unfold ncclIbGetGidIndex
  simp only
  split at h
  · rename_i hib
    rw [if_pos hib]
    split at h
    · rename_i hask
      cases h
      rw [if_pos hask.1]
      obtain ⟨-, hq⟩ | ⟨hanswered, -⟩ := queryGid_eq x.port 0 x.user.routableFlidGidIndex
      · rw [hq]
      · rw [hask.2] at hanswered
        cases hanswered
    · cases h
  rename_i hib
  rw [if_neg hib]
  split at h
  · cases h
  rename_i hauto
  rw [if_neg hauto]
  exact updateLoop_refused h

/-- What it leaves when all questions are answered. -/
theorem getGidIndex_answered (h : earlyStop x portAttr old = none) :
    ncclIbGetGidIndex x.port x.user portAttr old = (lastIndex x portAttr, ncclSuccess) := by
  unfold earlyStop at h
  unfold ncclIbGetGidIndex lastIndex
  simp only
  split at h
  · rename_i hib
    rw [if_pos hib, if_pos hib]
    split at h
    · cases h
    rename_i hanswered
    by_cases hask : x.user.routableFlidGidIndex < portAttr.gid_tbl_len
    · rw [if_pos hask]
      obtain ⟨hrefused, -⟩ | ⟨-, hq⟩ := queryGid_eq x.port 0 x.user.routableFlidGidIndex
      · exact absurd ⟨hask, hrefused⟩ hanswered
      rw [hq]
      simp only [hask, true_and]
      split
      · rfl
      · rfl
    · rw [if_neg hask, if_neg (fun h => hask h.1)]
  rename_i hib
  rw [if_neg hib, if_neg hib]
  split at h
  · rename_i hset
    rw [if_pos hset, if_pos hset]
  rename_i hauto
  rw [if_neg hauto, if_neg hauto]
  exact updateLoop_answered h

/-! ## The record after a refresh -/

/-- When a question is refused, the record has the new link layer and the index that
stands, with the old GID. -/
theorem gidInfoQuery_refused (hattr : x.portAttr = some portAttr) (context portNum : Nat)
    (gidInfo : NcclIbGidInfo) (h : x.stops portAttr old = some j) :
    ∃ res, res ≠ ncclSuccess ∧
      ncclIbGidInfoQuery (x.env old).toGidEnv context portNum portAttr gidInfo =
        ({ gidInfo with link_layer := portAttr.link_layer, localGidIndex := j }, res) := by
  unfold GidRefresh.stops at h
  unfold ncclIbGidInfoQuery GidRefresh.env
  simp only
  split at h
  · rename_i j' hstop
    cases h
    rw [getGidIndex_refused hstop]
    exact ⟨ncclSystemError, by decide, rfl⟩
  rename_i hstop
  rw [getGidIndex_answered hstop, hattr]
  simp only [ne_eq, not_true_eq_false, if_false]
  split at h
  · rename_i hlast
    cases h
    by_cases hneg : lastIndex x portAttr < 0
    · rw [if_pos hneg]
      exact ⟨ncclInternalError, by decide, rfl⟩
    rw [if_neg hneg]
    obtain ⟨-, hq⟩ | ⟨hanswered, -⟩ :=
      queryGid_eq x.port portAttr.gid_tbl_len (lastIndex x portAttr)
    · rw [Option.elim_some, hq]
      exact ⟨ncclSystemError, by decide, rfl⟩
    · rw [hlast.resolve_left hneg] at hanswered
      cases hanswered
  · cases h

/-- When every question is answered, the record is an entry of the table. -/
theorem gidInfoQuery_answered (hattr : x.portAttr = some portAttr) (context portNum : Nat)
    (gidInfo : NcclIbGidInfo) (h : x.stops portAttr old = none) :
    ncclIbGidInfoQuery (x.env old).toGidEnv context portNum portAttr gidInfo =
      (⟨portAttr.link_layer, (x.port.entry (lastIndex x portAttr)).gid.number,
        lastIndex x portAttr⟩, ncclSuccess) := by
  unfold GidRefresh.stops at h
  unfold ncclIbGidInfoQuery GidRefresh.env
  simp only
  split at h
  · cases h
  rename_i hstop
  rw [getGidIndex_answered hstop, hattr]
  simp only [ne_eq, not_true_eq_false, if_false]
  split at h
  · cases h
  rename_i hlast
  rw [not_or] at hlast
  rw [if_neg hlast.1]
  obtain ⟨hrefused, -⟩ | ⟨-, hq⟩ := queryGid_eq x.port portAttr.gid_tbl_len (lastIndex x portAttr)
  · exact absurd hrefused hlast.2
  · rw [Option.elim_some, hq]
    rfl

/-- A device that is not on Ethernet is left alone. -/
theorem refresh_ignored (h : dev.gidInfo.link_layer ≠ IBV_LINK_LAYER_ETHERNET) :
    x.run dev = (dev, ncclSuccess) := by
  unfold GidRefresh.run ncclIbEventGidChange
  rw [if_pos h]

/-- Without the attributes of the port nothing changes. -/
theorem refresh_untold (h : dev.gidInfo.link_layer = IBV_LINK_LAYER_ETHERNET)
    (hattr : x.portAttr = none) : x.run dev = (dev, ncclSystemError) := by
  unfold GidRefresh.run ncclIbEventGidChange
  rw [if_neg (not_not.mpr h)]
  unfold GidRefresh.env
  rw [hattr]
  rfl

theorem refresh_refused (h : dev.gidInfo.link_layer = IBV_LINK_LAYER_ETHERNET)
    (hattr : x.portAttr = some portAttr)
    (hstop : x.stops portAttr dev.gidInfo.localGidIndex = some j) :
    ∃ res, res ≠ ncclSuccess ∧ x.run dev = ({ dev with gidInfo :=
      { dev.gidInfo with link_layer := portAttr.link_layer, localGidIndex := j } }, res) := by
  obtain ⟨res, hres, hquery⟩ :=
    gidInfoQuery_refused hattr dev.context dev.portNum dev.gidInfo hstop
  have hport : (x.env dev.gidInfo.localGidIndex).queryPort dev.context dev.portNum =
      .ok portAttr := by
    unfold GidRefresh.env
    rw [hattr]
    rfl
  refine ⟨res, hres, ?_⟩
  unfold GidRefresh.run ncclIbEventGidChange
  rw [if_neg (not_not.mpr h), hport]
  simp only
  rw [hquery, if_pos hres]

theorem refresh_answered (h : dev.gidInfo.link_layer = IBV_LINK_LAYER_ETHERNET)
    (hattr : x.portAttr = some portAttr)
    (hstop : x.stops portAttr dev.gidInfo.localGidIndex = none) :
    ∃ gidInfo, Paired x.port.entry gidInfo ∧ gidInfo.link_layer = portAttr.link_layer ∧
      x.run dev = ({ dev with gidInfo, portAttr }, ncclSuccess) := by
  have hquery := gidInfoQuery_answered hattr dev.context dev.portNum dev.gidInfo hstop
  have hport : (x.env dev.gidInfo.localGidIndex).queryPort dev.context dev.portNum =
      .ok portAttr := by
    unfold GidRefresh.env
    rw [hattr]
    rfl
  refine ⟨⟨portAttr.link_layer, (x.port.entry (lastIndex x portAttr)).gid.number,
    lastIndex x portAttr⟩, rfl, rfl, ?_⟩
  unfold GidRefresh.run ncclIbEventGidChange
  rw [if_neg (not_not.mpr h), hport]
  simp only
  rw [hquery, if_neg (not_not.mpr rfl)]

/-- A refresh is all or nothing exactly when a refused question finds the index of the
record standing. -/
theorem allOrNothing_iff (x : GidRefresh) (dev : NcclIbDev) :
    AllOrNothing x dev ↔ x.StopsInPlace dev := by
  constructor
  · intro h portAttr j heth hattr hstop
    obtain ⟨res, hres, hrun⟩ := refresh_refused heth hattr hstop
    have hsame := (h.nothing (by rw [hrun]; exact hres)).1
    rw [hrun] at hsame
    exact ⟨(congrArg NcclIbGidInfo.link_layer hsame).trans heth,
      congrArg NcclIbGidInfo.localGidIndex hsame⟩
  intro h
  by_cases heth : dev.gidInfo.link_layer = IBV_LINK_LAYER_ETHERNET
  · refine ⟨?_, fun _ => ?_, fun hne => absurd heth hne⟩
    · intro hres
      cases hattr : x.portAttr with
      | none =>
        rw [refresh_untold heth hattr]
        exact ⟨rfl, rfl⟩
      | some portAttr =>
        cases hstop : x.stops portAttr dev.gidInfo.localGidIndex with
        | none =>
          obtain ⟨gidInfo, -, -, hrun⟩ := refresh_answered heth hattr hstop
          rw [hrun] at hres
          exact absurd rfl hres
        | some j =>
          obtain ⟨res, -, hrun⟩ := refresh_refused heth hattr hstop
          obtain ⟨hlink, rfl⟩ := h portAttr j heth hattr hstop
          rw [hrun, hlink, ← heth]
          exact ⟨rfl, rfl⟩
    · intro hres
      cases hattr : x.portAttr with
      | none =>
        rw [refresh_untold heth hattr] at hres
        cases hres
      | some portAttr =>
        cases hstop : x.stops portAttr dev.gidInfo.localGidIndex with
        | none =>
          obtain ⟨gidInfo, hpaired, hlink, hrun⟩ := refresh_answered heth hattr hstop
          rw [hrun]
          exact ⟨hpaired, rfl, hlink⟩
        | some j =>
          obtain ⟨res, hne, hrun⟩ := refresh_refused heth hattr hstop
          rw [hrun] at hres
          exact absurd hres hne
  · refine ⟨?_, fun h => absurd h heth, fun _ => refresh_ignored heth⟩
    rw [refresh_ignored heth]
    exact fun hres => absurd rfl hres

end

/-! ## Snapshots -/

/-- `ncclIbGidInfoSnapshot`: the record that a comm keeps. -/
def ncclIbGidInfoSnapshot (ibDev : NcclIbDev) : NcclIbGidInfo := ibDev.gidInfo

/-- A device and the tables that it was read from, the latest first. -/
structure GidHistory where
  dev : NcclIbDev
  tables : List (Int → GidEntry)

/-- The runs of a device that starts with an entry of a table, in which refreshes that
fail stop in place. -/
def refreshSystem : System GidHistory where
  init := fun h => ∃ table, h.tables = [table] ∧ Paired table h.dev.gidInfo
  step := fun h h' => ∃ x : GidRefresh, x.StopsInPlace h.dev ∧
    h' = ⟨(x.run h.dev).1, x.port.entry :: h.tables⟩

/-- A snapshot comes from one of the tables. -/
def GidHistory.Sound (h : GidHistory) : Prop :=
  ∃ table ∈ h.tables, Paired table (ncclIbGidInfoSnapshot h.dev)

theorem refresh_sound {h : GidHistory} (hsound : h.Sound) {x : GidRefresh}
    (hstop : x.StopsInPlace h.dev) :
    GidHistory.Sound ⟨(x.run h.dev).1, x.port.entry :: h.tables⟩ := by
  have hall := (allOrNothing_iff x h.dev).mpr hstop
  obtain ⟨table, htable, hpaired⟩ := hsound
  have hold : (x.run h.dev).1.gidInfo = h.dev.gidInfo →
      GidHistory.Sound ⟨(x.run h.dev).1, x.port.entry :: h.tables⟩ := by
    intro hsame
    refine ⟨table, List.mem_cons_of_mem _ htable, ?_⟩
    unfold ncclIbGidInfoSnapshot at hpaired ⊢
    rw [hsame]
    exact hpaired
  by_cases heth : h.dev.gidInfo.link_layer = IBV_LINK_LAYER_ETHERNET
  · by_cases hres : (x.run h.dev).2 = ncclSuccess
    · exact ⟨x.port.entry, List.mem_cons_self .., (hall.all heth hres).1⟩
    · exact hold (hall.nothing hres).1
  · apply hold
    rw [hall.ignored heth]

/-- A refresh is all or nothing exactly when a refused question finds the port on
Ethernet and the index of the record standing. In every run of such refreshes, a snapshot
pairs an index with the GID that one table has there. -/
theorem a_refresh_is_all_or_nothing_iff (x : GidRefresh) (dev : NcclIbDev) (h : GidHistory) :
    (AllOrNothing x dev ↔ x.StopsInPlace dev) ∧ (Reachable refreshSystem h → h.Sound) := by
  refine ⟨allOrNothing_iff x dev, ?_⟩
  intro hreach
  apply hreach.invariant
  · rintro h ⟨table, htables, hpaired⟩
    exact ⟨table, by rw [htables]; exact List.mem_cons_self .., hpaired⟩
  · rintro h h' - hsound ⟨x, hstop, rfl⟩
    exact refresh_sound hsound hstop

/-- An Ethernet device with this record. -/
def roceDev (gidInfo : NcclIbGidInfo) : NcclIbDev :=
  { context := 1, portNum := 1, portAttr := roceAttr, gidInfo, pciPath := none, fullPciPath := []
    railId := -1, planeId := -1, planeIdx := 0, realPort := 0, fatalErrorCount := 0 }

/-- The device has index 0 of `oneAddress`. -/
def oldDev : NcclIbDev := roceDev ⟨IBV_LINK_LAYER_ETHERNET, (oneAddress.entry 0).gid.number, 0⟩

/-- Every question is answered. -/
def answered : GidRefresh := ⟨oneAddress, wantsV2, some roceAttr⟩

/-- The GID of index 1 is refused in the end. -/
def refusedAtLast : GidRefresh where
  port := { oneAddress with refuses := fun k i => k = 2 && i = 1 }
  user := wantsV2
  portAttr := some roceAttr

/-- The record moves to index 1, and a refresh that is refused there leaves it as it is. -/
theorem a_refresh_stops_in_place :
    (answered.run oldDev).1.gidInfo.localGidIndex = 1 ∧
      (refusedAtLast.run (answered.run oldDev).1).2 = ncclSystemError ∧
      GidHistory.Sound ⟨(refusedAtLast.run (answered.run oldDev).1).1,
        [refusedAtLast.port.entry, oneAddress.entry, oneAddress.entry]⟩ := by
  refine ⟨by decide, by decide, ?_⟩
  have hinit : Reachable refreshSystem ⟨oldDev, [oneAddress.entry]⟩ :=
    .init ⟨oneAddress.entry, rfl, rfl⟩
  have hanswered : Reachable refreshSystem
      ⟨(answered.run oldDev).1, [oneAddress.entry, oneAddress.entry]⟩ := by
    refine hinit.step ⟨answered, fun portAttr j _ hattr hstop => ?_, rfl⟩
    cases hattr
    have hnone : answered.stops roceAttr 0 = none := by decide
    cases hnone.symm.trans hstop
  refine (a_refresh_is_all_or_nothing_iff refusedAtLast oldDev _).2
    (hanswered.step ⟨refusedAtLast, fun portAttr j _ hattr hstop => ?_, rfl⟩)
  cases hattr
  have hone : refusedAtLast.stops roceAttr 1 = some 1 := by decide
  cases hone.symm.trans hstop
  exact ⟨rfl, rfl⟩

/-- The record is left with index 1 and the GID of index 0. -/
theorem a_refused_gid_leaves_a_new_index :
    ¬AllOrNothing refusedAtLast oldDev := by
  intro h
  have hsame := congrArg NcclIbGidInfo.localGidIndex (h.nothing (by decide)).1
  exact absurd hsame (by decide)

end net_ib
