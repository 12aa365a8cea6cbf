-- The threads that read the asynchronous events of the devices (common.cc, init.cc).
-- Each device gets a thread when it is discovered, with a pointer to its entry of
-- ncclIbDevs. The thread reads the context of the entry and blocks on it. When all
-- devices are there, the entries are sorted in place, and the thread that blocks
-- does not notice.
import MrcPlugin.IbDevs
import MrcPlugin.Lib.Runs

namespace net_ib

open runs

/-! ## An event -/

/-- The events that change an entry of `ncclIbDevs`, and all others. -/
inductive IbvEventType
  | IBV_EVENT_DEVICE_FATAL
  | IBV_EVENT_GID_CHANGE
  | other
deriving DecidableEq, Repr

/-- What the provider answers while an event is handled, and whether the event can be
acknowledged. -/
structure EventEnv extends GidEnv where
  queryPort : Nat → Nat → Except NcclResult IbvPortAttr
  ackOk : Bool

/-- `ncclIbDevFatalError`. -/
def ncclIbDevFatalError (dev : NcclIbDev) : NcclIbDev :=
  { dev with fatalErrorCount := dev.fatalErrorCount + 1 }

/-- `ncclIbEventGidChange`: the entry and the result. -/
def ncclIbEventGidChange (env : EventEnv) (dev : NcclIbDev) : NcclIbDev × NcclResult :=
  if dev.gidInfo.link_layer ≠ IBV_LINK_LAYER_ETHERNET then (dev, ncclSuccess)
  else
    match env.queryPort dev.context dev.portNum with
    | .error res => (dev, res)
    | .ok portAttr =>
      let (gidInfo, res) :=
        ncclIbGidInfoQuery env.toGidEnv dev.context dev.portNum portAttr dev.gidInfo
      if res ≠ ncclSuccess then ({ dev with gidInfo }, res)
      else ({ dev with gidInfo, portAttr }, ncclSuccess)

/-- The entry after one turn of the loop of `ncclIbAsyncThreadMain`. -/
def handleAsyncEvent (env : EventEnv) (event : IbvEventType) (dev : NcclIbDev) : NcclIbDev :=
  match event with
  | .IBV_EVENT_DEVICE_FATAL => ncclIbDevFatalError dev
  | .IBV_EVENT_GID_CHANGE =>
    let (dev, res) := ncclIbEventGidChange env dev
    if res ≠ ncclSuccess then ncclIbDevFatalError dev else dev
  | .other => dev

theorem handleAsyncEvent_context (env : EventEnv) (event : IbvEventType) (dev : NcclIbDev) :
    (handleAsyncEvent env event dev).context = dev.context := by
  cases event with
  | IBV_EVENT_DEVICE_FATAL => rfl
  | IBV_EVENT_GID_CHANGE =>
    have hchange : (ncclIbEventGidChange env dev).1.context = dev.context := by
      unfold ncclIbEventGidChange
      split
      · rfl
      split
      · rfl
      · simp only
        split <;> rfl
    unfold handleAsyncEvent
    simp only
    split
    · exact hchange
    · exact hchange
  | other => rfl

/-! ## The runs -/

/-- Where a thread stands: it is about to read the context of its entry, or it blocks
on a context. -/
inductive AsyncThread
  | reading
  | blocked (context : Nat)
  | ended
deriving DecidableEq, Repr

/-- The entries of `ncclIbDevs` and the thread of each of them. -/
structure AsyncRun where
  devs : List NcclIbDev
  threads : List AsyncThread
  initialised : Bool
deriving DecidableEq, Repr

inductive AsyncAct
  | discover
  | sort
  | read (i : Nat)
  | event (i : Nat) (event : IbvEventType) (env : EventEnv)
  | stop (i : Nat)

/-- One step, where `devs` are the devices in the order of their discovery and `sorted`
is the order that the sort leaves them in. Events come after the initialisation. -/
def AsyncRun.next (devs sorted : List NcclIbDev) : AsyncAct → AsyncRun → Option AsyncRun
  | .discover, x =>
    if x.initialised then none
    else
      match devs[x.devs.length]? with
      | none => none
      | some dev => some { x with devs := x.devs ++ [dev], threads := x.threads ++ [.reading] }
  | .sort, x =>
    if x.initialised ∨ x.devs.length ≠ devs.length then none
    else some { x with devs := sorted, initialised := true }
  | .read i, x =>
    match x.threads[i]?, x.devs[i]? with
    | some .reading, some dev => some { x with threads := x.threads.set i (.blocked dev.context) }
    | _, _ => none
  | .event i event env, x =>
    if !x.initialised then none
    else
      match x.threads[i]?, x.devs[i]? with
      | some (.blocked _), some dev =>
        some { x with
          devs := x.devs.set i (handleAsyncEvent env event dev)
          threads := x.threads.set i (if env.ackOk then .reading else .ended) }
      | _, _ => none
  | .stop i, x =>
    match x.threads[i]? with
    | some (.blocked _) => some { x with threads := x.threads.set i .ended }
    | _ => none

/-- The runs of the threads of these devices. -/
def asyncSystem (devs sorted : List NcclIbDev) : System AsyncRun where
  init := fun x => x = ⟨[], [], false⟩
  step := fun x y => ∃ act, x.next devs sorted act = some y

/-! ## The property -/

/-- The event of context `c` is accounted to one entry, whose context is `c`, and to no
other one. -/
def Accounted (c : Nat) (env : EventEnv) (event : IbvEventType) (before after : List NcclIbDev) :
    Prop :=
  ∃ k dev, before[k]? = some dev ∧ dev.context = c ∧
    after = before.set k (handleAsyncEvent env event dev)

/-- In every run, an event that a thread has read from a context is accounted to the
entry with that context. -/
def EventsReachTheirDevice (devs sorted : List NcclIbDev) : Prop :=
  ∀ x y i c event env, Reachable (asyncSystem devs sorted) x →
    x.threads[i]? = some (.blocked c) → event ≠ .other →
    x.next devs sorted (.event i event env) = some y → Accounted c env event x.devs y.devs

section
variable {devs sorted : List NcclIbDev}

theorem PciOrder.perm {devicePciOrder : Int} (h : PciOrder devicePciOrder devs sorted) :
    sorted.Perm devs := by
  unfold PciOrder at h
  split at h
  · exact h.perm
  · exact h ▸ List.Perm.refl _

/-! ## When no context moves -/

/-- The entries and the threads have the contexts of the discovery. -/
structure AsyncGood (devs : List NcclIbDev) (x : AsyncRun) : Prop where
  entry : ∀ (i : Nat) (dev : NcclIbDev), x.devs[i]? = some dev →
    (devs.map NcclIbDev.context)[i]? = some dev.context
  thread : ∀ (i c : Nat), x.threads[i]? = some (AsyncThread.blocked c) →
    (devs.map NcclIbDev.context)[i]? = some c
  length : x.threads.length = x.devs.length

/-- A thread that does not block after the step is as good as before. -/
theorem AsyncGood.unblock {x : AsyncRun} (h : AsyncGood devs x) {i : Nat} {pc : AsyncThread}
    (hpc : ∀ c, pc ≠ .blocked c) : AsyncGood devs { x with threads := x.threads.set i pc } := by
  refine ⟨h.entry, fun j c hj => ?_, (List.length_set ..).trans h.length⟩
  rw [List.getElem?_set] at hj
  split at hj
  · split at hj
    · cases hj
      exact absurd rfl (hpc c)
    · cases hj
  · exact h.thread j c hj

theorem AsyncGood.next {act : AsyncAct} {x y : AsyncRun} (h : AsyncGood devs x)
    (hsame : sorted.map NcclIbDev.context = devs.map NcclIbDev.context)
    (hnext : x.next devs sorted act = some y) : AsyncGood devs y := by
  cases act with
  | discover =>
    simp only [AsyncRun.next] at hnext
    split at hnext
    · cases hnext
    split at hnext
    · cases hnext
    rename_i dev hdev
    cases hnext
    refine ⟨fun i dev' hi => ?_, fun i c hi => ?_, ?_⟩
    · rw [List.getElem?_append] at hi
      split at hi
      · exact h.entry i dev' hi
      · rename_i hlt
        rw [List.getElem?_singleton] at hi
        split at hi
        · cases hi
          obtain rfl : i = x.devs.length := by omega
          rw [List.getElem?_map, hdev]
          rfl
        · cases hi
    · rw [List.getElem?_append] at hi
      split at hi
      · exact h.thread i c hi
      · rw [List.getElem?_singleton] at hi
        split at hi <;> cases hi
    · simp [h.length]
  | sort =>
    simp only [AsyncRun.next] at hnext
    split at hnext
    · cases hnext
    rename_i hall
    rw [not_or, not_not] at hall
    cases hnext
    refine ⟨fun i dev hi => ?_, h.thread, ?_⟩
    · rw [← hsame, List.getElem?_map, hi]
      rfl
    · have hlength := congrArg List.length hsame
      simp only [List.length_map] at hlength
      exact h.length.trans (hall.2.trans hlength.symm)
  | read i =>
    simp only [AsyncRun.next] at hnext
    split at hnext
    · rename_i dev _ hdev
      cases hnext
      refine ⟨h.entry, fun j c hj => ?_, (List.length_set ..).trans h.length⟩
      rw [List.getElem?_set] at hj
      split at hj
      · rename_i hij
        subst hij
        split at hj
        · cases hj
          exact h.entry i dev hdev
        · cases hj
      · exact h.thread j c hj
    · cases hnext
  | event i event env =>
    simp only [AsyncRun.next] at hnext
    split at hnext
    · cases hnext
    split at hnext
    · rename_i c dev _ hdev
      cases hnext
      have hmoved : AsyncGood devs { x with devs := x.devs.set i (handleAsyncEvent env event dev) } := by
        refine ⟨fun j dev' hj => ?_, h.thread, h.length.trans (List.length_set ..).symm⟩
        rw [List.getElem?_set] at hj
        split at hj
        · rename_i hij
          subst hij
          split at hj
          · cases hj
            rw [handleAsyncEvent_context]
            exact h.entry i dev hdev
          · cases hj
        · exact h.entry j dev' hj
      apply hmoved.unblock
      intro c
      split <;> simp
    · cases hnext
  | stop i =>
    simp only [AsyncRun.next] at hnext
    split at hnext
    · cases hnext
      exact h.unblock (fun c => by simp)
    · cases hnext

theorem events_reach_of_same (hsame : sorted.map NcclIbDev.context = devs.map NcclIbDev.context) :
    EventsReachTheirDevice devs sorted := by
  intro x y i c event env hr hblocked _ hnext
  have hgood : AsyncGood devs x := by
    refine hr.invariant (P := AsyncGood devs) ?_ ?_
    · rintro x rfl
      exact ⟨by simp, by simp, rfl⟩
    · rintro x y - hx ⟨act, hact⟩
      exact hx.next hsame hact
  simp only [AsyncRun.next] at hnext
  split at hnext
  · cases hnext
  split at hnext
  · rename_i c' dev hthread hdev
    cases hnext
    refine ⟨i, dev, hdev, ?_, rfl⟩
    have hentry := hgood.entry i dev hdev
    rw [hgood.thread i c hblocked] at hentry
    exact (Option.some.inj hentry).symm
  · cases hnext

/-! ## When one moves -/

/-- The first devices are discovered, and no thread has read its context. -/
theorem reachable_discovered (sorted : List NcclIbDev) (n : Nat) (hn : n ≤ devs.length) :
    Reachable (asyncSystem devs sorted) ⟨devs.take n, List.replicate n .reading, false⟩ := by
  induction n with
  | zero => exact Reachable.init rfl
  | succ n ih =>
    refine (ih (by omega)).step ⟨.discover, ?_⟩
    have hlength : (devs.take n).length = n := by
      rw [List.length_take]
      omega
    simp only [AsyncRun.next, hlength, List.getElem?_eq_getElem (show n < devs.length by omega),
      Bool.false_eq_true, if_false, List.replicate_succ', List.take_succ_eq_append_getElem
        (show n < devs.length by omega)]

/-- A thread that blocks while its entry gets another context accounts the next event
to the wrong entry. -/
theorem same_of_events_reach (hlength : sorted.length = devs.length)
    (h : EventsReachTheirDevice devs sorted) :
    sorted.map NcclIbDev.context = devs.map NcclIbDev.context := by
  apply List.ext_getElem
  · rw [List.length_map, List.length_map, hlength]
  intro i hi hi'
  rw [List.length_map] at hi hi'
  rw [List.getElem_map, List.getElem_map]
  let env : EventEnv := ⟨GidEnv.failing, fun _ _ => .error ncclSystemError, true⟩
  have hthread : i < (List.replicate devs.length AsyncThread.reading).length := by
    rw [List.length_replicate]
    exact hi'
  -- All devices are discovered, thread `i` blocks, and the sort comes after that.
  have hread := (reachable_discovered sorted devs.length (Nat.le_refl _)).step
    (t := ⟨devs, (List.replicate devs.length .reading).set i (.blocked devs[i].context), false⟩)
    ⟨.read i, by
      simp only [AsyncRun.next, List.take_length, List.getElem?_eq_getElem hthread,
        List.getElem_replicate, List.getElem?_eq_getElem hi']⟩
  have hsort := hread.step
    (t := ⟨sorted, (List.replicate devs.length .reading).set i (.blocked devs[i].context), true⟩)
    ⟨.sort, by simp only [AsyncRun.next, Bool.false_eq_true, ne_eq, not_true_eq_false, or_self,
      if_false]⟩
  have hblocked : ((List.replicate devs.length AsyncThread.reading).set i
      (.blocked devs[i].context))[i]? = some (.blocked devs[i].context) := by
    rw [List.getElem?_set_self hthread]
  obtain ⟨k, dev, hk, hcontext, hafter⟩ := h _ _ i _ .IBV_EVENT_DEVICE_FATAL env hsort hblocked
    (by simp) (by
      simp only [AsyncRun.next, hblocked, List.getElem?_eq_getElem hi]
      rfl)
  -- The counter of entry `i` is the one that was raised.
  have hki : k = i := by
    by_contra hne
    have hentry := congrArg (fun l => l[i]?) hafter
    simp only [List.getElem?_set_self hi, List.getElem?_set_ne hne,
      List.getElem?_eq_getElem hi] at hentry
    have hcount := congrArg NcclIbDev.fatalErrorCount (Option.some.inj hentry)
    exact absurd hcount (Nat.succ_ne_self _)
  subst hki
  rw [List.getElem?_eq_getElem hi] at hk
  cases hk
  exact hcontext

end

/-! ## The law -/

/-- The events reach their device in every run exactly when the sort leaves every
context in the place where its device was discovered. -/
theorem events_reach_their_device_iff (devicePciOrder : Int) (devs sorted : List NcclIbDev)
    (h : PciOrder devicePciOrder devs sorted) :
    EventsReachTheirDevice devs sorted ↔
      sorted.map NcclIbDev.context = devs.map NcclIbDev.context :=
  ⟨same_of_events_reach h.perm.length_eq, events_reach_of_same⟩

/-- A device on InfiniBand with this context and this bus number. -/
def plainDev (context : Nat) (path : String) : NcclIbDev :=
  { context, portNum := 1, portAttr := ⟨1, 5, IBV_LINK_LAYER_INFINIBAND, 0, 2⟩
    gidInfo := ⟨IBV_LINK_LAYER_INFINIBAND, 0, 0⟩, pciPath := some path.toList
    fullPciPath := path.toList, railId := -1, planeId := -1, planeIdx := 0, realPort := 0
    fatalErrorCount := 0 }

/-- Two devices that are discovered against the order of their bus numbers. -/
def reversedDevs : List NcclIbDev :=
  [plainDev 101 "/sys/devices/pci0000:80/0000:81:00.0", plainDev 102 "/sys/devices/pci0000:00/0000:01:00.0"]

theorem unsorted_devices_keep_their_events : EventsReachTheirDevice reversedDevs reversedDevs :=
  (events_reach_their_device_iff 0 reversedDevs reversedDevs (by simp [PciOrder])).mpr rfl

/-- The sort exchanges them, and an event of the first one can raise the counter of the
second. -/
theorem sorted_devices_exchange_their_events :
    PciOrder 1 reversedDevs reversedDevs.reverse ∧
      ¬ EventsReachTheirDevice reversedDevs reversedDevs.reverse := by
  refine ⟨⟨List.reverse_perm _, by decide⟩, fun h => ?_⟩
  have hsame : reversedDevs.reverse.map NcclIbDev.context = reversedDevs.map NcclIbDev.context :=
    same_of_events_reach rfl h
  exact absurd hsame (by decide)

end net_ib
