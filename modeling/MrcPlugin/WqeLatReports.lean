-- The reports of the latency monitor (net_ib/wqe_lat_mon.cc): one for a slow request when
-- it completes, one for a stall while it is still in flight. Each kind has a limiter of
-- its own in the monitor of the QP.
import MrcPlugin.Lib.Limiter
import MrcPlugin.WqeLatStats

namespace net_ib.latmon

open p2p runs limiter

/-! ## The reports -/

/-- A QP with its monitor, when its requests were found slow or stalled, and when each was
reported. -/
structure Watched (K : Type) where
  world : World K
  slowAt : List Nat
  slowReports : List Nat
  stalledAt : List Nat
  stallReports : List Nat

/-- The times at which something that was found at `found` is reported: each is a time at
which it was found, two are a second apart or the first is the zero of the clock, and what
is not reported was reported less than a second before. -/
structure Rationed (found reports : List Nat) : Prop where
  among : reports.Sublist found
  spaced : reports.Pairwise fun t u => t = 0 ∨ t + kReportIntervalNs ≤ u
  answered : ∀ t ∈ found, ∃ u ∈ reports, u ≤ t ∧ t < u + kReportIntervalNs
  windows : ∀ a > 0, (reports.filter fun u => a ≤ u ∧ u < a + kReportIntervalNs).length ≤ 1

section
variable {K : Type} [Field K] [LinearOrder K]

def Watched.start : Watched K := ⟨World.start, [], [], [], []⟩

def Watched.post (w : Watched K) (nowNs : Nat) (wrs : List IbvSendWr) : Watched K :=
  { w with world := w.world.post nowNs wrs }

/-- `ncclIbWqeLatHandleCompletion`: a report goes out if the monitor says so. -/
def Watched.completed [FloorRing K] (w : Watched K) (thresholdNs nowNs : Nat)
    (out : OnComplete K) (mon : NcclIbWqeLatMon K) (sample : Option Sample)
    (tracker : Tracker) : Watched K :=
  { w with
    world := w.world.completed nowNs out mon sample tracker
    slowAt := if thresholdNs < out.deltaNs then w.slowAt ++ [nowNs] else w.slowAt
    slowReports := if out.report then w.slowReports ++ [nowNs] else w.slowReports }

/-- `ncclIbWqeLatScanStalls` at one QP. -/
def Watched.scan (w : Watched K) (thresholdNs nowNs : Nat) : Watched K :=
  let (report, age, _, _) := ncclIbWqeLatMonCheckStall thresholdNs w.world.mon nowNs
  { w with
    world := w.world.scan thresholdNs nowNs
    stalledAt := if thresholdNs < age then w.stalledAt ++ [nowNs] else w.stalledAt
    stallReports := if report then w.stallReports ++ [nowNs] else w.stallReports }

variable [FloorRing K]

/-- The steps of a QP, at times of 64 bits. -/
inductive WatchedStep (depth : UInt32) (sqrt : K → K) (thresholdNs : Nat) :
    Watched K → Watched K → Prop
  | post {w : Watched K} (nowNs : Nat) (wrs : List IbvSendWr)
      (hclock : w.world.clockNs ≤ nowNs) (htime : nowNs < 2 ^ 64)
      (hroom : (w.world.tracker.post nowNs wrs).queue.length ≤ depth.toNat) :
      WatchedStep depth sqrt thresholdNs w (w.post nowNs wrs)
  | complete {w : Watched K} (nowNs : Nat) {out : OnComplete K} {mon : NcclIbWqeLatMon K}
      {sample : Option Sample} {tracker : Tracker}
      (hclock : w.world.clockNs ≤ nowNs) (htime : nowNs < 2 ^ 64)
      (hqueue : w.world.tracker.complete nowNs = some (sample, tracker))
      (hmon : ncclIbWqeLatMonOnComplete sqrt thresholdNs w.world.mon nowNs =
        some (out, mon)) :
      WatchedStep depth sqrt thresholdNs w
        (w.completed thresholdNs nowNs out mon sample tracker)
  | scan {w : Watched K} (nowNs : Nat)
      (hclock : w.world.clockNs ≤ nowNs) (htime : nowNs < 2 ^ 64) :
      WatchedStep depth sqrt thresholdNs w (w.scan thresholdNs nowNs)

def watched (depth : UInt32) (sqrt : K → K) (thresholdNs : Nat) : System (Watched K) where
  init w := w = Watched.start
  step := WatchedStep depth sqrt thresholdNs

end

/-! ## What the limiters do -/

theorem kReportIntervalNs_pos : 0 < kReportIntervalNs := Nat.succ_pos _

theorem Rationed.of_limited {last now : Nat} {found reports : List Nat}
    (h : Limited kReportIntervalNs last now found reports) : Rationed found reports :=
  ⟨h.among, h.spaced, h.answered, fun _ ha => h.one_in_window ha⟩

/-- The limiter of the monitor: `report` is its answer at `nowNs` if something is found. -/
theorem limited_asked {last now nowNs : Nat} {found reports : List Nat} {event report : Bool}
    (h : Limited kReportIntervalNs last now found reports) (hclock : now ≤ nowNs)
    (htime : nowNs < 2 ^ 64) (hreport : report = true ↔ event = true ∧ Reportable last nowNs) :
    Limited kReportIntervalNs (if report then nowNs else last) nowNs
      (if event then found ++ [nowNs] else found)
      (if report then reports ++ [nowNs] else reports) := by
  have hle : last ≤ nowNs := h.last_le.trans hclock
  have hdistance : u64 ((nowNs : Int) - last) = nowNs - last := by
    rw [u64_of_nonneg (by omega) (by omega)]
    omega
  have hreportable : Reportable last nowNs ↔
      last = 0 ∨ kReportIntervalNs ≤ nowNs - last := by
    unfold Reportable
    rw [hdistance]
  rw [hreportable] at hreport
  cases event with
  | false =>
    have hno : report = false := by
      refine Bool.eq_false_iff.mpr fun hyes => ?_
      exact Bool.noConfusion (hreport.mp hyes).1
    rw [hno]
    exact h.wait hclock
  | true =>
    cases report with
    | true => exact h.pass hclock kReportIntervalNs_pos (hreport.mp rfl).2
    | false =>
      have hclose : ¬(last = 0 ∨ kReportIntervalNs ≤ nowNs - last) := fun hfar =>
        Bool.noConfusion (hreport.mpr ⟨rfl, hfar⟩)
      obtain ⟨hlast, hnear⟩ := not_or.mp hclose
      exact h.refuse hclock hlast (not_le.mp hnear)

section
variable {K : Type} [Field K] [LinearOrder K]

omit [Field K] [LinearOrder K] in
/-- What looking for a stall finds, and whether it is reported. -/
theorem checkStall_cases (thresholdNs nowNs : Nat) (m : NcclIbWqeLatMon K) :
    ∃ report age inflight, ncclIbWqeLatMonCheckStall thresholdNs m nowNs =
      (report, age, inflight,
        { m with lastStallWarnNs := if report then nowNs else m.lastStallWarnNs }) ∧
      (report = true ↔ thresholdNs < age ∧ Reportable m.lastStallWarnNs nowNs) := by
  unfold ncclIbWqeLatMonCheckStall
  split
  · exact ⟨false, 0, 0, rfl, by simp⟩
  split
  · exact ⟨false, 0, 0, rfl, by simp⟩
  dsimp only
  split
  next hage => exact ⟨false, _, _, rfl, by simp [not_lt.mpr hage]⟩
  next hage =>
  split
  next hclose =>
    refine ⟨false, _, _, rfl, ?_⟩
    simp only [Bool.false_eq_true, false_iff]
    rintro ⟨-, hnone | hfar⟩
    · exact hclose.1 hnone
    · exact absurd hclose.2 (not_lt.mpr hfar)
  next hclose =>
    refine ⟨true, _, _, rfl, ?_⟩
    simp only [true_iff]
    refine ⟨not_le.mp hage, ?_⟩
    by_cases hnone : m.lastStallWarnNs = 0
    · exact .inl hnone
    · exact .inr (not_lt.mp fun hnear => hclose ⟨hnone, hnear⟩)

/-- Both limiters of a QP. -/
structure Limits (w : Watched K) : Prop where
  slow : Limited kReportIntervalNs w.world.mon.lastWarnNs w.world.clockNs w.slowAt w.slowReports
  stall : Limited kReportIntervalNs w.world.mon.lastStallWarnNs w.world.clockNs w.stalledAt
    w.stallReports

variable {w : Watched K}

omit [LinearOrder K] in
theorem Watched.start_limits : Limits (Watched.start : Watched K) :=
  ⟨Limited.start _, Limited.start _⟩

omit [Field K] [LinearOrder K] in
theorem Limits.post (h : Limits w) {nowNs : Nat} (wrs : List IbvSendWr)
    (hclock : w.world.clockNs ≤ nowNs) : Limits (w.post nowNs wrs) := by
  obtain ⟨tracking, tracked, pending, inflight, hmon⟩ := stampSend_mon nowNs wrs w.world.mon
  constructor <;> dsimp only [Watched.post, World.post] <;> rw [hmon]
  · exact h.slow.wait hclock
  · exact h.stall.wait hclock

omit [Field K] [LinearOrder K] in
theorem Limits.scan (h : Limits w) (thresholdNs : Nat) {nowNs : Nat}
    (hclock : w.world.clockNs ≤ nowNs) (htime : nowNs < 2 ^ 64) :
    Limits (w.scan thresholdNs nowNs) := by
  obtain ⟨report, age, inflight, hstall, hreport⟩ :=
    checkStall_cases thresholdNs nowNs w.world.mon
  have hevent : report = true ↔ decide (thresholdNs < age) = true ∧
      Reportable w.world.mon.lastStallWarnNs nowNs := by
    rw [decide_eq_true_eq]
    exact hreport
  constructor <;> unfold Watched.scan World.scan <;> rw [hstall] <;> dsimp only
  · exact h.slow.wait hclock
  · simpa only [decide_eq_true_eq] using limited_asked h.stall hclock htime hevent

variable [FloorRing K] {depth : UInt32} {sqrt : K → K} {thresholdNs : Nat}

theorem Limits.complete (h : Limits w) {nowNs : Nat} {out : OnComplete K}
    {mon : NcclIbWqeLatMon K} {sample : Option Sample} {tracker : Tracker}
    (hclock : w.world.clockNs ≤ nowNs) (htime : nowNs < 2 ^ 64)
    (hmon : ncclIbWqeLatMonOnComplete sqrt thresholdNs w.world.mon nowNs = some (out, mon)) :
    Limits (w.completed thresholdNs nowNs out mon sample tracker) := by
  unfold Watched.completed World.completed
  obtain ⟨rfl, pending, rfl⟩ | ⟨delta, p2, -, hdelta, -, hreport, rfl⟩ := onComplete_cases hmon
  · constructor <;> dsimp only
    · rw [if_neg (Nat.not_lt_zero thresholdNs), if_neg Bool.false_ne_true]
      exact h.slow.wait hclock
    · exact h.stall.wait hclock
  · have hevent : out.report = true ↔ decide (thresholdNs < out.deltaNs) = true ∧
        Reportable w.world.mon.lastWarnNs nowNs := by
      rw [decide_eq_true_eq, hdelta]
      exact hreport
    constructor <;> dsimp only
    · simpa only [decide_eq_true_eq] using limited_asked h.slow hclock htime hevent
    · exact h.stall.wait hclock

/-- The limiters keep their word in every run. -/
theorem limits_of_reachable (hw : Reachable (watched depth sqrt thresholdNs) w) : Limits w := by
  refine hw.invariant ?_ ?_
  · rintro w rfl
    exact Watched.start_limits
  · intro w w' _ h hstep
    cases hstep with
    | post nowNs wrs hclock htime hroom => exact h.post wrs hclock
    | complete nowNs hclock htime hqueue hmon => exact h.complete hclock htime hmon
    | scan nowNs hclock htime => exact h.scan thresholdNs hclock htime

/-- A watched run is a run of the monitor and its queue. -/
theorem world_of_watched (hw : Reachable (watched depth sqrt thresholdNs) w) :
    Reachable (system depth sqrt thresholdNs) w.world := by
  refine hw.map (f := Watched.world) ?_ ?_
  · rintro w rfl
    exact rfl
  · intro w w' _ _ hstep
    cases hstep with
    | post nowNs wrs hclock htime hroom => exact .single (Step.post nowNs wrs hclock hroom)
    | complete nowNs hclock htime hqueue hmon =>
      exact .single (Step.complete nowNs hclock hqueue hmon)
    | scan nowNs hclock htime => exact .single (Step.scan nowNs hclock)

variable [IsStrictOrderedRing K]

/-- The slow requests are the samples above the threshold. -/
theorem slowAt_of_reachable (hw : Reachable (watched depth sqrt thresholdNs) w) :
    w.slowAt = (w.world.samples.filter fun s => thresholdNs < s.latency).map Sample.polledNs := by
  refine hw.invariant (P := fun w => w.slowAt =
    (w.world.samples.filter fun s => thresholdNs < s.latency).map Sample.polledNs) ?_ ?_
  · rintro w rfl
    rfl
  · intro w w' hw h hstep
    cases hstep with
    | post nowNs wrs hclock htime hroom => exact h
    | scan nowNs hclock htime => exact h
    | @complete nowNs out mon sample tracker hclock htime hqueue hmon =>
      have hlinked := linked_of_reachable (world_of_watched hw)
      obtain ⟨r, rest, hhead, hcase⟩ := Tracker.complete_cases hqueue
      have hlength : (w.world.recorded.map (Nat.cast : Nat → K)).length =
          w.world.recorded.length := List.length_map _
      obtain ⟨out', mon', hout, hdone⟩ := hlinked.follows.complete sqrt thresholdNs nowNs
        hlinked.order hhead (hlinked.counted.trans hlength.symm) hlinked.estimates
      cases hmon.symm.trans hout
      dsimp only [Watched.completed, World.completed]
      rw [h]
      obtain ⟨htracked, rfl, -⟩ | ⟨htracked, rfl, -⟩ := hcase
      · obtain ⟨-, hdelta, -⟩ | ⟨hnot, -⟩ := hdone
        · rw [hdelta, Option.toList_some, List.filter_append, List.map_append]
          have hlatency : (⟨r, nowNs, w.world.tracker.posted⟩ : Sample).latency =
              nowNs - r.postNs := rfl
          by_cases hslow : thresholdNs < nowNs - r.postNs
          · rw [if_pos hslow, List.filter_cons_of_pos (by simpa [hlatency] using hslow)]
            rfl
          · rw [if_neg hslow, List.filter_cons_of_neg (by simpa [hlatency] using hslow)]
            exact (List.append_nil _).symm
        · exact absurd htracked hnot
      · obtain ⟨htracked', -⟩ | ⟨-, hcount, -⟩ := hdone
        · exact absurd htracked' htracked
        obtain ⟨rfl, -⟩ | ⟨delta, p2, -, -, -, -, rfl⟩ := onComplete_cases hmon
        · rw [if_neg (Nat.not_lt_zero thresholdNs), Option.toList_none, List.append_nil]
        · exact absurd hcount (Nat.succ_ne_self _)

/-- The reports are rationed. In every run the slow requests are the samples of the queue
above the threshold, and of them, as of the stalls, at most one is reported in any second of
the clock, the first one is, and one that is not was preceded by a report less than a second
before. Only at the zero of the clock is a report forgotten. -/
theorem the_reports_are_rationed (hw : Reachable (watched depth sqrt thresholdNs) w) :
    w.slowAt = (w.world.samples.filter fun s => thresholdNs < s.latency).map Sample.polledNs ∧
    Rationed w.slowAt w.slowReports ∧ Rationed w.stalledAt w.stallReports := by
  have h := limits_of_reachable hw
  exact ⟨slowAt_of_reachable hw, .of_limited h.slow, .of_limited h.stall⟩

end

/-- A request that is still in flight after two hundred nanoseconds. -/
theorem the_first_stall_is_reported : ∃ w : Watched ℚ, w.stalledAt = [210, 260] ∧
    w.stallReports = [210] ∧ Rationed w.stalledAt w.stallReports := by
  have hw : Reachable (watched 16 id 100) ((((Watched.start : Watched ℚ).post 10
      [{ IbvSendWr.zero with signaled := true }]).scan 100 210).scan 100 260) :=
    (((Reachable.init rfl).step (WatchedStep.post 10 _ (Nat.zero_le 10) (by decide)
      (by decide))).step (WatchedStep.scan 210 (show 10 ≤ 210 by omega) (by decide))).step
      (WatchedStep.scan 260 (show 210 ≤ 260 by omega) (by decide))
  exact ⟨_, rfl, rfl, (the_reports_are_rationed hw).2.2⟩

end net_ib.latmon
