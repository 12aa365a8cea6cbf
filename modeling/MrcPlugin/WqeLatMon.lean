-- The latency monitor of a QP (net_ib/wqe_lat_mon.cc): it follows one signaled work
-- request at a time and knows only how many were in flight before it. The estimators of
-- the percentiles are those of P2Quantile.
import MrcPlugin.MultiSend
import MrcPlugin.P2Quantile

namespace net_ib.latmon

open p2p

variable {K : Type} [Field K] [LinearOrder K]

/-! ## The monitor -/

/-- `ncclIbWqeLatMon`. The counters and times of 64 bits do not wrap in a run. -/
structure NcclIbWqeLatMon (K : Type) where
  trackedPostNs : Nat
  pendingBefore : Nat
  inflight : Nat
  tracking : Bool
  count : Nat
  meanNs : K
  m2Ns : K
  maxNs : Nat
  slowCount : Nat
  p2 : List (NcclIbP2Quantile K)
  lastWarnNs : Nat
  lastStallWarnNs : Nat

/-- `ncclIbWqeLatStats`. -/
structure NcclIbWqeLatStats (K : Type) where
  count : Nat
  slowCount : Nat
  meanNs : K
  stddevNs : K
  maxNs : Nat
  p50Ns : Nat
  p90Ns : Nat
  p99Ns : Nat
  p999Ns : Nat

/-- The statistics after `memset`. -/
def NcclIbWqeLatStats.zero : NcclIbWqeLatStats K := ⟨0, 0, 0, 0, 0, 0, 0, 0, 0⟩

def kReportIntervalNs : Nat := 1000000000

def kPctlTargets : List K :=
  [(1, 2), (9, 10), (99, 100), (999, 1000)].map fun p : Nat × Nat => (p.1 : K) / (p.2 : K)

/-- `ncclIbWqeLatMonInit`. -/
def ncclIbWqeLatMonInit : NcclIbWqeLatMon K where
  trackedPostNs := 0
  pendingBefore := 0
  inflight := 0
  tracking := false
  count := 0
  meanNs := 0
  m2Ns := 0
  maxNs := 0
  slowCount := 0
  p2 := kPctlTargets.map p2Init
  lastWarnNs := 0
  lastStallWarnNs := 0

/-- One signaled work request of `ncclIbWqeLatMonStampSend`. -/
def stampOne (nowNs : Nat) (m : NcclIbWqeLatMon K) : NcclIbWqeLatMon K :=
  let m :=
    if m.tracking then m
    else { m with tracking := true, trackedPostNs := nowNs, pendingBefore := m.inflight }
  { m with inflight := u32 (m.inflight + 1) }

/-- `ncclIbWqeLatMonStampSend`. The clock is read once, at the first signaled request. -/
def ncclIbWqeLatMonStampSend (nowNs : Nat) (m : NcclIbWqeLatMon K) (wrs : List IbvSendWr) :
    NcclIbWqeLatMon K :=
  wrs.foldl (fun m w => if w.signaled then stampOne nowNs m else m) m

def welfordUpdate (m : NcclIbWqeLatMon K) (deltaNs : Nat) : NcclIbWqeLatMon K :=
  let count := m.count + 1
  let delta : K := deltaNs - m.meanNs
  let meanNs := m.meanNs + delta / count
  { m with
    count
    meanNs
    m2Ns := m.m2Ns + delta * (deltaNs - meanNs)
    maxNs := if deltaNs > m.maxNs then deltaNs else m.maxNs }

section
variable [FloorRing K]

/-- The estimate of percentile number `i`. -/
def percentile (m : NcclIbWqeLatMon K) (i : Nat) : Nat :=
  match m.p2[i]? with
  | some e => p2Estimate e m.count
  | none => 0

/-- `snapshotStats`, with the square root of the C library. -/
def snapshotStats (sqrt : K → K) (m : NcclIbWqeLatMon K) : NcclIbWqeLatStats K where
  count := m.count
  slowCount := m.slowCount
  meanNs := m.meanNs
  stddevNs :=
    if m.count > 1 then
      let var := m.m2Ns / (m.count - 1 : Nat)
      sqrt (if var > 0 then var else 0)
    else 0
  maxNs := m.maxNs
  p50Ns := percentile m 0
  p90Ns := percentile m 1
  p99Ns := percentile m 2
  p999Ns := percentile m 3

/-- What `ncclIbWqeLatMonOnComplete` gives its caller. Without a sample the outputs are
zero. -/
structure OnComplete (K : Type) [Field K] where
  report : Bool := false
  deltaNs : Nat := 0
  postNs : Nat := 0
  stats : NcclIbWqeLatStats K := .zero

/-- `ncclIbWqeLatMonOnComplete`, with the threshold of the environment; `none` is a
division by zero. -/
def ncclIbWqeLatMonOnComplete (sqrt : K → K) (thresholdNs : Nat) (m : NcclIbWqeLatMon K)
    (tPollNs : Nat) : Option (OnComplete K × NcclIbWqeLatMon K) :=
  let m := if m.inflight > 0 then { m with inflight := m.inflight - 1 } else m
  if m.tracking = false then some ({}, m)
  else if m.pendingBefore > 0 then some ({}, { m with pendingBefore := m.pendingBefore - 1 })
  else
    let tPostNs := m.trackedPostNs
    let m := { m with tracking := false, trackedPostNs := 0 }
    let delta := if tPollNs > tPostNs then tPollNs - tPostNs else 0
    let m := welfordUpdate m delta
    (m.p2.mapM fun e => p2Update e (delta : K) m.count).map fun p2 =>
      let m := { m with p2 }
      let out : OnComplete K :=
        { deltaNs := delta, postNs := tPostNs, stats := snapshotStats sqrt m }
      if delta ≤ thresholdNs then (out, m)
      else
        let m := { m with slowCount := m.slowCount + 1 }
        if m.lastWarnNs ≠ 0 ∧ u64 (tPollNs - m.lastWarnNs) < kReportIntervalNs then (out, m)
        else ({ out with report := true }, { m with lastWarnNs := tPollNs })

end

/-- `ncclIbWqeLatMonCheckStall`: whether to report, the age and the number in flight. -/
def ncclIbWqeLatMonCheckStall (thresholdNs : Nat) (m : NcclIbWqeLatMon K) (nowNs : Nat) :
    Bool × Nat × Nat × NcclIbWqeLatMon K :=
  if m.tracking = false then (false, 0, 0, m)
  else if nowNs ≤ m.trackedPostNs then (false, 0, 0, m)
  else
    let age := nowNs - m.trackedPostNs
    if age ≤ thresholdNs then (false, age, m.inflight, m)
    else if m.lastStallWarnNs ≠ 0 ∧ u64 (nowNs - m.lastStallWarnNs) < kReportIntervalNs then
      (false, age, m.inflight, m)
    else (true, age, m.inflight, { m with lastStallWarnNs := nowNs })

end net_ib.latmon
