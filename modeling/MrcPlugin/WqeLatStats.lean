-- The statistics of the latency monitor (net_ib/wqe_lat_mon.cc). The monitor keeps no
-- latency, but after every run its numbers are those of all the samples of the queue. The
-- percentiles are exact for up to four samples, and the fifth makes each the median.
import Mathlib.Analysis.Real.Sqrt
import MrcPlugin.Lib.Moments
import MrcPlugin.Lib.Ranks
import MrcPlugin.WqeLatQueue

namespace net_ib.latmon

open p2p runs moments ranks

/-! ## The summary -/

section
variable {K : Type} [Field K] [LinearOrder K] [FloorRing K]

/-- `ncclIbWqeLatMonSnapshot`, into statistics that are there. -/
def ncclIbWqeLatMonSnapshot (sqrt : K → K) (m : NcclIbWqeLatMon K) : NcclIbWqeLatStats K :=
  snapshotStats sqrt m

/-- The numbers that `ncclIbWqeLatReportQpSummary` prints for a QP, if it prints any. -/
def ncclIbWqeLatReportQpSummary (sqrt : K → K) (latEnabled latReportEnabled : Bool) (qpn : Nat)
    (m : NcclIbWqeLatMon K) : Option (NcclIbWqeLatStats K) :=
  if latEnabled = false ∨ latReportEnabled = false then none
  else if qpn = 0 ∨ m.count = 0 then none
  else some (ncclIbWqeLatMonSnapshot sqrt m)

/-- The statistics `s` are those of the latencies `xs`: their number, their mean, their
sample deviation and the greatest of them. -/
structure Describes (sqrt : K → K) (s : NcclIbWqeLatStats K) (xs : List Nat) : Prop where
  count : s.count = xs.length
  mean : s.meanNs * xs.length = (xs.map Nat.cast).sum
  stddev : s.stddevNs =
    if 2 ≤ xs.length then sqrt (squares s.meanNs (xs.map Nat.cast) / (xs.length - 1 : Nat)) else 0
  max : s.maxNs = xs.foldl max 0

end

/-! ## What the steps do to the numbers -/

section
variable {K : Type} [Field K] [LinearOrder K]

omit [Field K] [LinearOrder K] in
/-- A stamp changes only what the monitor knows of the requests in flight. -/
theorem stampSend_mon (nowNs : Nat) (wrs : List IbvSendWr) (m : NcclIbWqeLatMon K) :
    ∃ tracking tracked pending inflight, ncclIbWqeLatMonStampSend nowNs m wrs =
      { m with tracking := tracking, trackedPostNs := tracked, pendingBefore := pending, inflight } := by
  induction wrs generalizing m with
  | nil => exact ⟨m.tracking, m.trackedPostNs, m.pendingBefore, m.inflight, rfl⟩
  | cons w wrs ih =>
    unfold ncclIbWqeLatMonStampSend
    rw [List.foldl_cons]
    split
    · obtain ⟨tracking, tracked, pending, inflight, hrest⟩ := ih (stampOne nowNs m)
      refine ⟨tracking, tracked, pending, inflight, hrest.trans ?_⟩
      unfold stampOne
      cases m.tracking <;> rfl
    · exact ih m

/-- The monitor after a sample, up to the count of the slow ones. -/
def sampled (m : NcclIbWqeLatMon K) (deltaNs : Nat) (p2 : List (NcclIbP2Quantile K)) :
    NcclIbWqeLatMon K :=
  { welfordUpdate m deltaNs with
    inflight := m.inflight - 1
    tracking := false
    trackedPostNs := 0
    p2 }

/-- Whether a slow sample is reported. -/
def Reportable (lastNs nowNs : Nat) : Prop :=
  lastNs = 0 ∨ kReportIntervalNs ≤ u64 (nowNs - lastNs)

variable [FloorRing K] {sqrt : K → K} {thresholdNs tPollNs : Nat} {m mon : NcclIbWqeLatMon K}
variable {out : OnComplete K}

/-- What a completion can do: it is only counted, or it is a sample. -/
theorem onComplete_cases
    (h : ncclIbWqeLatMonOnComplete sqrt thresholdNs m tPollNs = some (out, mon)) :
    (out = {} ∧ ∃ pending,
      mon = { m with inflight := m.inflight - 1, pendingBefore := pending }) ∨
    ∃ (delta : Nat) (p2 : _), (m.p2.mapM fun e => p2Update e (delta : K) (m.count + 1)) = some p2 ∧
      out.deltaNs = delta ∧ out.stats = snapshotStats sqrt (sampled m delta p2) ∧
      (out.report = true ↔ thresholdNs < delta ∧ Reportable m.lastWarnNs tPollNs) ∧
      mon = { sampled m delta p2 with
        slowCount := if thresholdNs < delta then m.slowCount + 1 else m.slowCount
        lastWarnNs := if out.report then tPollNs else m.lastWarnNs } := by
  have hdelta : (if tPollNs > m.trackedPostNs then tPollNs - m.trackedPostNs else 0) =
      tPollNs - m.trackedPostNs := by
    split <;> omega
  unfold ncclIbWqeLatMonOnComplete at h
  rw [count_completed] at h
  dsimp only at h
  rw [hdelta] at h
  split at h
  · cases h
    exact .inl ⟨rfl, m.pendingBefore, rfl⟩
  split at h
  · cases h
    exact .inl ⟨rfl, m.pendingBefore - 1, rfl⟩
  obtain ⟨p2, hp2, hout⟩ := Option.map_eq_some_iff.mp h
  refine .inr ⟨_, p2, hp2, ?_⟩
  split at hout
  next hslow =>
    cases hout
    refine ⟨rfl, rfl, ?_, ?_⟩
    · simp only [Bool.false_eq_true, false_iff]
      exact fun hreport => absurd hreport.1 (not_lt.mpr hslow)
    · rw [if_neg (not_lt.mpr hslow)]
      rfl
  next hslow =>
  split at hout
  next hclose =>
    cases hout
    refine ⟨rfl, rfl, ?_, ?_⟩
    · simp only [Bool.false_eq_true, false_iff]
      rintro ⟨-, hnone | hfar⟩
      · exact hclose.1 hnone
      · exact absurd hclose.2 (not_lt.mpr hfar)
    · rw [if_pos (not_le.mp hslow)]
      rfl
  next hclose =>
    cases hout
    refine ⟨rfl, rfl, ?_, ?_⟩
    · simp only [true_iff]
      refine ⟨not_le.mp hslow, ?_⟩
      by_cases hnone : m.lastWarnNs = 0
      · exact .inl hnone
      · exact .inr (not_lt.mp fun hnear => hclose ⟨hnone, hnear⟩)
    · rw [if_pos (not_le.mp hslow)]
      rfl

end

/-! ## Sorted samples -/

section
variable {α : Type} [LinearOrder α]

/-- The inner loop puts the key among the first entries and loses none. -/
theorem sink_perm (key : α) (j : Nat) (a : Nat → α) :
    ((List.range (j + 1)).map (sink key j a)).Perm (key :: (List.range j).map a) := by
  induction j generalizing a with
  | zero => simp [sink]
  | succ j ih =>
    rw [List.range_succ, List.map_append, List.map_singleton]
    unfold sink
    split
    · rw [sink_above _ _ _ (Nat.lt_succ_self j), Function.update_self]
      have hbefore : (List.range j).map (Function.update a (j + 1) (a j)) =
          (List.range j).map a := by
        refine List.map_congr_left fun i hi => ?_
        have := List.mem_range.mp hi
        exact Function.update_of_ne (by omega) ..
      have hrest := ih (Function.update a (j + 1) (a j))
      rw [hbefore] at hrest
      refine (hrest.append_right [a j]).trans ?_
      rw [List.range_succ, List.map_append, List.map_singleton]
      exact List.Perm.refl _
    · have hbefore : (List.range (j + 1)).map (Function.update a (j + 1) key) =
          (List.range (j + 1)).map a := by
        refine List.map_congr_left fun i hi => ?_
        have := List.mem_range.mp hi
        exact Function.update_of_ne (by omega) ..
      rw [hbefore, Function.update_self]
      exact List.perm_append_comm

/-- `p2SortAsc` gives the entries in another order. -/
theorem p2SortAsc_perm (a : Nat → α) (m : Nat) :
    ((List.range (m + 1)).map (p2SortAsc a (m + 1))).Perm ((List.range (m + 1)).map a) := by
  induction m with
  | zero => exact List.Perm.refl _
  | succ m ih =>
    have hstep : p2SortAsc a (m + 1 + 1) =
        sink (p2SortAsc a (m + 1) (m + 1)) (m + 1) (p2SortAsc a (m + 1)) := by
      unfold p2SortAsc
      rw [Nat.add_sub_cancel, Nat.add_sub_cancel, List.range'_1_concat, List.foldl_append,
        Nat.add_comm 1 m]
      rfl
    rw [hstep]
    refine (sink_perm _ _ _).trans ?_
    rw [(p2SortAsc_spec a m).2.2 _ (Nat.lt_succ_self m)]
    refine (ih.cons _).trans ?_
    have hrange : List.range (m + 1 + 1) = List.range (m + 1) ++ [m + 1] := List.range_succ
    rw [hrange, List.map_append, List.map_singleton]
    exact (List.perm_append_singleton _ _).symm

theorem SortedTo.pairwise {a : Nat → α} {n : Nat} (h : SortedTo a n) :
    ((List.range n).map a).Pairwise (· ≤ ·) := by
  rw [List.pairwise_map, List.pairwise_iff_getElem]
  intro i j hi hj hij
  simp only [List.getElem_range]
  exact h i j hij.le (by simpa using hj)

end

section
variable {K : Type} [Field K] [LinearOrder K] [IsStrictOrderedRing K]
variable {e e' : NcclIbP2Quantile K}

theorem p2Update_p {xs : List K} (h : P2Good e xs) {x : K}
    (hupdate : p2Update e x (xs.length + 1) = some e') : e'.p = e.p := by
  obtain ⟨e'', hupdate', hp, -⟩ := h.update x
  cases hupdate.symm.trans hupdate'
  exact hp

omit [IsStrictOrderedRing K] in
/-- Each estimator after a sample comes from one before it. -/
theorem of_mem_updated {es es' : List (NcclIbP2Quantile K)} {x : K} {count : Nat}
    (h : (es.mapM fun e => p2Update e x count) = some es') (he' : e' ∈ es') :
    ∃ e ∈ es, p2Update e x count = some e' := by
  induction es generalizing es' with
  | nil =>
    cases h
    exact absurd he' List.not_mem_nil
  | cons e es ih =>
    rw [List.mapM_cons, Option.bind_eq_bind, Option.bind_eq_some_iff] at h
    obtain ⟨first, hfirst, h⟩ := h
    rw [Option.bind_eq_bind, Option.bind_eq_some_iff] at h
    obtain ⟨rest, hrest, h⟩ := h
    cases h
    rcases List.mem_cons.mp he' with rfl | he'
    · exact ⟨e, List.mem_cons_self, hfirst⟩
    · obtain ⟨a, ha, hupdate⟩ := ih hrest he'
      exact ⟨a, List.mem_cons_of_mem e ha, hupdate⟩

/-- The estimators keep what each is an estimator of. -/
theorem targets_updated {es es' : List (NcclIbP2Quantile K)} {x : K} {xs : List K}
    (hgood : ∀ e ∈ es, P2Good e xs)
    (h : (es.mapM fun e => p2Update e x (xs.length + 1)) = some es') :
    es'.map (·.p) = es.map (·.p) := by
  induction es generalizing es' with
  | nil =>
    cases h
    rfl
  | cons e es ih =>
    rw [List.mapM_cons, Option.bind_eq_bind, Option.bind_eq_some_iff] at h
    obtain ⟨first, hfirst, h⟩ := h
    rw [Option.bind_eq_bind, Option.bind_eq_some_iff] at h
    obtain ⟨rest, hrest, h⟩ := h
    cases h
    rw [List.map_cons, List.map_cons, ih (fun a ha => hgood a (List.mem_cons_of_mem e ha)) hrest,
      p2Update_p (hgood e List.mem_cons_self) hfirst]

omit [Field K] [LinearOrder K] [IsStrictOrderedRing K] in
/-- The first entries of an estimator that collects are the samples. -/
theorem map_range_samples {xs : List K} {q : Nat → K}
    (h : ∀ i < xs.length, xs[i]? = some (q i)) : (List.range xs.length).map q = xs := by
  refine List.ext_getElem (by simp) fun i hi hi' => ?_
  rw [List.getElem_map, List.getElem_range]
  have hget := h i hi'
  rw [List.getElem?_eq_getElem hi'] at hget
  exact (Option.some.inj hget).symm

omit [IsStrictOrderedRing K] in
/-- With the fifth sample the markers are the samples in order. -/
theorem Collected.fifth {xs : List K} (h : Collected e xs) (x : K) (hfour : xs.length = 4)
    (hupdate : p2Update e x (xs.length + 1) = some e') :
    ((List.range 5).map e'.q).Perm (xs ++ [x]) := by
  unfold p2Update at hupdate
  rw [if_pos (by omega), Nat.add_sub_cancel] at hupdate
  dsimp only at hupdate
  rw [if_pos (by omega)] at hupdate
  cases hupdate
  have hsamples := map_range_samples (h.snoc x)
  have hlength : (xs ++ [x]).length = 5 := by simp [hfour]
  rw [hlength] at hsamples
  have hperm := p2SortAsc_perm (Function.update e.q xs.length x) 4
  rw [hsamples] at hperm
  exact hperm

omit [Field K] [IsStrictOrderedRing K] in
theorem Ordered.sorted (h : Ordered e) : SortedTo e.q 5 := by
  intro i j hij hj
  induction j with
  | zero => rw [Nat.le_zero.mp hij]
  | succ j ih =>
    obtain hlt | rfl : i ≤ j ∨ i = j + 1 := by omega
    · exact (ih hlt (by omega)).trans (h.heights j (by omega))
    · exact le_refl _

variable [FloorRing K]

/-- A whole number is rounded to itself. -/
theorem round_whole (d : Nat) : ⌊(d : K) + 1 / 2⌋.toNat = d := by
  obtain ⟨hlow, hhigh⟩ := round_between (v := (d : K)) (le_refl _) (le_refl _)
  omega

/-- Up to four samples the estimate is exact. -/
theorem Collected.nearestRank {deltas : List Nat} (h : Collected e (deltas.map Nat.cast))
    (hsome : deltas ≠ []) (hpos : 0 < e.p) (hone : e.p < 1) :
    NearestRank e.p deltas (p2Estimate e deltas.length) := by
  obtain ⟨m, hm⟩ : ∃ m, deltas.length = m + 1 :=
    Nat.exists_eq_succ_of_ne_zero fun h0 => hsome (List.length_eq_zero_iff.mp h0)
  have hfew : deltas.length < 5 := by simpa using h.few
  have hn : (0 : K) < deltas.length := by exact_mod_cast (by omega : 0 < deltas.length)
  have hlow : (0 : Int) < ⌈e.p * deltas.length⌉ := Int.ceil_pos.mpr (mul_pos hpos hn)
  have hhigh : ⌈e.p * deltas.length⌉ ≤ (deltas.length : Int) := by
    rw [Int.ceil_le]
    push_cast
    exact mul_le_of_le_one_left hn.le hone.le
  obtain ⟨i, hi⟩ : ∃ i : Nat, (i : Int) + 1 = ⌈e.p * deltas.length⌉ :=
    ⟨(⌈e.p * deltas.length⌉ - 1).toNat, by omega⟩
  have hsamples := map_range_samples h.samples
  rw [List.length_map] at hsamples
  -- The entries in order are a sorted list of the samples.
  have hperm := p2SortAsc_perm e.q m
  rw [← hm, hsamples] at hperm
  have hsorted := (p2SortAsc_spec e.q m).1.pairwise
  rw [← hm] at hsorted
  have hentry : ((List.range deltas.length).map (p2SortAsc e.q deltas.length))[i]? =
      some (p2SortAsc e.q deltas.length i) := by
    rw [List.getElem?_map, List.getElem?_range (by omega), Option.map_some]
  obtain ⟨d, -, hd⟩ := List.mem_map.mp (hperm.subset (List.mem_of_getElem? hentry))
  have hestimate : p2Estimate e deltas.length = d := by
    have hfirst : ¬(i : Int) + 1 - 1 < 0 := by omega
    have hlast : ¬(i : Int) + 1 - 1 ≥ deltas.length := by omega
    unfold p2Estimate
    rw [if_neg (by omega)]
    dsimp only
    rw [if_neg (not_le.mpr hfew), ← hi, if_neg hfirst, if_neg hlast]
    have hindex : ((i : Int) + 1 - 1).toNat = i := by omega
    rw [hindex, ← hd, if_neg (not_lt.mpr (Nat.cast_nonneg d)), round_whole]
  rw [hestimate]
  refine NearestRank.of_map (f := (Nat.cast : Nat → K)) Nat.strictMono_cast ?_
  refine NearestRank.of_sorted hperm hsorted (hd ▸ hentry) ?_
  rw [List.length_map, hi]

/-- With five samples the estimate is their median, whatever it is an estimate of. -/
theorem Estimating.median {deltas : List Nat} (h : Estimating e (deltas.map Nat.cast))
    (hperm : ((List.range 5).map e.q).Perm (deltas.map Nat.cast)) :
    NearestRank (1 / 2 : K) deltas (p2Estimate e deltas.length) := by
  have hfive : deltas.length = 5 := by simpa using hperm.length_eq.symm
  have hsorted : ((List.range 5).map e.q).Pairwise (· ≤ ·) := h.ordered.sorted.pairwise
  obtain ⟨d, -, hd⟩ := List.mem_map.mp (hperm.subset (List.mem_map_of_mem
    (List.mem_range.mpr (by omega : 2 < 5))))
  have hestimate : p2Estimate e deltas.length = d := by
    unfold p2Estimate
    rw [if_neg (by omega)]
    dsimp only
    rw [if_pos hfive.ge, ← hd, if_neg (not_lt.mpr (Nat.cast_nonneg d)), round_whole]
  rw [hestimate]
  refine NearestRank.of_map (f := (Nat.cast : Nat → K)) Nat.strictMono_cast ?_
  refine NearestRank.of_sorted hperm hsorted (i := 2) (by rw [hd]; rfl) ?_
  rw [List.length_map, hfive]
  norm_num

end

/-! ## The invariant of a run -/

section
variable {K : Type} [Field K] [LinearOrder K]

/-- What the monitor has of the latencies recorded. -/
structure Measured (thresholdNs : Nat) (w : World K) : Prop where
  moments : Moments w.mon.count w.mon.meanNs w.mon.m2Ns (w.recorded.map (Nat.cast : Nat → K))
  greatest : w.mon.maxNs = w.recorded.foldl max 0
  slow : w.mon.slowCount = w.recorded.countP (thresholdNs < ·)
  targets : w.mon.p2.map (·.p) = kPctlTargets
  fifth : ∀ e ∈ w.mon.p2, w.recorded.length = 5 →
    ((List.range 5).map e.q).Perm (w.recorded.map Nat.cast)

variable {thresholdNs : Nat} {w : World K}

omit [LinearOrder K] in
theorem World.start_measured : Measured thresholdNs (World.start : World K) where
  moments := Moments.nil
  greatest := rfl
  slow := rfl
  targets := by
    unfold World.start ncclIbWqeLatMonInit
    rw [List.map_map]
    exact List.map_id _
  fifth _ _ hfive := absurd hfive (Nat.zero_ne_add_one 4)

omit [LinearOrder K] in
/-- A step that only changes what is known of the requests in flight and of the reports. -/
theorem Measured.unsampled (h : Measured thresholdNs w) {w' : World K}
    {tracking : Bool} {tracked pending inflight warned : Nat}
    (hrecorded : w'.recorded = w.recorded)
    (hmon : w'.mon = { w.mon with
      tracking := tracking, trackedPostNs := tracked, pendingBefore := pending, inflight,
      lastStallWarnNs := warned }) : Measured thresholdNs w' := by
  obtain ⟨hmoments, hgreatest, hslow, htargets, hfifth⟩ := h
  constructor
  · rw [hrecorded, hmon]
    exact hmoments
  · rw [hrecorded, hmon]
    exact hgreatest
  · rw [hrecorded, hmon]
    exact hslow
  · rw [hmon]
    exact htargets
  · rw [hrecorded, hmon]
    exact hfifth

omit [LinearOrder K] in
theorem Measured.post (h : Measured thresholdNs w) (nowNs : Nat) (wrs : List IbvSendWr) :
    Measured thresholdNs (w.post nowNs wrs) := by
  obtain ⟨tracking, tracked, pending, inflight, hmon⟩ := stampSend_mon nowNs wrs w.mon
  exact h.unsampled rfl hmon

omit [LinearOrder K] in
theorem Measured.scan (h : Measured thresholdNs w) (nowNs : Nat) :
    Measured thresholdNs (w.scan thresholdNs nowNs) := by
  obtain ⟨warned, hmon⟩ := checkStall_mon thresholdNs w.mon nowNs
  exact h.unsampled rfl hmon

/-- A sample is taken into the moments. -/
theorem Measured.sampled [IsStrictOrderedRing K] (h : Measured thresholdNs w) (delta : Nat)
    (p2 : List (NcclIbP2Quantile K)) :
    Moments (sampled w.mon delta p2).count (sampled w.mon delta p2).meanNs
      (sampled w.mon delta p2).m2Ns ((w.recorded ++ [delta]).map (Nat.cast : Nat → K)) ∧
    (sampled w.mon delta p2).maxNs = (w.recorded ++ [delta]).foldl max 0 := by
  constructor
  · rw [List.map_append]
    exact h.moments.snoc (delta : K)
  · rw [List.foldl_append, ← h.greatest]
    unfold latmon.sampled welfordUpdate
    dsimp only [List.foldl_cons, List.foldl_nil]
    split <;> omega

variable [IsStrictOrderedRing K] [FloorRing K] {sqrt : K → K} {depth : UInt32}

theorem Measured.complete (h : Measured thresholdNs w) (hlinked : Linked depth w) {nowNs : Nat}
    {out : OnComplete K} {mon : NcclIbWqeLatMon K} {sample : Option Sample} {tracker : Tracker}
    (hmon : ncclIbWqeLatMonOnComplete sqrt thresholdNs w.mon nowNs = some (out, mon)) :
    Measured thresholdNs (w.completed nowNs out mon sample tracker) := by
  obtain ⟨-, pending, hmon⟩ | ⟨delta, p2, hp2, hdelta, -, -, hmon⟩ := onComplete_cases hmon
  · have hcount : mon.count = w.mon.count := by rw [hmon]
    exact h.unsampled (if_neg (not_not.mpr hcount)) hmon
  · obtain ⟨hmoments, hgreatest⟩ := h.sampled delta p2
    have hcount : mon.count = w.mon.count + 1 := by
      rw [hmon]
      rfl
    have hrecorded : (w.completed nowNs out mon sample tracker).recorded =
        w.recorded ++ [delta] := by
      rw [← hdelta]
      exact if_pos (by omega)
    have hlength : (w.recorded.map (Nat.cast : Nat → K)).length = w.mon.count := by
      rw [List.length_map, hlinked.counted]
    have hupdates : ∀ e' ∈ mon.p2, ∃ e ∈ w.mon.p2,
        p2Update e (delta : K) (w.mon.count + 1) = some e' := by
      intro e' he'
      rw [hmon] at he'
      exact of_mem_updated hp2 he'
    constructor
    · rw [hrecorded]
      dsimp only [World.completed]
      rw [hmon]
      exact hmoments
    · rw [hrecorded]
      dsimp only [World.completed]
      rw [hmon]
      exact hgreatest
    · rw [hrecorded]
      dsimp only [World.completed]
      rw [hmon, List.countP_append, List.countP_singleton, ← h.slow]
      dsimp only
      simp only [decide_eq_true_eq]
      split <;> rfl
    · dsimp only [World.completed]
      rw [hmon]
      rw [← hlength] at hp2
      exact (targets_updated hlinked.estimates hp2).trans h.targets
    · intro e' he' hfive
      rw [hrecorded, List.length_append, List.length_singleton] at hfive
      obtain ⟨e, he, hupdate⟩ := hupdates e' he'
      rw [hrecorded, List.map_append]
      obtain hgood | hgood := hlinked.estimates e he
      · refine hgood.fifth (delta : K) (by rw [List.length_map]; omega) ?_
        rw [hlength]
        exact hupdate
      · have := hgood.many
        rw [List.length_map] at this
        omega

/-- The numbers of the monitor are those of the latencies in every run. -/
theorem measured_of_reachable (hw : Reachable (system depth sqrt thresholdNs) w) :
    Measured thresholdNs w := by
  refine hw.invariant ?_ ?_
  · rintro w rfl
    exact World.start_measured
  · intro w w' hw h hstep
    cases hstep with
    | post nowNs wrs hclock hroom => exact h.post nowNs wrs
    | complete nowNs hclock hqueue hmon => exact h.complete (linked_of_reachable hw) hmon
    | scan nowNs hclock => exact h.scan nowNs

/-! ## The laws -/

/-- The statistics of a monitor with the moments of `xs`. -/
theorem snapshot_describes {m : NcclIbWqeLatMon K} {xs : List Nat}
    (hmoments : Moments m.count m.meanNs m.m2Ns (xs.map (Nat.cast : Nat → K)))
    (hgreatest : m.maxNs = xs.foldl max 0) : Describes sqrt (snapshotStats sqrt m) xs := by
  have hlength : (xs.map (Nat.cast : Nat → K)).length = xs.length := List.length_map _
  have hcount : m.count = xs.length := hmoments.counted.trans hlength
  refine ⟨hcount, ?_, ?_, hgreatest⟩
  · have hmean := hmoments.averaged
    rw [hlength] at hmean
    exact hmean
  · unfold snapshotStats
    dsimp only
    rw [hcount, hmoments.squared]
    by_cases hmany : 2 ≤ xs.length
    · -- A sum of squares is not negative, so nothing is cut off.
      have hn : (0 : K) ≤ (xs.length - 1 : Nat) := Nat.cast_nonneg _
      have hvar := div_nonneg (squares_nonneg m.meanNs (xs.map Nat.cast)) hn
      rw [if_pos hmany, if_pos (show xs.length > 1 by omega)]
      split
      · rfl
      next hzero =>
        rw [le_antisymm (not_lt.mp hzero) hvar]
    · rw [if_neg hmany, if_neg (show ¬xs.length > 1 by omega)]

/-- The statistics are exact. In every state of every run the snapshot of the monitor gives
the number, the mean, the sample deviation and the greatest of the latencies of all samples
of the queue, and its count of slow ones is how many are above the threshold. So are the
statistics that come with a sample, that sample included. -/
theorem the_statistics_are_those_of_the_samples
    (hw : Reachable (system depth sqrt thresholdNs) w) :
    Describes sqrt (ncclIbWqeLatMonSnapshot sqrt w.mon) (w.samples.map Sample.latency) ∧
    (ncclIbWqeLatMonSnapshot sqrt w.mon).slowCount =
      (w.samples.map Sample.latency).countP (thresholdNs < ·) ∧
    ∀ nowNs out mon,
      ncclIbWqeLatMonOnComplete sqrt thresholdNs w.mon nowNs = some (out, mon) →
      mon.count ≠ w.mon.count →
      Describes sqrt out.stats (w.samples.map Sample.latency ++ [out.deltaNs]) := by
  have h := measured_of_reachable hw
  rw [← (linked_of_reachable hw).sampled]
  refine ⟨snapshot_describes h.moments h.greatest, h.slow, ?_⟩
  intro nowNs out mon hmon hsample
  obtain ⟨-, pending, rfl⟩ | ⟨delta, p2, -, hdelta, hstats, -, -⟩ := onComplete_cases hmon
  · exact absurd rfl hsample
  · obtain ⟨hmoments, hgreatest⟩ := h.sampled delta p2
    rw [hdelta, hstats]
    exact snapshot_describes hmoments hgreatest

/-- The summary of a QP that exists is printed exactly when both monitors are on and there
is a sample, and its numbers are those of all samples. -/
theorem the_summary_has_all_samples (hw : Reachable (system depth sqrt thresholdNs) w)
    (latEnabled latReportEnabled : Bool) {qpn : Nat} (hqpn : qpn ≠ 0) :
    ((ncclIbWqeLatReportQpSummary sqrt latEnabled latReportEnabled qpn w.mon).isSome = true ↔
      latEnabled = true ∧ latReportEnabled = true ∧ w.samples ≠ []) ∧
    ∀ s, ncclIbWqeLatReportQpSummary sqrt latEnabled latReportEnabled qpn w.mon = some s →
      Describes sqrt s (w.samples.map Sample.latency) := by
  have h := measured_of_reachable hw
  have hdescribes : Describes sqrt (ncclIbWqeLatMonSnapshot sqrt w.mon)
      (w.samples.map Sample.latency) := by
    rw [← (linked_of_reachable hw).sampled]
    exact snapshot_describes h.moments h.greatest
  have hcount : w.mon.count = 0 ↔ w.samples = [] := by
    have hlength : w.mon.count = w.samples.length := by
      rw [← List.length_map (f := Sample.latency)]
      exact hdescribes.count
    rw [hlength, List.length_eq_zero_iff]
  unfold ncclIbWqeLatReportQpSummary
  constructor
  · simp only [hcount]
    cases latEnabled <;> cases latReportEnabled <;> simp [hqpn]
  · intro s hs
    obtain ⟨-, hs⟩ := Option.ite_none_left_eq_some.mp hs
    obtain ⟨-, hs⟩ := Option.ite_none_left_eq_some.mp hs
    cases hs
    exact hdescribes

omit [IsStrictOrderedRing K] [FloorRing K] in
/-- The targets are proper parts. -/
theorem kPctlTargets_between [IsStrictOrderedRing K] {i : Nat} {p : K}
    (h : (kPctlTargets : List K)[i]? = some p) : 0 < p ∧ p < 1 := by
  have hmem := List.mem_of_getElem? h
  simp only [kPctlTargets, List.map_cons, List.map_nil, List.mem_cons, List.not_mem_nil,
    or_false] at hmem
  rcases hmem with rfl | rfl | rfl | rfl <;> norm_num

/-- The percentiles of few samples are exact. In every run each of the four is zero without
a sample and the nearest rank of its target among one to four samples, whatever their order.
At the fifth sample all four are the median, and from then on they lie between the least and
the greatest sample. -/
theorem the_percentiles_of_few_samples_are_exact
    (hw : Reachable (system depth sqrt thresholdNs) w) {i : Nat} {p : K}
    (hp : (kPctlTargets : List K)[i]? = some p) :
    (w.samples = [] → percentile w.mon i = 0) ∧
    (w.samples ≠ [] → w.samples.length < 5 →
      NearestRank p (w.samples.map Sample.latency) (percentile w.mon i)) ∧
    (w.samples.length = 5 →
      NearestRank (1 / 2 : K) (w.samples.map Sample.latency) (percentile w.mon i)) ∧
    (5 ≤ w.samples.length → ∃ least ∈ w.samples, ∃ most ∈ w.samples,
      least.latency ≤ percentile w.mon i ∧ percentile w.mon i ≤ most.latency) := by
  have h := measured_of_reachable hw
  have hlinked := linked_of_reachable hw
  have hlength : w.samples.length = w.recorded.length := by
    rw [hlinked.sampled, List.length_map]
  -- The estimator of the percentile.
  obtain ⟨e, he, rfl⟩ : ∃ e, w.mon.p2[i]? = some e ∧ e.p = p := by
    rw [← h.targets, List.getElem?_map] at hp
    obtain ⟨e, he, hp⟩ := Option.map_eq_some_iff.mp hp
    exact ⟨e, he, hp⟩
  have hpercentile : percentile w.mon i = p2Estimate e w.recorded.length := by
    unfold percentile
    rw [he, hlinked.counted]
  have hgood := hlinked.estimates e (List.mem_of_getElem? he)
  obtain ⟨hpos, hone⟩ := kPctlTargets_between hp
  rw [hpercentile, hlength, ← hlinked.sampled]
  refine ⟨?_, ?_, ?_, ?_⟩
  · intro hnone
    rw [hnone, List.length_nil] at hlength
    rw [← hlength]
    exact if_pos rfl
  · intro hsome hfew
    obtain hgood | hgood := hgood
    · refine hgood.nearestRank ?_ hpos hone
      intro hnil
      rw [hnil, List.length_nil] at hlength
      exact hsome (List.length_eq_zero_iff.mp hlength)
    · have := hgood.many
      rw [List.length_map] at this
      omega
  · intro hfive
    obtain hgood | hgood := hgood
    · have := hgood.few
      rw [List.length_map] at this
      omega
    · exact hgood.median (h.fifth e (List.mem_of_getElem? he) hfive)
  · intro hmany
    obtain hgood | hgood := hgood
    · have := hgood.few
      rw [List.length_map] at this
      omega
    · obtain ⟨lo, hlo, hi, hhi, -, hbetween⟩ := hgood.estimate_between
      rw [hlinked.sampled] at hlo hhi
      obtain ⟨least, hleast, rfl⟩ := List.mem_map.mp hlo
      obtain ⟨most, hmost, rfl⟩ := List.mem_map.mp hhi
      exact ⟨least, hleast, most, hmost, hbetween⟩

/-- A request that is posted when none is in flight, and completes before the next. -/
theorem next_sample_reachable {w : World K} (hw : Reachable (system 16 sqrt 100) w)
    (hidle : w.tracker.queue = [] ∧ w.tracker.tracked = none) (delta : Nat) :
    ∃ w' : World K, Reachable (system 16 sqrt 100) w' ∧
      w'.samples.map Sample.latency = w.samples.map Sample.latency ++ [delta] ∧
      w'.tracker.queue = [] ∧ w'.tracker.tracked = none := by
  have hposted : w.tracker.post w.clockNs [{ IbvSendWr.zero with signaled := true }] =
      ⟨[⟨w.tracker.posted, w.clockNs⟩], w.tracker.posted + 1,
        some ⟨w.tracker.posted, w.clockNs⟩⟩ := by
    simp [Tracker.post, Tracker.postOne, hidle.1, hidle.2]
  have hw' : Reachable (system 16 sqrt 100)
      (w.post w.clockNs [{ IbvSendWr.zero with signaled := true }]) :=
    hw.step (Step.post w.clockNs _ (le_refl _) (by rw [hposted]; exact Nat.le_of_ble_eq_true rfl))
  have h := linked_of_reachable hw'
  have hqueue : (w.post w.clockNs [{ IbvSendWr.zero with signaled := true }]).tracker = _ := hposted
  have hhead : (w.post w.clockNs [{ IbvSendWr.zero with signaled := true }]).tracker.queue =
      ⟨w.tracker.posted, w.clockNs⟩ :: [] := by
    rw [hqueue]
  obtain ⟨out, mon, hout, -⟩ := h.follows.complete sqrt 100 (w.clockNs + delta) h.order hhead
    (h.counted.trans (List.length_map _).symm) h.estimates
  refine ⟨_, hw'.step (Step.complete (w.clockNs + delta) (Nat.le_add_right _ _)
    (by rw [hqueue]; exact if_pos rfl) hout), ?_, rfl, rfl⟩
  simp [World.completed, World.post, Sample.latency]

/-- Requests one after the other give samples of any latencies. -/
theorem samples_reachable (sqrt : K → K) (deltas : List Nat) :
    ∃ w : World K, Reachable (system 16 sqrt 100) w ∧
      w.samples.map Sample.latency = deltas ∧ w.tracker.queue = [] ∧ w.tracker.tracked = none := by
  induction deltas using List.reverseRecOn with
  | nil => exact ⟨World.start, .init rfl, rfl, rfl, rfl⟩
  | append_singleton deltas delta ih =>
    obtain ⟨w, hw, hdeltas, hidle⟩ := ih
    obtain ⟨w', hw', hdeltas', hidle'⟩ := next_sample_reachable hw hidle delta
    exact ⟨w', hw', by rw [hdeltas', hdeltas], hidle'⟩

end

/-- Three samples, one of them above the threshold of 100. Their mean is 70, and the
deviation of 50 is the root of (50² + 50²) / 2. -/
theorem the_statistics_of_three_samples : ∃ w : World ℝ,
    Reachable (system 16 Real.sqrt 100) w ∧
    w.samples.map Sample.latency = [120, 20, 70] ∧
    (ncclIbWqeLatMonSnapshot Real.sqrt w.mon).count = 3 ∧
    (ncclIbWqeLatMonSnapshot Real.sqrt w.mon).meanNs = 70 ∧
    (ncclIbWqeLatMonSnapshot Real.sqrt w.mon).stddevNs = 50 ∧
    (ncclIbWqeLatMonSnapshot Real.sqrt w.mon).maxNs = 120 ∧
    (ncclIbWqeLatMonSnapshot Real.sqrt w.mon).slowCount = 1 := by
  obtain ⟨w, hw, hsamples, -⟩ := samples_reachable Real.sqrt [120, 20, 70]
  obtain ⟨hdescribes, hslow, -⟩ := the_statistics_are_those_of_the_samples hw
  rw [hsamples] at hdescribes hslow
  have hmean : (ncclIbWqeLatMonSnapshot Real.sqrt w.mon).meanNs = 70 := by
    have h := hdescribes.mean
    norm_num at h
    linarith
  have hstddev : (ncclIbWqeLatMonSnapshot Real.sqrt w.mon).stddevNs = 50 := by
    rw [hdescribes.stddev, hmean]
    norm_num [squares]
  exact ⟨w, hw, hsamples, hdescribes.count, hmean, hstddev, hdescribes.max, hslow⟩

/-- The median of four samples out of order is the second of them, and that of six lies
between the outer ones. -/
theorem the_medians_of_four_and_six_samples :
    (∃ w : World ℝ, w.samples.map Sample.latency = [30, 5, 200, 12] ∧
      NearestRank (1 / 2 : ℝ) [30, 5, 200, 12] (percentile w.mon 0)) ∧
    ∃ w : World ℝ, w.samples.map Sample.latency = [30, 5, 200, 12, 7, 90] ∧
      ∃ least ∈ w.samples, ∃ most ∈ w.samples,
        least.latency ≤ percentile w.mon 0 ∧ percentile w.mon 0 ≤ most.latency := by
  have hp : (kPctlTargets : List ℝ)[0]? = some (1 / 2) := by simp [kPctlTargets]
  refine ⟨?_, ?_⟩
  · obtain ⟨w, hw, hsamples, -⟩ := samples_reachable Real.sqrt [30, 5, 200, 12]
    have h := (the_percentiles_of_few_samples_are_exact hw hp).2.1
    have hlength : w.samples.length = 4 := by
      rw [← List.length_map (f := Sample.latency), hsamples]
      rfl
    rw [hsamples] at h
    refine ⟨w, hsamples, h ?_ (by omega)⟩
    rintro hnil
    rw [hnil] at hlength
    cases hlength
  · obtain ⟨w, hw, hsamples, -⟩ := samples_reachable Real.sqrt [30, 5, 200, 12, 7, 90]
    have hlength : w.samples.length = 6 := by
      rw [← List.length_map (f := Sample.latency), hsamples]
      rfl
    exact ⟨w, hsamples, (the_percentiles_of_few_samples_are_exact hw hp).2.2.2 (by omega)⟩

end net_ib.latmon
