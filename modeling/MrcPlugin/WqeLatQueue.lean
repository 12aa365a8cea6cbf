-- The latency monitor refines a queue (net_ib/wqe_lat_mon.cc). The queue knows every
-- signaled work request in flight, the monitor only a counter and one time, and the two
-- take the same samples over all posts and completions.
import MrcPlugin.Lib.Runs
import MrcPlugin.WqeLatMon

namespace net_ib.latmon

open p2p runs

/-! ## The queue -/

/-- A signaled work request: its number among all of the QP, and when it was posted. -/
structure Posted where
  seq : Nat
  postNs : Nat
deriving DecidableEq, Repr

/-- A latency sample of the queue: the work request, when its completion was polled, and
how many had been posted by then. -/
structure Sample where
  request : Posted
  polledNs : Nat
  posted : Nat
deriving DecidableEq, Repr

def Sample.latency (s : Sample) : Nat := s.polledNs - s.request.postNs

/-- What the monitor is for: the signaled work requests in flight, oldest first, and the
one that is tracked. -/
structure Tracker where
  queue : List Posted
  posted : Nat
  tracked : Option Posted
deriving DecidableEq, Repr

/-- A signaled work request is posted, and tracked if none is. -/
def Tracker.postOne (t : Tracker) (nowNs : Nat) : Tracker where
  queue := t.queue ++ [⟨t.posted, nowNs⟩]
  posted := t.posted + 1
  tracked := t.tracked.or (some ⟨t.posted, nowNs⟩)

def Tracker.post (nowNs : Nat) (t : Tracker) (wrs : List IbvSendWr) : Tracker :=
  wrs.foldl (fun t w => if w.signaled then t.postOne nowNs else t) t

/-- The oldest work request completes. It gives a sample if it is the tracked one. -/
def Tracker.complete (t : Tracker) (polledNs : Nat) : Option (Option Sample × Tracker) :=
  match t.queue with
  | [] => none
  | r :: rest =>
    if t.tracked = some r then
      some (some ⟨r, polledNs, t.posted⟩, { t with queue := rest, tracked := none })
    else some (none, { t with queue := rest })

/-! ## The monitor and the queue side by side -/

/-- The monitor of a QP beside its queue, with the latencies that it has recorded and the
samples of the queue. -/
structure World (K : Type) where
  mon : NcclIbWqeLatMon K
  tracker : Tracker
  clockNs : Nat
  recorded : List Nat
  samples : List Sample

section
variable {K : Type} [Field K] [LinearOrder K]

def World.start : World K := ⟨ncclIbWqeLatMonInit, ⟨[], 0, none⟩, 0, [], []⟩

/-- A list of work requests is posted. -/
def World.post (w : World K) (nowNs : Nat) (wrs : List IbvSendWr) : World K :=
  { w with
    mon := ncclIbWqeLatMonStampSend nowNs w.mon wrs
    tracker := w.tracker.post nowNs wrs
    clockNs := nowNs }

/-- The monitor looks for a stall. -/
def World.scan (w : World K) (thresholdNs nowNs : Nat) : World K :=
  { w with
    mon := (ncclIbWqeLatMonCheckStall thresholdNs w.mon nowNs).2.2.2
    clockNs := nowNs }

/-- A completion: what the monitor counts is recorded, and the sample of the queue, if it
gives one. -/
def World.completed [FloorRing K] (w : World K) (nowNs : Nat) (out : OnComplete K)
    (mon : NcclIbWqeLatMon K) (sample : Option Sample) (tracker : Tracker) : World K where
  mon := mon
  tracker := tracker
  clockNs := nowNs
  recorded := if mon.count ≠ w.mon.count then w.recorded ++ [out.deltaNs] else w.recorded
  samples := w.samples ++ sample.toList

variable [FloorRing K]

/-- The events of a QP, whose send queue has room for `depth` work requests. The clock
never goes back, and completions come in the order of the posts. -/
inductive Step (depth : UInt32) (sqrt : K → K) (thresholdNs : Nat) : World K → World K → Prop
  | post {w : World K} (nowNs : Nat) (wrs : List IbvSendWr) (hclock : w.clockNs ≤ nowNs)
      (hroom : (w.tracker.post nowNs wrs).queue.length ≤ depth.toNat) :
      Step depth sqrt thresholdNs w (w.post nowNs wrs)
  | complete {w : World K} (nowNs : Nat) {out : OnComplete K} {mon : NcclIbWqeLatMon K}
      {sample : Option Sample} {tracker : Tracker} (hclock : w.clockNs ≤ nowNs)
      (hqueue : w.tracker.complete nowNs = some (sample, tracker))
      (hmon : ncclIbWqeLatMonOnComplete sqrt thresholdNs w.mon nowNs = some (out, mon)) :
      Step depth sqrt thresholdNs w (w.completed nowNs out mon sample tracker)
  | scan {w : World K} (nowNs : Nat) (hclock : w.clockNs ≤ nowNs) :
      Step depth sqrt thresholdNs w (w.scan thresholdNs nowNs)

def system (depth : UInt32) (sqrt : K → K) (thresholdNs : Nat) : System (World K) where
  init w := w = World.start
  step := Step depth sqrt thresholdNs

end

/-! ## What links the two -/

section
variable {K : Type}

/-- How many work requests had been posted when the last sample was taken. -/
def postedAtLast (samples : List Sample) : Nat :=
  match samples.getLast? with
  | some s => s.posted
  | none => 0

/-- The fields of the monitor that follow the queue. -/
structure Follows (m : NcclIbWqeLatMon K) (t : Tracker) : Prop where
  inflight : m.inflight = t.queue.length
  tracking : m.tracking = t.tracked.isSome
  tracked : ∀ r, t.tracked = some r → ∃ before after, t.queue = before ++ r :: after ∧
    m.pendingBefore = before.length ∧ m.trackedPostNs = r.postNs

/-- The queue is in the order of the posts. -/
structure InOrder (t : Tracker) : Prop where
  increasing : t.queue.Pairwise (fun r s => r.seq < s.seq)
  posted : ∀ r ∈ t.queue, r.seq < t.posted

variable {m : NcclIbWqeLatMon K} {t : Tracker} {nowNs : Nat}

/-! ## Posts -/

theorem Follows.postOne (h : Follows m t) (hroom : t.queue.length + 1 < 2 ^ 32) :
    Follows (stampOne nowNs m) (t.postOne nowNs) := by
  have hinflight := h.inflight
  have hcount : u32 ((m.inflight : Int) + 1) = (t.postOne nowNs).queue.length := by
    unfold Tracker.postOne
    rw [u32_of_nonneg (by omega) (by omega), List.length_append, List.length_singleton]
    omega
  cases htracked : t.tracked with
  | none =>
    have hidle : m.tracking = false := by rw [h.tracking, htracked, Option.isSome_none]
    refine ⟨?_, ?_, ?_⟩
    · simpa [stampOne, hidle, Tracker.postOne] using hcount
    · simp [stampOne, hidle, Tracker.postOne, htracked]
    · intro r hr
      have hnew : (⟨t.posted, nowNs⟩ : Posted) = r := by
        simpa [Tracker.postOne, htracked] using hr
      subst hnew
      refine ⟨t.queue, [], rfl, ?_, ?_⟩ <;> simp [stampOne, hidle, hinflight]
  | some r =>
    have hbusy : m.tracking = true := by rw [h.tracking, htracked, Option.isSome_some]
    refine ⟨?_, ?_, ?_⟩
    · simpa [stampOne, hbusy, Tracker.postOne] using hcount
    · simp [stampOne, hbusy, Tracker.postOne, htracked]
    · intro r' hr'
      have hsame : r = r' := by simpa [Tracker.postOne, htracked] using hr'
      subst hsame
      obtain ⟨before, after, hqueue, hpending, hpost⟩ := h.tracked r htracked
      refine ⟨before, after ++ [⟨t.posted, nowNs⟩], ?_, ?_, ?_⟩
      · simp [Tracker.postOne, hqueue]
      · simpa [stampOne, hbusy] using hpending
      · simpa [stampOne, hbusy] using hpost

theorem InOrder.postOne (h : InOrder t) : InOrder (t.postOne nowNs) := by
  refine ⟨?_, ?_⟩
  · refine List.pairwise_append.mpr ⟨h.increasing, List.pairwise_singleton _ _, ?_⟩
    intro r hr s hs
    rw [List.mem_singleton.mp hs]
    exact h.posted r hr
  · intro r hr
    obtain hr | hr := List.mem_append.mp hr
    · exact Nat.lt_succ_of_lt (h.posted r hr)
    · rw [List.mem_singleton.mp hr]
      exact Nat.lt_succ_self t.posted

/-- A list of work requests keeps what each signaled one keeps. -/
theorem Tracker.post_keeps {P : Tracker → Prop} (hone : ∀ t, P t → P (t.postOne nowNs))
    (wrs : List IbvSendWr) {t : Tracker} (h : P t) : P (t.post nowNs wrs) := by
  induction wrs generalizing t with
  | nil => exact h
  | cons w wrs ih =>
    unfold Tracker.post
    rw [List.foldl_cons]
    split
    · exact ih (hone t h)
    · exact ih h

theorem Tracker.length_le_post (t : Tracker) (wrs : List IbvSendWr) :
    t.queue.length ≤ (t.post nowNs wrs).queue.length := by
  refine Tracker.post_keeps (P := fun u => t.queue.length ≤ u.queue.length) ?_ wrs le_rfl
  intro u hu
  refine hu.trans ?_
  simp [Tracker.postOne]

theorem Follows.post (wrs : List IbvSendWr) (h : Follows m t)
    (hroom : (t.post nowNs wrs).queue.length < 2 ^ 32) :
    Follows (ncclIbWqeLatMonStampSend nowNs m wrs) (t.post nowNs wrs) := by
  induction wrs generalizing m t with
  | nil => exact h
  | cons w wrs ih =>
    unfold Tracker.post at hroom ⊢
    unfold ncclIbWqeLatMonStampSend
    rw [List.foldl_cons] at hroom ⊢
    rw [List.foldl_cons]
    by_cases hw : w.signaled = true
    · rw [if_pos hw] at hroom ⊢
      rw [if_pos hw]
      have hlength : (t.postOne nowNs).queue.length ≤
          ((t.postOne nowNs).post nowNs wrs).queue.length := Tracker.length_le_post _ wrs
      have hone : (t.postOne nowNs).queue.length = t.queue.length + 1 := by
        simp [Tracker.postOne]
      exact ih (h.postOne (by unfold Tracker.post at hlength; omega)) hroom
    · rw [if_neg hw] at hroom ⊢
      rw [if_neg hw]
      exact ih h hroom

/-- Stamps leave what has been measured alone. -/
theorem stampSend_measured (nowNs : Nat) (wrs : List IbvSendWr) (m : NcclIbWqeLatMon K) :
    (ncclIbWqeLatMonStampSend nowNs m wrs).count = m.count ∧
      (ncclIbWqeLatMonStampSend nowNs m wrs).p2 = m.p2 := by
  induction wrs generalizing m with
  | nil => exact ⟨rfl, rfl⟩
  | cons w wrs ih =>
    unfold ncclIbWqeLatMonStampSend
    rw [List.foldl_cons]
    split
    · obtain ⟨hcount, hp2⟩ := ih (stampOne nowNs m)
      refine ⟨hcount.trans ?_, hp2.trans ?_⟩ <;>
        · unfold stampOne
          by_cases hm : m.tracking = true <;> simp [hm]
    · exact ih m

end

/-! ## Completions -/

section
variable {K : Type} [Field K] [LinearOrder K] [IsStrictOrderedRing K] [FloorRing K]
variable {sqrt : K → K} {thresholdNs tPollNs : Nat} {m : NcclIbWqeLatMon K} {t : Tracker}

omit [Field K] [LinearOrder K] [IsStrictOrderedRing K] [FloorRing K] in
/-- The count of those in flight stops at zero. -/
theorem count_completed (m : NcclIbWqeLatMon K) :
    (if m.inflight > 0 then { m with inflight := m.inflight - 1 } else m) =
      { m with inflight := m.inflight - 1 } := by
  split
  · rfl
  · have hzero : m.inflight - 1 = m.inflight := by omega
    rw [hzero]

omit [IsStrictOrderedRing K] in
/-- A completion while none is tracked is only counted. -/
theorem onComplete_idle (h : m.tracking = false) :
    ncclIbWqeLatMonOnComplete sqrt thresholdNs m tPollNs =
      some ({}, { m with inflight := m.inflight - 1 }) := by
  unfold ncclIbWqeLatMonOnComplete
  rw [count_completed]
  dsimp only
  rw [if_pos h]

omit [IsStrictOrderedRing K] in
/-- A completion before the tracked one is counted too. -/
theorem onComplete_before (h : m.tracking = true) (hbefore : m.pendingBefore > 0) :
    ncclIbWqeLatMonOnComplete sqrt thresholdNs m tPollNs =
      some ({}, { m with inflight := m.inflight - 1, pendingBefore := m.pendingBefore - 1 }) := by
  unfold ncclIbWqeLatMonOnComplete
  rw [count_completed]
  dsimp only
  rw [if_neg (by simp [h]), if_pos hbefore]

omit [FloorRing K] in
/-- Every estimator takes a sample. -/
theorem estimators_update (es : List (NcclIbP2Quantile K)) (x : K) {xs : List K}
    (h : ∀ e ∈ es, P2Good e xs) :
    ∃ es', (es.mapM fun e => p2Update e x (xs.length + 1)) = some es' ∧
      ∀ e ∈ es', P2Good e (xs ++ [x]) := by
  induction es with
  | nil => exact ⟨[], rfl, fun e he => absurd he List.not_mem_nil⟩
  | cons e es ih =>
    obtain ⟨es', hes', hgood'⟩ := ih fun e he => h e (List.mem_cons_of_mem _ he)
    obtain ⟨e', he', -, hgood⟩ := (h e List.mem_cons_self).update x
    refine ⟨e' :: es', ?_, ?_⟩
    · simp [List.mapM_cons, he', hes']
    · intro a ha
      obtain rfl | ha := List.mem_cons.mp ha
      · exact hgood
      · exact hgood' a ha

/-- The completion of the tracked one is a sample. -/
theorem onComplete_tracked (sqrt : K → K) (thresholdNs tPollNs : Nat) (h : m.tracking = true)
    (hbefore : m.pendingBefore = 0) {xs : List K} (hcount : m.count = xs.length)
    (hgood : ∀ e ∈ m.p2, P2Good e xs) :
    ∃ out m', ncclIbWqeLatMonOnComplete sqrt thresholdNs m tPollNs = some (out, m') ∧
      out.deltaNs = tPollNs - m.trackedPostNs ∧ out.postNs = m.trackedPostNs ∧
      m'.inflight = m.inflight - 1 ∧
      m'.tracking = false ∧ m'.count = m.count + 1 ∧
      ∀ e ∈ m'.p2, P2Good e (xs ++ [((tPollNs - m.trackedPostNs : Nat) : K)]) := by
  have hdelta : (if tPollNs > m.trackedPostNs then tPollNs - m.trackedPostNs else 0) =
      tPollNs - m.trackedPostNs := by
    split <;> omega
  obtain ⟨es, hes, hgood'⟩ :=
    estimators_update m.p2 ((tPollNs - m.trackedPostNs : Nat) : K) hgood
  rw [← hcount] at hes
  unfold ncclIbWqeLatMonOnComplete
  rw [count_completed]
  dsimp only
  rw [if_neg (by simp [h]), if_neg (by omega), hdelta]
  unfold welfordUpdate
  dsimp only
  rw [hes, Option.map_some]
  split
  · exact ⟨_, _, rfl, rfl, rfl, rfl, rfl, rfl, hgood'⟩
  split
  · exact ⟨_, _, rfl, rfl, rfl, rfl, rfl, rfl, hgood'⟩
  · exact ⟨_, _, rfl, rfl, rfl, rfl, rfl, rfl, hgood'⟩

omit [Field K] [LinearOrder K] [IsStrictOrderedRing K] [FloorRing K] in
/-- The head of the queue is the tracked one when none is counted before it. -/
theorem Follows.head (h : Follows m t) (ho : InOrder t) {r s : Posted} {rest : List Posted}
    (hqueue : t.queue = r :: rest) (hs : t.tracked = some s) :
    (s = r ∧ m.pendingBefore = 0 ∧ m.trackedPostNs = r.postNs) ∨
      (s ≠ r ∧ ∃ before after, rest = before ++ s :: after ∧
        m.pendingBefore = before.length + 1 ∧ m.trackedPostNs = s.postNs) := by
  obtain ⟨before, after, hsplit, hpending, hpost⟩ := h.tracked s hs
  rw [hqueue] at hsplit
  cases before with
  | nil =>
    obtain ⟨hr, -⟩ := List.cons.inj hsplit
    refine .inl ⟨hr.symm, hpending, ?_⟩
    rw [hpost, hr]
  | cons b before =>
    obtain ⟨-, hrest⟩ := List.cons.inj hsplit
    refine .inr ⟨?_, before, after, hrest, hpending, hpost⟩
    rintro rfl
    have hincreasing := ho.increasing
    rw [hqueue] at hincreasing
    have hlt := (List.pairwise_cons.mp hincreasing).1 s (by simp [hrest])
    exact lt_irrefl _ hlt

/-- A completion that the queue can give is handled, and it is a sample of the monitor
when it is one of the queue. -/
theorem Follows.complete (sqrt : K → K) (thresholdNs tPollNs : Nat) (h : Follows m t) (ho : InOrder t)
    {r : Posted} {rest : List Posted} (hqueue : t.queue = r :: rest) {xs : List K}
    (hcount : m.count = xs.length) (hgood : ∀ e ∈ m.p2, P2Good e xs) :
    ∃ out m', ncclIbWqeLatMonOnComplete sqrt thresholdNs m tPollNs = some (out, m') ∧
      ((t.tracked = some r ∧ out.deltaNs = tPollNs - r.postNs ∧ out.postNs = r.postNs ∧
          m'.count = m.count + 1 ∧ Follows m' { t with queue := rest, tracked := none } ∧
          ∀ e ∈ m'.p2, P2Good e (xs ++ [((tPollNs - r.postNs : Nat) : K)])) ∨
        (t.tracked ≠ some r ∧ m'.count = m.count ∧ m'.p2 = m.p2 ∧
          Follows m' { t with queue := rest })) := by
  have hinflight : m.inflight - 1 = rest.length := by
    rw [h.inflight, hqueue, List.length_cons, Nat.add_sub_cancel]
  cases htracked : t.tracked with
  | none =>
    have hidle : m.tracking = false := by rw [h.tracking, htracked, Option.isSome_none]
    refine ⟨_, _, onComplete_idle hidle, .inr ⟨nofun, rfl, rfl, hinflight, ?_, ?_⟩⟩
    · exact hidle
    · intro s hs
      exact absurd hs nofun
  | some s =>
    have hbusy : m.tracking = true := by rw [h.tracking, htracked, Option.isSome_some]
    obtain ⟨rfl, hpending, hpost⟩ | ⟨hne, before, after, hrest, hpending, hpost⟩ :=
      h.head ho hqueue htracked
    · obtain ⟨out, m', hout, hdelta, hpostNs, hin, htracking, hcount', hgood'⟩ :=
        onComplete_tracked sqrt thresholdNs tPollNs hbusy hpending hcount hgood
      rw [hpost] at hdelta hpostNs hgood'
      refine ⟨out, m', hout, .inl ⟨rfl, hdelta, hpostNs, hcount',
        ⟨hin.trans hinflight, ?_, ?_⟩, hgood'⟩⟩
      · exact htracking
      · exact fun r hr => absurd hr nofun
    · refine ⟨_, _, onComplete_before hbusy (by omega), .inr ⟨?_, rfl, rfl, hinflight, ?_, ?_⟩⟩
      · exact fun hsame => hne (Option.some.inj hsame)
      · exact hbusy
      · intro u hu
        obtain rfl : s = u := Option.some.inj hu
        exact ⟨before, after, hrest, by dsimp only; omega, hpost⟩

end

/-! ## Which requests are tracked -/

/-- The tracked request is the first that was posted after the last sample. -/
structure InTurn (t : Tracker) (samples : List Sample) : Prop where
  idle : t.tracked = none → t.posted = postedAtLast samples
  tracked : ∀ r, t.tracked = some r → r.seq = postedAtLast samples

theorem InTurn.postOne {t : Tracker} {samples : List Sample} (h : InTurn t samples)
    (nowNs : Nat) : InTurn (t.postOne nowNs) samples := by
  cases htracked : t.tracked with
  | none =>
    refine ⟨?_, ?_⟩
    · intro hnone
      simp [Tracker.postOne, htracked] at hnone
    · intro r hr
      have hnew : (⟨t.posted, nowNs⟩ : Posted) = r := by
        simpa [Tracker.postOne, htracked] using hr
      rw [← hnew]
      exact h.idle htracked
  | some r =>
    refine ⟨?_, ?_⟩
    · intro hnone
      simp [Tracker.postOne, htracked] at hnone
    · intro s hs
      refine h.tracked s ?_
      simpa [Tracker.postOne, htracked] using hs

theorem postedAtLast_append (samples : List Sample) (s : Sample) :
    postedAtLast (samples ++ [s]) = s.posted := by
  simp [postedAtLast]

/-- What the queue does with a completion. -/
theorem Tracker.complete_cases {t t' : Tracker} {polledNs : Nat} {sample : Option Sample}
    (h : t.complete polledNs = some (sample, t')) :
    ∃ r rest, t.queue = r :: rest ∧
      ((t.tracked = some r ∧ sample = some ⟨r, polledNs, t.posted⟩ ∧
          t' = { t with queue := rest, tracked := none }) ∨
        (t.tracked ≠ some r ∧ sample = none ∧ t' = { t with queue := rest })) := by
  unfold Tracker.complete at h
  cases hqueue : t.queue with
  | nil =>
    rw [hqueue] at h
    exact absurd h nofun
  | cons r rest =>
    rw [hqueue] at h
    dsimp only at h
    refine ⟨r, rest, rfl, ?_⟩
    split at h
    next htracked =>
      cases h
      exact .inl ⟨htracked, rfl, rfl⟩
    next htracked =>
      cases h
      exact .inr ⟨htracked, rfl, rfl⟩

/-- The queue stays in order when the oldest request completes. -/
theorem InOrder.rest {t : Tracker} {r : Posted} {rest : List Posted} (h : InOrder t)
    (hqueue : t.queue = r :: rest) (tracked : Option Posted) :
    InOrder ⟨rest, t.posted, tracked⟩ := by
  have hincreasing := h.increasing
  rw [hqueue] at hincreasing
  refine ⟨(List.pairwise_cons.mp hincreasing).2, ?_⟩
  intro s hs
  exact h.posted s (hqueue ▸ List.mem_cons_of_mem r hs)

/-- Where a list with one more element is split. -/
theorem append_singleton_split {α : Type} {xs before after : List α} {x y : α}
    (h : xs ++ [x] = before ++ y :: after) :
    (after = [] ∧ before = xs ∧ y = x) ∨ ∃ later, after = later ++ [x] ∧
      xs = before ++ y :: later := by
  obtain rfl | ⟨later, z, rfl⟩ := after.eq_nil_or_concat
  · obtain ⟨hxs, hx⟩ := List.append_inj' h rfl
    exact .inl ⟨rfl, hxs.symm, (List.cons.inj hx).1.symm⟩
  · rw [List.concat_eq_append, ← List.cons_append, ← List.append_assoc] at h
    obtain ⟨hxs, hx⟩ := List.append_inj' h rfl
    obtain rfl := (List.cons.inj hx).1
    exact .inr ⟨later, List.concat_eq_append .., hxs⟩

/-! ## The invariant of a run -/

section
variable {K : Type} [Field K] [LinearOrder K]

/-- What links the monitor to its queue in every state. -/
structure Linked (depth : UInt32) (w : World K) : Prop where
  follows : Follows w.mon w.tracker
  order : InOrder w.tracker
  turn : InTurn w.tracker w.samples
  room : w.tracker.queue.length ≤ depth.toNat
  past : ∀ r ∈ w.tracker.queue, r.postNs ≤ w.clockNs
  counted : w.mon.count = w.recorded.length
  estimates : ∀ e ∈ w.mon.p2, P2Good e (w.recorded.map (Nat.cast : Nat → K))
  sampled : w.recorded = w.samples.map Sample.latency
  timed : ∀ s ∈ w.samples, s.request.postNs ≤ s.polledNs
  chain : ∀ before s after, w.samples = before ++ s :: after →
    s.request.seq = postedAtLast before

variable {depth : UInt32} {w : World K}

theorem World.start_linked [IsStrictOrderedRing K] : Linked depth (World.start : World K) where
  follows := ⟨rfl, rfl, fun r hr => absurd hr nofun⟩
  order := ⟨List.Pairwise.nil, fun r hr => absurd hr List.not_mem_nil⟩
  turn := ⟨fun _ => rfl, fun r hr => absurd hr nofun⟩
  room := Nat.zero_le _
  past r hr := absurd hr List.not_mem_nil
  counted := rfl
  estimates := by
    intro e he
    obtain ⟨p, -, rfl⟩ := List.mem_map.mp he
    obtain ⟨e, hfeed, -, hgood⟩ := p2Feed_good p []
    cases hfeed
    exact hgood
  sampled := rfl
  timed s hs := absurd hs List.not_mem_nil
  chain before s after h := absurd h (by simp [World.start])

theorem Linked.post (h : Linked depth w) {nowNs : Nat} {wrs : List IbvSendWr}
    (hclock : w.clockNs ≤ nowNs)
    (hroom : (w.tracker.post nowNs wrs).queue.length ≤ depth.toNat) :
    Linked depth (w.post nowNs wrs) := by
  have hdepth : depth.toNat < 2 ^ 32 := depth.toNat_lt
  obtain ⟨hcount, hp2⟩ := stampSend_measured nowNs wrs w.mon
  refine ⟨h.follows.post wrs (hroom.trans_lt hdepth), ?_, ?_, hroom, ?_, ?_, ?_, h.sampled,
    h.timed, h.chain⟩
  · exact Tracker.post_keeps (fun t ht => ht.postOne) wrs h.order
  · exact Tracker.post_keeps (P := fun t => InTurn t w.samples) (fun t ht => ht.postOne nowNs)
      wrs h.turn
  · refine Tracker.post_keeps (P := fun t => ∀ r ∈ t.queue, r.postNs ≤ nowNs) ?_ wrs
      fun r hr => (h.past r hr).trans hclock
    intro t ht r hr
    obtain hr | hr := List.mem_append.mp hr
    · exact ht r hr
    · rw [List.mem_singleton.mp hr]
  · exact hcount.trans h.counted
  · intro e he
    exact h.estimates e (hp2 ▸ he)

omit [Field K] [LinearOrder K] in
/-- Looking for a stall changes only when the next one is reported. -/
theorem checkStall_mon (thresholdNs : Nat) (m : NcclIbWqeLatMon K) (nowNs : Nat) :
    ∃ warned, (ncclIbWqeLatMonCheckStall thresholdNs m nowNs).2.2.2 =
      { m with lastStallWarnNs := warned } := by
  unfold ncclIbWqeLatMonCheckStall
  split
  · exact ⟨m.lastStallWarnNs, rfl⟩
  split
  · exact ⟨m.lastStallWarnNs, rfl⟩
  dsimp only
  split
  · exact ⟨m.lastStallWarnNs, rfl⟩
  split
  · exact ⟨m.lastStallWarnNs, rfl⟩
  · exact ⟨nowNs, rfl⟩

theorem Linked.scan (h : Linked depth w) {thresholdNs nowNs : Nat} (hclock : w.clockNs ≤ nowNs) :
    Linked depth (w.scan thresholdNs nowNs) := by
  obtain ⟨warned, hmon⟩ := checkStall_mon thresholdNs w.mon nowNs
  refine ⟨?_, h.order, h.turn, h.room, fun r hr => (h.past r hr).trans hclock, ?_, ?_,
    h.sampled, h.timed, h.chain⟩
  · dsimp only [World.scan]
    rw [hmon]
    exact ⟨h.follows.inflight, h.follows.tracking, h.follows.tracked⟩
  · dsimp only [World.scan]
    rw [hmon]
    exact h.counted
  · dsimp only [World.scan]
    rw [hmon]
    exact h.estimates

variable [IsStrictOrderedRing K] [FloorRing K] {sqrt : K → K} {thresholdNs : Nat}

theorem Linked.complete (h : Linked depth w) {nowNs : Nat} {out : OnComplete K}
    {mon : NcclIbWqeLatMon K} {sample : Option Sample} {tracker : Tracker}
    (hclock : w.clockNs ≤ nowNs) (hqueue : w.tracker.complete nowNs = some (sample, tracker))
    (hmon : ncclIbWqeLatMonOnComplete sqrt thresholdNs w.mon nowNs = some (out, mon)) :
    Linked depth (w.completed nowNs out mon sample tracker) := by
  obtain ⟨r, rest, hhead, hcase⟩ := Tracker.complete_cases hqueue
  have hlength : (w.recorded.map (Nat.cast : Nat → K)).length = w.recorded.length :=
    List.length_map _
  obtain ⟨out', mon', hout, hdone⟩ := h.follows.complete sqrt thresholdNs nowNs
    h.order hhead (h.counted.trans hlength.symm) h.estimates
  cases hmon.symm.trans hout
  have hroom : rest.length ≤ depth.toNat := by
    have := h.room
    rw [hhead, List.length_cons] at this
    omega
  have hpast : ∀ s ∈ rest, s.postNs ≤ nowNs := fun s hs =>
    (h.past s (hhead ▸ List.mem_cons_of_mem r hs)).trans hclock
  obtain ⟨htracked, rfl, rfl⟩ | ⟨htracked, rfl, rfl⟩ := hcase
  · obtain ⟨-, hdelta, -, hcount, hfollows, hgood⟩ | ⟨hnot, -⟩ := hdone
    swap
    · exact absurd htracked hnot
    have hrecorded : (if mon.count ≠ w.mon.count then w.recorded ++ [out.deltaNs]
        else w.recorded) = w.recorded ++ [nowNs - r.postNs] := by
      rw [if_pos (by omega), hdelta]
    refine ⟨hfollows, h.order.rest hhead _, ?_, hroom, hpast, ?_, ?_, ?_, ?_, ?_⟩
    · exact ⟨fun _ => (postedAtLast_append w.samples ⟨r, nowNs, w.tracker.posted⟩).symm,
        fun s hs => absurd hs nofun⟩
    · dsimp only [World.completed]
      rw [hrecorded, List.length_append, List.length_singleton, hcount, h.counted]
    · dsimp only [World.completed]
      rw [hrecorded, List.map_append]
      exact hgood
    · dsimp only [World.completed]
      rw [hrecorded, List.map_append, h.sampled]
      rfl
    · intro s hs
      obtain hs | hs := List.mem_append.mp hs
      · exact h.timed s hs
      · obtain rfl := List.mem_singleton.mp hs
        exact (h.past r (hhead ▸ List.mem_cons_self)).trans hclock
    · intro before s after hsplit
      obtain ⟨-, hb, hs⟩ | ⟨later, -, hsplit⟩ := append_singleton_split hsplit
      · rw [hs, hb]
        exact h.turn.tracked r htracked
      · exact h.chain before s later hsplit
  · obtain ⟨htracked', -⟩ | ⟨-, hcount, hp2, hfollows⟩ := hdone
    · exact absurd htracked' htracked
    have hrecorded : (if mon.count ≠ w.mon.count then w.recorded ++ [out.deltaNs]
        else w.recorded) = w.recorded := if_neg (by omega)
    have hsamples : w.samples ++ (none : Option Sample).toList = w.samples :=
      List.append_nil _
    refine ⟨hfollows, h.order.rest hhead _, ?_, hroom, hpast, ?_, ?_, ?_, ?_, ?_⟩ <;>
      dsimp only [World.completed] <;> simp only [hrecorded, hsamples]
    · exact ⟨h.turn.idle, h.turn.tracked⟩
    · exact hcount.trans h.counted
    · rw [hp2]
      exact h.estimates
    · exact h.sampled
    · exact h.timed
    · exact h.chain

/-- The monitor and its queue stay linked in every run. -/
theorem linked_of_reachable {depth : UInt32} {w : World K}
    (hw : Reachable (system depth sqrt thresholdNs) w) : Linked depth w := by
  refine hw.invariant ?_ ?_
  · rintro w rfl
    exact World.start_linked
  · intro w w' hw h hstep
    cases hstep with
    | post nowNs wrs hclock hroom => exact h.post hclock hroom
    | complete nowNs hclock hqueue hmon => exact h.complete hclock hqueue hmon
    | scan nowNs hclock => exact h.scan hclock

/-! ## What the monitor reports -/

omit [IsStrictOrderedRing K] [FloorRing K] in
/-- The requests before the tracked one are those that were posted before it. -/
theorem Linked.before_tracked (h : Linked depth w) {r : Posted}
    (hr : w.tracker.tracked = some r) :
    w.mon.pendingBefore = (w.tracker.queue.filter fun q => q.seq < r.seq).length := by
  obtain ⟨before, after, hqueue, hpending, -⟩ := h.follows.tracked r hr
  have hincreasing := h.order.increasing
  rw [hqueue] at hincreasing
  obtain ⟨-, hrest, hbefore⟩ := List.pairwise_append.mp hincreasing
  have hfirst : before.filter (fun q => q.seq < r.seq) = before :=
    List.filter_eq_self.mpr fun q hq => decide_eq_true (hbefore q hq r List.mem_cons_self)
  have hlast : (r :: after).filter (fun q => q.seq < r.seq) = [] := by
    refine List.filter_eq_nil_iff.mpr fun q hq => ?_
    obtain rfl | hq := List.mem_cons.mp hq
    · simp
    · have := (List.pairwise_cons.mp hrest).1 q hq
      simp only [decide_eq_true_eq]
      omega
  rw [hqueue, List.filter_append, hfirst, hlast, List.append_nil, hpending]

omit [IsStrictOrderedRing K] [FloorRing K] in
/-- The oldest request in flight was not posted after the tracked one. -/
theorem Linked.head_le_tracked (h : Linked depth w) {r q : Posted} {rest : List Posted}
    (hr : w.tracker.tracked = some r) (hqueue : w.tracker.queue = q :: rest) :
    q.seq ≤ r.seq := by
  obtain ⟨rfl, -⟩ | ⟨-, before, after, hrest, -⟩ := h.follows.head h.order hqueue hr
  · exact le_rfl
  · have hincreasing := h.order.increasing
    rw [hqueue] at hincreasing
    exact ((List.pairwise_cons.mp hincreasing).1 r (by simp [hrest])).le

/-- The monitor refines the queue. In every state of every run it counts the requests in
flight and its latencies are those of the samples of the queue, each from the post to the
completion of the first request that was posted after the sample before it. The completion
of the oldest request is a sample if and only if that request is the tracked one, and no
request that was posted after the tracked one completes before it. -/
theorem the_monitor_refines_a_queue {depth : UInt32} {w : World K}
    (hw : Reachable (system depth sqrt thresholdNs) w) :
    w.mon.inflight = w.tracker.queue.length ∧
    w.recorded = w.samples.map Sample.latency ∧
    (∀ before s after, w.samples = before ++ s :: after →
      s.request.seq = postedAtLast before ∧ s.request.postNs ≤ s.polledNs) ∧
    (∀ r, w.tracker.tracked = some r →
      r ∈ w.tracker.queue ∧ w.mon.trackedPostNs = r.postNs ∧ r.seq = postedAtLast w.samples ∧
      w.mon.pendingBefore = (w.tracker.queue.filter fun q => q.seq < r.seq).length) ∧
    ∀ q rest, w.tracker.queue = q :: rest → ∀ nowNs, ∃ out mon,
      ncclIbWqeLatMonOnComplete sqrt thresholdNs w.mon nowNs = some (out, mon) ∧
      (∀ r, w.tracker.tracked = some r → q.seq ≤ r.seq) ∧
      (mon.count ≠ w.mon.count ↔ w.tracker.tracked = some q) ∧
      (w.tracker.tracked = some q → out.deltaNs = nowNs - q.postNs ∧ out.postNs = q.postNs) := by
  have h := linked_of_reachable hw
  refine ⟨h.follows.inflight, h.sampled, ?_, ?_, ?_⟩
  · intro before s after hsplit
    exact ⟨h.chain before s after hsplit, h.timed s (by simp [hsplit])⟩
  · intro r hr
    obtain ⟨before, after, hqueue, -, hpost⟩ := h.follows.tracked r hr
    exact ⟨by simp [hqueue], hpost, h.turn.tracked r hr, h.before_tracked hr⟩
  · intro q rest hqueue nowNs
    have hlength : (w.recorded.map (Nat.cast : Nat → K)).length = w.recorded.length :=
      List.length_map _
    obtain ⟨out, mon, hout, hcase⟩ := h.follows.complete sqrt thresholdNs nowNs
      h.order hqueue (h.counted.trans hlength.symm) h.estimates
    refine ⟨out, mon, hout, fun r hr => h.head_le_tracked hr hqueue, ?_⟩
    obtain ⟨htracked, hdelta, hpost, hcount, -⟩ | ⟨htracked, hcount, -⟩ := hcase
    · exact ⟨iff_of_true (by omega) htracked, fun _ => ⟨hdelta, hpost⟩⟩
    · exact ⟨iff_of_false (by omega) htracked, fun hq => absurd hq htracked⟩

/-- A stall report gives the age of the tracked request and how many are in flight. -/
theorem a_stall_is_the_age_of_the_tracked_request {depth : UInt32} {w : World K}
    (hw : Reachable (system depth sqrt thresholdNs) w) {nowNs age inflight : Nat}
    {mon : NcclIbWqeLatMon K}
    (hreport : ncclIbWqeLatMonCheckStall thresholdNs w.mon nowNs = (true, age, inflight, mon)) :
    ∃ r ∈ w.tracker.queue, w.tracker.tracked = some r ∧ age = nowNs - r.postNs ∧
      thresholdNs < age ∧ inflight = w.tracker.queue.length := by
  have h := (linked_of_reachable hw).follows
  unfold ncclIbWqeLatMonCheckStall at hreport
  split at hreport
  · cases hreport
  next htracking =>
  split at hreport
  · cases hreport
  dsimp only at hreport
  split at hreport
  · cases hreport
  next hage =>
  split at hreport
  · cases hreport
  cases hreport
  obtain ⟨r, hr⟩ : ∃ r, w.tracker.tracked = some r := by
    refine Option.isSome_iff_exists.mp ?_
    rw [← h.tracking]
    simpa using htracking
  obtain ⟨before, after, hqueue, -, hpost⟩ := h.tracked r hr
  refine ⟨r, by simp [hqueue], hr, ?_, by omega, h.inflight⟩
  rw [hpost]

end

/-- Three requests, of which the second is not signaled, and the completion of the first
five nanoseconds after the post. -/
theorem the_first_of_three_requests_is_timed :
    ∃ out mon, ncclIbWqeLatMonOnComplete id 100
        ((World.start : World ℚ).post 10 [{ IbvSendWr.zero with signaled := true },
          IbvSendWr.zero, { IbvSendWr.zero with signaled := true }]).mon 15 = some (out, mon) ∧
      out.deltaNs = 5 := by
  have hw : Reachable (system 16 id 100) ((World.start : World ℚ).post 10
      [{ IbvSendWr.zero with signaled := true }, IbvSendWr.zero,
        { IbvSendWr.zero with signaled := true }]) :=
    (Reachable.init rfl).step (Step.post 10 _ (Nat.zero_le 10) (by decide))
  obtain ⟨out, mon, hout, -, -, hdelta⟩ :=
    (the_monitor_refines_a_queue hw).2.2.2.2 ⟨0, 10⟩ [⟨1, 10⟩] rfl 15
  exact ⟨out, mon, hout, (hdelta rfl).1⟩

end net_ib.latmon
