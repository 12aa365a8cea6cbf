-- No run of a send comm gets past a failure. The first device that fails, with an error
-- that is not fatal, makes ncclIbResiliencyReplaceQps log the number of a QP without a
-- `qp` pointer. So no failed request is tracked, no probe is posted, and nothing is
-- sent again. The other modules on the failover do not use the log level, and what they
-- say holds without these log lines too.
import MrcPlugin.FailoverRuns
import MrcPlugin.ActiveTable
import MrcPlugin.IsendSteps

namespace net_ib.resiliency

open p2p recovery queues

/-! ## The calls leave the table -/

section
variable (net : NetEnv) (res : NcclIbResiliency)

theorem chargeSends_sameTable (slot d : Nat) (js : List Nat) : ∀ comm : NcclIbSendComm,
    SameTable comm.base (chargeSends slot d js comm).1.base res res := by
  induction js with
  | nil => exact fun comm => SameTable.refl ..
  | cons j js ih =>
    intro comm
    unfold chargeSends
    split
    · apply SameTable.refl
    split
    · apply SameTable.refl
    · exact (sameTable_withReqs comm _ _).trans (ih _)

theorem sendEvent_sameTable (comm : NcclIbSendComm) (wc : IbvWc) (d : Nat) :
    SameTable comm.base (sendEventProcess comm wc d).comm.base res res := by
  unfold sendEventProcess
  split
  · apply SameTable.refl
  split
  · apply SameTable.refl
  · apply SameTable.refl
  simp only
  split
  · apply SameTable.refl
  · apply chargeSends_sameTable

theorem requestComplete_sameTable (comm : NcclIbSendComm) (i : Nat) :
    SameTable comm.base (sendRequestComplete net comm i).1.base res res := by
  have hspeeds : ∀ d : NcclIbSendComm,
      SameTable d.base (ncclIbCheckSpeedChanges net d).base res res := by
    intro d
    unfold ncclIbCheckSpeedChanges
    simp only
    split <;> exact ⟨rfl, rfl, rfl, rfl, rfl, rfl, fun _ => rfl⟩
  unfold sendRequestComplete
  simp only
  split
  · split
    · split
      · exact (hspeeds _).trans (sameTable_withReqs _ _ _)
      · apply sameTable_withReqs
    · apply sameTable_withReqs
  · apply sameTable_withReqs

theorem isendEntry_sameTable (comm : NcclIbSendComm) (a : IsendArgs) (slot nreqs r : Nat) :
    SameTable comm.base (isendEntry net comm a slot nreqs r).comm.base res res := by
  unfold isendEntry
  simp only
  by_cases hinfo : (comm.ctsFifo slot r).addr = 0 ∨ (comm.ctsFifo slot r).rkeys 0 = 0
  · rw [if_pos hinfo]
    apply SameTable.refl
  rw [if_neg hinfo]
  cases requestQps comm.base comm.base.fifoHead with
  | error e => exact SameTable.refl ..
  | ok qps =>
    cases hget : ncclIbGetRequest comm.base with
    | error e => exact SameTable.refl ..
    | ok got =>
      obtain ⟨base, i⟩ := got
      simp only
      obtain ⟨-, -, hbase⟩ := getRequest_cases hget
      have hsame : SameTable comm.base base res res := by
        rw [hbase]
        exact ⟨rfl, rfl, rfl, rfl, rfl, rfl, fun _ => rfl⟩
      generalize sendRequest comm (base.reqs i) a nreqs r _ _ = req
      have hbind : SameTable comm.base (bindEntry { comm with base } slot r i req).base res res :=
        ⟨hsame.ndevs, hsame.nqps, hsame.nDataQps, hsame.qps, hsame.activeQps, rfl, fun _ => rfl⟩
      generalize bindEntry { comm with base } slot r i req = bound at hbind
      split
      · exact hbind
      split
      · exact hbind
      · rename_i hmulti
        have hsent := hbind.trans (multiSend_sameTable hmulti res)
        exact ⟨hsent.ndevs, hsent.nqps, hsent.nDataQps, hsent.qps, hsent.activeQps, rfl,
          fun _ => rfl⟩

theorem isend_sameTable (comm : NcclIbSendComm) (a : IsendArgs) :
    SameTable comm.base (ncclIbIsend net comm a).comm.base res res := by
  unfold ncclIbIsend
  split
  · apply SameTable.refl
  split
  · apply SameTable.refl
  simp only
  split
  · apply SameTable.refl
  split
  · apply SameTable.refl
  split
  · apply SameTable.refl
  · apply isendEntry_sameTable

end

/-! ## The pieces of a call -/

/-- A place inside a loop over the devices has a device of the context. -/
def FailoverPc.within (n : Nat) : FailoverPc → Prop
  | .probeEvents d _ => d < n
  | .completions i _ _ _ => i < n
  | _ => True

/-- A place inside `ncclIbResiliencyProgress`. -/
def FailoverPc.inProgress : FailoverPc → Prop
  | .top | .device _ _ | .completions _ _ _ _ => False
  | _ => True

/-- A place with nothing in hand. -/
def FailoverPc.idle : FailoverPc → Prop
  | .probeEvents _ _ | .completions _ _ _ _ => False
  | _ => True

/-- The probes that a piece leaves in hand. -/
def probeHandNext : FailoverNext → List ProbeCqe
  | .go (.probeEvents _ wcs) => wcs
  | _ => []

/-- The probes that a piece posts. -/
def probePosts (out : FailoverOut) : List ProbeCqe :=
  (out.posts.filterMap Sum.getRight?).map (fun p => ⟨.IBV_WC_SUCCESS, p.wr, p.dev, false⟩)

theorem after_fields (x : FailoverState) (pc : FailoverPc) (out : FailoverOut) :
    (x.after pc out).s = out.s ∧ (x.after pc out).probeSq = x.probeSq ++ probePosts out ∧
      (x.after pc out).probeCq = out.probeCq := by
  unfold FailoverState.after
  simp only
  split
  · exact ⟨rfl, rfl, rfl⟩
  · split <;> exact ⟨rfl, rfl, rfl⟩
  · exact ⟨rfl, rfl, rfl⟩

/-! ## The invariant -/

/-- No device has failed, no request is tracked, and no probe is out. -/
structure Unfailed (sh : Shape) (x : FailoverState) : Prop where
  inUse : AllInUse sh x.s.comm.base x.s.res.base
  untracked : ∀ k, (x.s.res.failedRequests k).request = none
  probes : x.probes = []
  gen : ∀ id, x.gen id = 0
  place : ∀ call, x.call = some call → call.pc.within sh.ndevs

/-- What the invariant is about after a piece of `ncclIbTest`. -/
structure PieceUnfailed (sh : Shape) (out : FailoverOut) : Prop where
  inUse : AllInUse sh out.s.comm.base out.s.res.base
  untracked : ∀ k, (out.s.res.failedRequests k).request = none
  posts : probePosts out = []
  probeCq : out.probeCq = []
  hand : probeHandNext out.next = []
  place : ∀ pc, out.next = .go pc → pc.within sh.ndevs

section
variable {sh : Shape} {x y : FailoverState} {g : Nat → List NcclIbSendFifo}

theorem AllInUse.same {base base' : NcclIbNetCommBase} {res res' : NcclIbResiliency}
    (h : AllInUse sh base res) (hs : SameTable base base' res res') : AllInUse sh base' res' := by
  refine ⟨?_, hs.resNdevs.trans h.ndevs, fun q hq => (congrFun hs.activeQps q).trans (h.active q hq),
    fun d hd => (hs.state d).trans (h.ok d hd)⟩
  exact ⟨hs.ndevs.trans h.striped.ndevs, hs.nqps.trans h.striped.nqps,
    hs.nDataQps.trans h.striped.nDataQps, hs.qps ▸ h.striped.devIndex, hs.qps ▸ h.striped.remDevIdx⟩

theorem FailoverState.Init.unfailed (h : x.Init sh) : Unfailed sh x where
  inUse := ⟨h.striped, h.ndevs, h.active, h.ok⟩
  untracked := fun k => by rw [h.failedRequests]
  probes := by
    unfold FailoverState.probes
    rw [h.probeSq, h.probeCq, h.call]
    rfl
  gen := h.gen
  place := fun call hc => by
    rw [h.call] at hc
    cases hc

theorem Unfailed.noProbes (h : Unfailed sh x) :
    x.probeSq = [] ∧ x.probeCq = [] ∧ probeHandOf x.call = [] := by
  have hprobes := h.probes
  unfold FailoverState.probes at hprobes
  simpa [List.append_eq_nil_iff, and_assoc] using hprobes

theorem Unfailed.probedGroup (h : Unfailed sh x) (pc : FailoverPc) : probedGroup x.s pc = none := by
  cases pc with
  | requests k =>
    unfold resiliency.probedGroup
    simp [h.untracked]
  | _ => rfl

/-- A piece that keeps the invariant, in a run. -/
theorem PieceUnfailed.after (h : Unfailed sh x) {call : FailoverCall} {out : FailoverOut}
    (hout : PieceUnfailed sh out) (hn : x.afterTest call out = some y) : Unfailed sh y := by
  obtain ⟨hs, hsq, hcq⟩ := after_fields x call.pc out
  rw [h.noProbes.1, hout.posts, List.append_nil] at hsq
  rw [hout.probeCq] at hcq
  have hgen : (x.after call.pc out).gen = x.gen := by
    unfold FailoverState.after
    simp only [h.probedGroup]
    split
    · rename_i hsome
      cases hsome
    · split <;> rfl
    · rfl
  have hstop : ∀ z : FailoverState, z.s = out.s → z.probeSq = [] → z.probeCq = [] → z.gen = x.gen →
      z.call = none → Unfailed sh z := by
    intro z hzs hzsq hzcq hzgen hzcall
    refine ⟨hzs ▸ hout.inUse, hzs ▸ hout.untracked, ?_, hzgen ▸ h.gen, fun c hc => ?_⟩
    · unfold FailoverState.probes
      rw [hzsq, hzcq, hzcall]
      rfl
    · rw [hzcall] at hc
      cases hc
  unfold FailoverState.afterTest at hn
  simp only at hn
  cases hnext : out.next with
  | go pc =>
    rw [hnext] at hn
    cases hn
    refine ⟨?_, ?_, ?_, ?_, fun c hc => ?_⟩
    · simp only [hs]
      exact hout.inUse
    · simp only [hs]
      exact hout.untracked
    · have hhand := hout.hand
      rw [hnext] at hhand
      unfold FailoverState.probes
      simp only [hsq, hcq, List.append_nil, List.nil_append]
      cases pc <;> first | rfl | exact hhand
    · simp only [hgen]
      exact h.gen
    · cases hc
      exact hout.place pc hnext
  | ret res =>
    rw [hnext] at hn
    rcases res with e | done
    · cases e with
      | ret code =>
        cases hn
        exact hstop _ hs hsq hcq hgen rfl
      | badPointer => cases hn
      | spin => cases hn
    · cases done with
      | none =>
        cases hn
        exact hstop _ hs hsq hcq hgen rfl
      | some sizes =>
        cases hn
        exact hstop _ hs hsq hcq hgen rfl

/-- A piece that leaves the devices and the entries. -/
theorem Unfailed.piece (h : Unfailed sh x) {s : ResSendComm} {posts : List (SendPost ⊕ ProbePost)}
    {cq : List SendCqe} {next : FailoverNext}
    (hsame : SameTable x.s.comm.base s.comm.base x.s.res.base s.res.base)
    (hentries : s.res.failedRequests = x.s.res.failedRequests)
    (hposts : posts.filterMap Sum.getRight? = []) (hhand : probeHandNext next = [])
    (hplace : ∀ pc, next = .go pc → pc.within sh.ndevs) :
    PieceUnfailed sh ⟨s, posts, cq, x.probeCq, next⟩ where
  inUse := h.inUse.same hsame
  untracked := hentries ▸ h.untracked
  posts := by
    unfold probePosts
    simp only [hposts, List.map_nil]
  probeCq := h.noProbes.2.1
  hand := hhand
  place := hplace

/-- A piece that only moves the call on. -/
theorem Unfailed.goTo (h : Unfailed sh x) {cq : List SendCqe} {pc : FailoverPc}
    (hhand : probeHandNext (.go pc) = []) (hplace : pc.within sh.ndevs) :
    PieceUnfailed sh ⟨x.s, [], cq, x.probeCq, .go pc⟩ :=
  h.piece (SameTable.refl ..) rfl rfl hhand (fun _ he => by cases he; exact hplace)

/-- A piece that only ends the call. -/
theorem Unfailed.stop (h : Unfailed sh x) {cq : List SendCqe} {res : Except Stop (Option (List Int))} :
    PieceUnfailed sh ⟨x.s, [], cq, x.probeCq, .ret res⟩ :=
  h.piece (SameTable.refl ..) rfl rfl rfl (fun _ he => by cases he)

/-! ## Each piece -/

/-- A piece of `ncclIbResiliencyProgress` has nothing to do. -/
theorem Unfailed.progress (h : Unfailed sh x) (env : FailoverEnv) (n : Nat) {r : Nat}
    {pc : FailoverPc} (hcall : x.call = some ⟨r, pc⟩) (hpc : pc.inProgress) : ∃ base pc',
      failoverTest env x.s ⟨x.cq, x.probeCq⟩ ⟨r, pc⟩ n =
        ⟨⟨x.s.comm, { x.s.res with base }⟩, [], x.cq, x.probeCq, .go pc'⟩ ∧
      AllInUse sh x.s.comm.base base ∧ pc'.idle := by
  unfold failoverTest
  cases pc with
  | start => exact ⟨_, _, rfl, h.inUse, by split <;> trivial⟩
  | probes d =>
    have hnone : (popUpTo (fun c : ProbeCqe => decide (c.dev = d)) (min n 4) x.probeCq).1 = [] := by
      rw [h.noProbes.2.1]
      cases min n 4 <;> rfl
    simp only [probeProgress, hnone, List.length_nil, if_true]
    split
    · exact ⟨_, _, rfl, h.inUse, trivial⟩
    split
    · exact ⟨_, _, rfl, h.inUse, trivial⟩
    · exact ⟨_, _, rfl, h.inUse, trivial⟩
  | probeEvents d wcs =>
    have hhand := h.noProbes.2.2
    rw [hcall] at hhand
    obtain rfl : wcs = [] := hhand
    exact ⟨_, _, rfl, h.inUse, trivial⟩
  | requests k =>
    have hidle : progressRequest env.net env.res x.s k = ⟨x.s, [], .ok ()⟩ := by
      unfold progressRequest
      simp only [h.untracked k]
    simp only [requestTurn, hidle]
    split
    · exact ⟨_, _, rfl, h.inUse, by split <;> trivial⟩
    · exact ⟨_, _, rfl, h.inUse, trivial⟩
  | recovery d =>
    simp only [recoveryTurn]
    split
    · exact ⟨_, _, rfl, h.inUse, trivial⟩
    · rename_i hd
      rw [h.inUse.ndevs] at hd
      have hdev : progressDev x.s.comm.base x.s.res.base d =
          (x.s.comm.base, x.s.res.base, .ok ()) := by
        unfold progressDev
        rw [h.inUse.ok d (Nat.not_le.mp hd)]
      rw [hdev]
      exact ⟨_, _, rfl, h.inUse, trivial⟩
  | finish =>
    refine ⟨_, _, rfl, h.inUse.same ?_, trivial⟩
    exact ⟨rfl, rfl, rfl, rfl, rfl, rfl, fun _ => rfl⟩
  | top => cases hpc
  | device i t => cases hpc
  | completions i t w wcs => cases hpc

theorem unfailed_top (h : Unfailed sh x) (env : FailoverEnv) (r : Nat) :
    PieceUnfailed sh (failoverTop env x.s ⟨x.cq, x.probeCq⟩ r) := by
  unfold failoverTop
  split
  · exact h.stop
  split
  · exact h.piece (requestComplete_sameTable ..) rfl rfl rfl (fun _ he => by cases he)
  · exact h.goTo rfl trivial

theorem unfailed_device (h : Unfailed sh x) (r i t n : Nat) :
    PieceUnfailed sh (failoverDevice x.s ⟨x.cq, x.probeCq⟩ r i t n) := by
  unfold failoverDevice
  split
  · split
    · exact h.goTo rfl trivial
    · exact h.stop
  rename_i hi
  split
  · exact h.goTo rfl trivial
  · refine h.goTo rfl ?_
    rw [h.inUse.striped.ndevs] at hi
    exact Nat.not_le.mp hi

/-- A completion with error either is fatal, and leaves the comm, or stops. -/
theorem Unfailed.error (h : Unfailed sh x) (env : ResEnv) (status : WcStatus) (wr_id : Nat)
    {d : Nat} (hd : d < sh.ndevs) :
    sendCompletionError env x.s status wr_id d = (x.s, .error (.ret ncclRemoteError)) ∨
      (sendCompletionError env x.s status wr_id d).2 = .error .badPointer := by
  unfold sendCompletionError
  cases hcheck : ncclIbResiliencyCheckErrorNotFatal x.s.res.base status d with
  | error e =>
    left
    unfold ncclIbResiliencyCheckErrorNotFatal at hcheck
    simp only at hcheck
    split at hcheck
    · cases hcheck
      rfl
    split at hcheck
    · cases hcheck
    · cases hcheck
      rfl
  | ok u =>
    right
    have hstop := first_failure_stops h.inUse env hd hcheck
    generalize ncclIbResiliencyHandleDeviceFailure env x.s.comm.base x.s.res.base d = out at hstop
    obtain ⟨base, res, ret⟩ := out
    obtain rfl : ret = .error .badPointer := hstop
    rfl

theorem unfailed_completions (h : Unfailed sh x) (env : FailoverEnv) {r i t w : Nat}
    {wcs : List SendCqe} (hcall : x.call = some ⟨r, .completions i t w wcs⟩)
    (hnext : (failoverCompletions env x.s ⟨x.cq, x.probeCq⟩ i t w wcs).next ≠
      .ret (.error .badPointer)) :
    PieceUnfailed sh (failoverCompletions env x.s ⟨x.cq, x.probeCq⟩ i t w wcs) := by
  have hi : i < sh.ndevs := h.place _ hcall
  cases wcs with
  | nil =>
    simp only [failoverCompletions]
    split
    · exact h.goTo rfl trivial
    split
    · exact h.stop
    · exact h.goTo rfl trivial
  | cons c rest =>
    have hdoes : SameTable x.s.comm.base (sendCompletion env x.s i c).1.comm.base x.s.res.base
          (sendCompletion env x.s i c).1.res.base ∧
        (sendCompletion env x.s i c).1.res.failedRequests = x.s.res.failedRequests ∨
        (sendCompletion env x.s i c).2 = .error .badPointer := by
      unfold sendCompletion
      split
      · exact .inl ⟨sendEvent_sameTable .., rfl⟩
      split
      · exact .inr rfl
      · rcases h.error env.res c.status c.wr_id hi with hfatal | hbad
        · rw [hfatal]
          exact .inl ⟨SameTable.refl .., rfl⟩
        · exact .inr hbad
    simp only [failoverCompletions] at hnext ⊢
    generalize sendCompletion env x.s i c = out at hdoes hnext
    obtain ⟨s, ret⟩ := out
    rcases hdoes with ⟨hsame, hentries⟩ | hbad
    · cases ret with
      | error e => exact h.piece hsame hentries rfl rfl (fun _ he => by cases he)
      | ok u =>
        refine h.piece hsame hentries rfl rfl (fun _ he => ?_)
        cases he
        exact hi
    · obtain rfl : ret = .error .badPointer := hbad
      exact absurd rfl hnext

theorem unfailed_test (h : Unfailed sh x) (env : FailoverEnv) (n : Nat) {call : FailoverCall}
    (hcall : x.call = some call)
    (hnext : (failoverTest env x.s ⟨x.cq, x.probeCq⟩ call n).next ≠ .ret (.error .badPointer)) :
    PieceUnfailed sh (failoverTest env x.s ⟨x.cq, x.probeCq⟩ call n) := by
  obtain ⟨r, pc⟩ := call
  by_cases hpc : pc.inProgress
  · obtain ⟨base, pc', hout, huse, hidle⟩ := h.progress env n hcall hpc
    rw [hout]
    refine ⟨huse, h.untracked, rfl, h.noProbes.2.1, ?_, fun _ he => ?_⟩
    · cases pc' <;> first | rfl | cases hidle
    · cases he
      cases pc' <;> trivial
  · unfold failoverTest at hnext ⊢
    cases pc with
    | top => exact unfailed_top h env r
    | device i t => exact unfailed_device h r i t n
    | completions i t w wcs => exact unfailed_completions h env hcall hnext
    | _ => exact absurd trivial hpc

/-! ## Every step -/

/-- A step that leaves the devices, the entries, the probes and the call. -/
theorem Unfailed.same (h : Unfailed sh x)
    (hsame : SameTable x.s.comm.base y.s.comm.base x.s.res.base y.s.res.base)
    (hentries : y.s.res.failedRequests = x.s.res.failedRequests) (hprobes : y.probes = x.probes)
    (hgen : y.gen = x.gen) (hcall : y.call = x.call) : Unfailed sh y :=
  ⟨h.inUse.same hsame, hentries ▸ h.untracked, hprobes.trans h.probes, hgen ▸ h.gen,
    hcall ▸ h.place⟩

theorem unfailed_next (h : Unfailed sh x) {act : FailoverAct} (hn : x.next g act = some y) :
    Unfailed sh y := by
  cases act with
  | isend env a =>
    have hsame := isend_sameTable env x.s.res.base x.s.comm a
    simp only [FailoverState.next] at hn
    split at hn
    · cases hn
    split at hn
    · cases hn
      exact h.same hsame rfl rfl rfl rfl
    · cases hn
    · cases hn
      exact h.same hsame rfl rfl rfl rfl
    · cases hn
      exact h.same hsame rfl rfl rfl rfl
  | cts k r =>
    simp only [FailoverState.next] at hn
    split at hn
    · cases hn
    split at hn
    · cases hn
      exact h.same (SameTable.refl ..) rfl rfl rfl rfl
    · cases hn
  | testBegin r =>
    simp only [FailoverState.next] at hn
    split at hn
    · cases hn
      refine ⟨h.inUse, h.untracked, ?_, h.gen, fun call hc => ?_⟩
      · unfold FailoverState.probes
        rw [h.noProbes.1, h.noProbes.2.1]
        rfl
      · cases hc
        trivial
    · cases hn
  | test env n =>
    simp only [FailoverState.next] at hn
    split at hn
    · cases hn
    rename_i call hcall
    refine PieceUnfailed.after h (unfailed_test h env n hcall (fun hbad => ?_)) hn
    unfold FailoverState.afterTest at hn
    rw [hbad] at hn
    cases hn
  | complete q status =>
    simp only [FailoverState.next] at hn
    split at hn
    · cases hn
    · cases hn
      exact h.same (SameTable.refl ..) rfl rfl rfl rfl
  | probeRead j flags =>
    simp only [FailoverState.next, h.noProbes.1] at hn
    cases hn
  | probeDone j status =>
    simp only [FailoverState.next, h.noProbes.1] at hn
    cases hn
  | thread d st =>
    simp only [FailoverState.next] at hn
    split at hn
    · rename_i hd
      cases hn
      refine ⟨⟨h.inUse.striped, h.inUse.ndevs, h.inUse.active, fun d' hd' => ?_⟩, h.untracked,
        h.probes, h.gen, h.place⟩
      have hne : d' ≠ d := by
        rintro rfl
        rw [h.inUse.ok d' hd'] at hd
        cases hd.1
      show ((x.s.res.base.setState d st).devs d').state = .Ok
      rw [setState_state, if_neg hne]
      exact h.inUse.ok d' hd'
    · cases hn
  | speed buf =>
    cases hn
    exact h.same (SameTable.refl ..) rfl rfl rfl rfl

end

end net_ib.resiliency
