-- The QPs in use while devices fail and come back. When a device fails, each QP in
-- use on it is replaced by one on a device in the Ok state; when it is recovered,
-- its QPs are in use again. So every QP in use lies on a device in the Ok state.
import MrcPlugin.Resiliency

namespace net_ib.resiliency

open p2p recovery

/-- Every QP in use lies on a device in the Ok state. -/
structure OnOkDevices (sh : Shape) (base : NcclIbNetCommBase) (res : NcclIbResiliency) : Prop where
  striped : Striped sh base
  ndevs : res.ndevs = sh.ndevs
  active : ∀ q < sh.nqps, ∃ p < sh.nqps, base.activeQps q = some p ∧
    (res.devs (base.qps p).devIndex).state = .Ok

/-- The same while device `d` is being taken out of use: a QP of `todo` may still
be replaced. -/
structure Replacing (sh : Shape) (res : NcclIbResiliency) (d : Nat) (todo : List Nat)
    (base : NcclIbNetCommBase) : Prop where
  striped : Striped sh base
  active : ∀ q < sh.nqps, ∃ p < sh.nqps, base.activeQps q = some p ∧
    ((res.devs (base.qps p).devIndex).state = .Ok ∨ (q ∈ todo ∧ (base.qps p).devIndex = d))

section
variable {sh : Shape} {base base' : NcclIbNetCommBase} {res res' : NcclIbResiliency}

@[simp]
theorem setState_state (res : NcclIbResiliency) (d d' : Nat) (st : DevState) :
    ((res.setState d st).devs d').state = if d' = d then st else (res.devs d').state := by
  unfold NcclIbResiliency.setState
  by_cases hd : d' = d
  · subst hd
    simp
  · simp [hd]

@[simp]
theorem setState_ndevs (res : NcclIbResiliency) (d : Nat) (st : DevState) :
    (res.setState d st).ndevs = res.ndevs := rfl

theorem striped_activeQps (h : Striped sh base) (activeQps : Nat → Option Nat) :
    Striped sh { base with activeQps } :=
  ⟨h.ndevs, h.nqps, h.nDataQps, h.devIndex, h.remDevIdx⟩

theorem OnOkDevices.isSome (h : OnOkDevices sh base res) :
    ∀ q < sh.nqps, (base.activeQps q).isSome := by
  intro q hq
  obtain ⟨p, _, hp, _⟩ := h.active q hq
  rw [hp]
  rfl

/-! ## The search for a replacement -/

theorem findReplacement_ok {failed : Nat} (h : Striped sh base) :
    ∀ n offset new, findReplacement base res failed n offset = some new →
      new < sh.nqps ∧ (res.devs (base.qps new).devIndex).state = .Ok := by
  intro n
  induction n with
  | zero =>
    intro offset new hnew
    cases hnew
  | succ n ih =>
    intro offset new hnew
    unfold findReplacement at hnew
    rw [h.nqps] at hnew
    simp only [Option.getD_some] at hnew
    split at hnew
    · rename_i hok
      cases hnew
      exact ⟨Nat.mod_lt _ sh.nqps_pos, hok⟩
    split at hnew
    · cases hnew
    · exact ih _ _ hnew

/-- A QP on a device in the Ok state is found when it is not the failed QP itself. -/
theorem findReplacement_finds {failed : Nat} (h : Striped sh base) (hfailed : failed < sh.nqps) :
    ∀ n offset, 0 < offset → ∀ o, offset ≤ o → o < offset + n → o < sh.nqps →
      (res.devs (base.qps ((failed + o) % sh.nqps)).devIndex).state = .Ok →
      (findReplacement base res failed n offset).isSome := by
  intro n
  induction n with
  | zero =>
    intro offset _ o hle hlt
    omega
  | succ n ih =>
    intro offset hpos o hle hlt ho hok
    unfold findReplacement
    rw [h.nqps]
    simp only [Option.getD_some]
    split
    · rfl
    rename_i hbad
    have hne : o ≠ offset := by
      rintro rfl
      exact hbad hok
    rw [if_neg]
    · exact ih (offset + 1) (by omega) o (by omega) (by omega) ho hok
    · -- The search comes back to the failed QP only after all others.
      intro heq
      by_cases hwrap : failed + offset < sh.nqps
      · rw [Nat.mod_eq_of_lt hwrap] at heq
        omega
      · rw [Nat.mod_eq_sub_mod (by omega), Nat.mod_eq_of_lt (by omega)] at heq
        omega

/-- With another device in the Ok state, a failed QP has a replacement. -/
theorem findReplacement_other {failed d : Nat} (h : Striped sh base) (hfailed : failed < sh.nqps)
    (hd : d < sh.ndevs) (hne : (base.qps failed).devIndex ≠ d) (hok : (res.devs d).state = .Ok) :
    (findReplacement base res failed (base.nqps.getD 0) 1).isSome := by
  have hdq : d < sh.nqps := Nat.lt_of_lt_of_le hd
    (Nat.le_trans sh.ndevs_le_nDataQps sh.nDataQps_le_nqps)
  have hdev : (base.qps d).devIndex = d := by
    rw [h.devIndex d hdq, Nat.mod_eq_of_lt hd]
  have hdf : d ≠ failed := by
    rintro rfl
    exact hne hdev
  rw [h.nqps]
  -- QP `d` lies on device `d`; the search comes to it from the failed QP.
  refine findReplacement_finds h hfailed _ 1 (by omega) ((d + sh.nqps - failed) % sh.nqps) ?_ ?_
    (Nat.mod_lt _ sh.nqps_pos) ?_
  · by_cases hlt : d < failed
    · rw [Nat.mod_eq_of_lt (by omega)]
      omega
    · rw [Nat.mod_eq_sub_mod (by omega), Nat.mod_eq_of_lt (by omega)]
      omega
  · have := Nat.mod_lt (d + sh.nqps - failed) sh.nqps_pos
    simp only [Option.getD_some]
    omega
  · rw [Nat.add_mod, Nat.mod_mod, ← Nat.add_mod,
      show failed + (d + sh.nqps - failed) = d + sh.nqps by omega, Nat.add_mod_right,
      Nat.mod_eq_of_lt hdq, hdev]
    exact hok

/-! ## The loop over the QPs -/

/-- What one turn of the loop does to the QPs in use. -/
theorem replaceQp_keeps {d d' q : Nat} {todo : List Nat} (hq : q < sh.nqps)
    (h : Replacing sh res d (q :: todo) base) (hd' : d' < sh.ndevs) (hne : d' ≠ d)
    (hok : (res.devs d').state = .Ok) :
    (∃ next, replaceQp base res d q = .ok next ∧ Replacing sh res d todo next ∧
        next = { base with activeQps := next.activeQps }) ∨
      (logsInfo = true ∧ replaceQp base res d q = .error .badPointer) := by
  obtain ⟨p, hp, hactive, hstate⟩ := h.active q hq
  unfold replaceQp
  rw [hactive]
  simp only
  by_cases hdev : (base.qps p).devIndex = d
  · have hn : base.nqps.getD 0 = sh.nqps := by
      rw [h.striped.nqps]
      rfl
    rw [if_neg (not_not_intro hdev), if_neg (by rw [hn]; exact Nat.not_le_of_lt hp)]
    have hfind := findReplacement_other h.striped hp hd'
      (fun he => hne (he.symm.trans hdev)) hok
    obtain ⟨new, hnew⟩ := Option.isSome_iff_exists.mp hfind
    obtain ⟨hnewlt, hnewok⟩ := findReplacement_ok h.striped _ _ _ hnew
    rw [hnew]
    simp only
    by_cases hlog : logsInfo = true
    · exact .inr ⟨hlog, by rw [if_pos hlog]⟩
    · rw [if_neg hlog]
      refine .inl ⟨_, rfl, ⟨?_, ?_⟩, rfl⟩
      · exact striped_activeQps h.striped _
      · intro q' hq'
        by_cases hqq : q' = q
        · subst hqq
          exact ⟨new, hnewlt, Function.update_self .., .inl hnewok⟩
        · obtain ⟨p', hp', hactive', hstate'⟩ := h.active q' hq'
          refine ⟨p', hp', (Function.update_of_ne hqq ..).trans hactive', ?_⟩
          rcases hstate' with hok' | ⟨hmem, hdev'⟩
          · exact .inl hok'
          · rcases List.mem_cons.mp hmem with he | hmem
            · exact absurd he hqq
            · exact .inr ⟨hmem, hdev'⟩
  · rw [if_pos hdev]
    refine .inl ⟨base, rfl, ⟨h.striped, ?_⟩, rfl⟩
    intro q' hq'
    obtain ⟨p', hp', hactive', hstate'⟩ := h.active q' hq'
    refine ⟨p', hp', hactive', ?_⟩
    rcases hstate' with hok' | ⟨hmem, hdev'⟩
    · exact .inl hok'
    rcases List.mem_cons.mp hmem with rfl | hmem
    · rw [hactive] at hactive'
      cases hactive'
      exact absurd hdev' hdev
    · exact .inr ⟨hmem, hdev'⟩

theorem replaceQps_keeps {d d' : Nat} (hd' : d' < sh.ndevs) (hne : d' ≠ d)
    (hok : (res.devs d').state = .Ok) (todo : List Nat) :
    ∀ base, (∀ q ∈ todo, q < sh.nqps) → Replacing sh res d todo base →
      (∃ next, replaceQps res d todo base = (next, .ok ()) ∧ Replacing sh res d [] next ∧
          next = { base with activeQps := next.activeQps }) ∨
        (logsInfo = true ∧ (replaceQps res d todo base).2 = .error .badPointer) := by
  induction todo with
  | nil =>
    intro base _ h
    exact .inl ⟨base, rfl, h, rfl⟩
  | cons q rest ih =>
    intro base hlt h
    unfold replaceQps
    rcases replaceQp_keeps (hlt q (List.mem_cons_self ..)) h hd' hne hok with
      ⟨next, hnext, hkeep, hsame⟩ | ⟨hlog, hbad⟩
    · rw [hnext]
      simp only
      rcases ih next (fun q' hq' => hlt q' (List.mem_cons_of_mem _ hq')) hkeep with
        ⟨last, hlast, hkeep', hsame'⟩ | hbad
      · refine .inl ⟨last, hlast, hkeep', ?_⟩
        rw [hsame] at hsame'
        exact hsame'
      · exact .inr hbad
    · rw [hbad]
      exact .inr ⟨hlog, rfl⟩

/-! ## What the loop leaves -/

/-- Only the QPs in use change. -/
def OnlyActive (base base' : NcclIbNetCommBase) : Prop :=
  base' = { base with activeQps := base'.activeQps }

theorem OnlyActive.refl (base : NcclIbNetCommBase) : OnlyActive base base := rfl

theorem OnlyActive.trans {base'' : NcclIbNetCommBase} (h : OnlyActive base base')
    (h' : OnlyActive base' base'') : OnlyActive base base'' := by
  unfold OnlyActive at *
  rw [h', h]

theorem replaceQp_only {d q : Nat} (h : replaceQp base res d q = .ok base') :
    OnlyActive base base' := by
  unfold replaceQp at h
  split at h
  · cases h
  split at h
  · cases h
    apply OnlyActive.refl
  split at h
  · cases h
  split at h
  · cases h
  split at h
  · cases h
  · cases h
    rfl

theorem replaceQps_only (res : NcclIbResiliency) (d : Nat) (todo : List Nat) :
    ∀ base, OnlyActive base (replaceQps res d todo base).1 := by
  induction todo with
  | nil => exact OnlyActive.refl
  | cons q rest ih =>
    intro base
    unfold replaceQps
    split
    · apply OnlyActive.refl
    · rename_i hq
      exact (replaceQp_only hq).trans (ih _)

/-- A failure of a device changes only the QPs in use and the state of the device. -/
theorem deviceFailure_only {env : ResEnv} {d : Nat} {ret : Except Stop Unit}
    (h : ncclIbResiliencyHandleDeviceFailure env base res d = (base', res', ret)) :
    OnlyActive base base' ∧ res'.ndevs = res.ndevs ∧ res'.probingQps = res.probingQps := by
  unfold ncclIbResiliencyHandleDeviceFailure at h
  split at h
  · cases h
    exact ⟨OnlyActive.refl _, rfl, rfl⟩
  have hbase := replaceQps_only (res.setState d .Error) d (List.range (base.nqps.getD 0)) base
  change OnlyActive base (ncclIbResiliencyReplaceQps base (res.setState d .Error) d).1 at hbase
  simp only at h
  split at h
  · rename_i hrep
    cases h
    rw [hrep] at hbase
    exact ⟨hbase, rfl, rfl⟩
  rename_i hrep
  rw [hrep] at hbase
  split at h
  · cases h
    exact ⟨hbase, rfl, rfl⟩
  split at h
  · cases h
    exact ⟨hbase, rfl, rfl⟩
  · cases h
    exact ⟨hbase, rfl, rfl⟩
  · cases h
    exact ⟨hbase, rfl, rfl⟩

theorem recoveryBegins_error {env : ResEnv} {d : Nat} {e : Stop}
    (h : recoveryBegins env base d = .error e) : logsInfo = true ∧ e = .badPointer := by
  unfold recoveryBegins at h
  split at h
  · cases h
  split at h
  · rename_i hlog
    cases h
    exact ⟨(Bool.and_eq_true_iff.mp hlog).1, rfl⟩
  · cases h

theorem progressDev_only {d : Nat} {ret : Except Stop Unit}
    (h : progressDev base res d = (base', res', ret)) :
    OnlyActive base base' ∧ res'.ndevs = res.ndevs ∧ res'.probingQps = res.probingQps := by
  unfold progressDev at h
  split at h
  · split at h
    · cases h
      exact ⟨OnlyActive.refl _, rfl, rfl⟩
    · cases h
      exact ⟨rfl, rfl, rfl⟩
  · cases h
    exact ⟨OnlyActive.refl _, rfl, rfl⟩
  · cases h
    exact ⟨OnlyActive.refl _, rfl, rfl⟩

/-! ## Failures and restores -/

/-- An error that is not fatal leaves every other device in the Ok state, and there
is another device. -/
theorem others_ok_of_notFatal {status : WcStatus} {d : Nat} (hd : d < res.ndevs)
    (h : ncclIbResiliencyCheckErrorNotFatal res status d = .ok ()) :
    (∀ d' < res.ndevs, d' ≠ d → (res.devs d').state = .Ok) ∧ 1 < res.ndevs := by
  unfold ncclIbResiliencyCheckErrorNotFatal at h
  simp only at h
  generalize hp : (fun i => decide (i = d ∨ (res.devs i).state ≠ .Ok)) = p at h
  have hpd : p d = true := by
    rw [← hp]
    simp
  have hone : 0 < (List.range res.ndevs).countP p :=
    List.countP_pos_iff.mpr ⟨d, List.mem_range.mpr hd, hpd⟩
  split at h
  · cases h
  rename_i hle
  split at h
  · rename_i hlt
    refine ⟨fun d' hd' hne => ?_, by omega⟩
    by_contra hbad
    have hpd' : p d' = true := by
      rw [← hp]
      simp [hbad]
    -- Two devices would be counted.
    have hsub : [d, d'].Subperm ((List.range res.ndevs).filter p) := by
      refine List.subperm_of_subset (by simp [Ne.symm hne]) ?_
      intro x hx
      rcases List.mem_cons.mp hx with rfl | hx
      · exact List.mem_filter.mpr ⟨List.mem_range.mpr hd, hpd⟩
      · rw [List.mem_singleton.mp hx]
        exact List.mem_filter.mpr ⟨List.mem_range.mpr hd', hpd'⟩
    have := hsub.length_le
    rw [← List.countP_eq_length_filter] at this
    simp only [List.length_cons, List.length_nil] at this
    omega
  · cases h

/-- What a failure of a device does, when it is not fatal: the QPs in use move, and
nothing else of the comm changes. -/
theorem handleDeviceFailure_keeps {env : ResEnv} {status : WcStatus} {d : Nat}
    {ret : Except Stop Unit} (h : OnOkDevices sh base res) (hd : d < res.ndevs)
    (hcheck : ncclIbResiliencyCheckErrorNotFatal res status d = .ok ())
    (hfail : ncclIbResiliencyHandleDeviceFailure env base res d = (base', res', ret)) :
    (ret = .ok () ∧ OnOkDevices sh base' res' ∧
        base' = { base with activeQps := base'.activeQps }) ∨
      (logsInfo = true ∧ ret = .error .badPointer) := by
  obtain ⟨hothers, htwo⟩ := others_ok_of_notFatal hd hcheck
  unfold ncclIbResiliencyHandleDeviceFailure at hfail
  split at hfail
  · cases hfail
    exact .inl ⟨rfl, h, rfl⟩
  obtain ⟨d', hd', hne⟩ : ∃ d' < res.ndevs, d' ≠ d := by
    by_cases hz : d = 0
    · exact ⟨1, htwo, by omega⟩
    · exact ⟨0, by omega, by omega⟩
  have hstate : ((res.setState d .Error).devs d').state = .Ok := by
    rw [setState_state, if_neg hne]
    exact hothers d' hd' hne
  have hstart : Replacing sh (res.setState d .Error) d (List.range sh.nqps) base := by
    refine ⟨h.striped, fun q hq => ?_⟩
    obtain ⟨p, hp, hactive, hok⟩ := h.active q hq
    refine ⟨p, hp, hactive, ?_⟩
    by_cases hpd : (base.qps p).devIndex = d
    · exact .inr ⟨List.mem_range.mpr hq, hpd⟩
    · rw [setState_state, if_neg hpd]
      exact .inl hok
  simp only [ncclIbResiliencyReplaceQps, h.striped.nqps, Option.getD_some] at hfail
  rcases replaceQps_keeps (h.ndevs ▸ hd') hne hstate _ base
      (fun q hq => List.mem_range.mp hq) hstart with ⟨next, hnext, hkeep, hsame⟩ | ⟨hlog, hbad⟩
  · rw [hnext] at hfail
    simp only at hfail
    -- The QPs in use are on other devices, whose states stay.
    have hdone : ∀ st, OnOkDevices sh next ((res.setState d .Error).setState d st) := by
      intro st
      refine ⟨hkeep.striped, h.ndevs, fun q hq => ?_⟩
      obtain ⟨p, hp, hactive, hstate⟩ := hkeep.active q hq
      rcases hstate with hok | ⟨hmem, _⟩
      · refine ⟨p, hp, hactive, ?_⟩
        have hpd : (next.qps p).devIndex ≠ d := by
          intro he
          rw [setState_state, if_pos he] at hok
          cases hok
        rw [setState_state, if_neg hpd]
        exact hok
      · cases hmem
    have herr : res.setState d .Error = (res.setState d .Error).setState d .Error := by
      unfold NcclIbResiliency.setState
      simp
    split at hfail
    · cases hfail
      exact .inl ⟨rfl, herr ▸ hdone .Error, hsame⟩
    split at hfail
    · rename_i e hbegin
      cases hfail
      obtain ⟨hlog, rfl⟩ := recoveryBegins_error hbegin
      exact .inr ⟨hlog, rfl⟩
    · cases hfail
      obtain ⟨h1, h2, h3⟩ := hdone .RecoveryInProgress
      exact .inl ⟨rfl, ⟨h1, h2, h3⟩, hsame⟩
    · cases hfail
      exact .inl ⟨rfl, hdone _, hsame⟩
  · right
    refine ⟨hlog, ?_⟩
    generalize hout : replaceQps (res.setState d .Error) d (List.range sh.nqps) base = out
      at hfail hbad
    obtain ⟨next, ret'⟩ := out
    cases ret' with
    | ok u => cases hbad
    | error e =>
      cases hbad
      cases hfail
      rfl

/-! ## The first failure -/

/-- All devices are in the Ok state, and every QP is in use in its own place. -/
structure AllInUse (sh : Shape) (base : NcclIbNetCommBase) (res : NcclIbResiliency) : Prop where
  striped : Striped sh base
  ndevs : res.ndevs = sh.ndevs
  active : ∀ q < sh.nqps, base.activeQps q = some q
  ok : ∀ d < sh.ndevs, (res.devs d).state = .Ok

/-- The loop stops at the first QP that it would replace. -/
theorem replaceQps_stops {d d' : Nat} (hs : Striped sh base)
    (hactive : ∀ q < sh.nqps, base.activeQps q = some q) (hd' : d' < sh.ndevs) (hne : d' ≠ d)
    (hok : (res.devs d').state = .Ok) (todo : List Nat) (hlt : ∀ q ∈ todo, q < sh.nqps)
    (hmem : ∃ q ∈ todo, (base.qps q).devIndex = d) :
    (replaceQps res d todo base).2 = .error .badPointer := by
  induction todo with
  | nil =>
    obtain ⟨q, hq, _⟩ := hmem
    cases hq
  | cons q rest ih =>
    have hq : q < sh.nqps := hlt q (List.mem_cons_self ..)
    unfold replaceQps replaceQp
    rw [hactive q hq]
    simp only
    by_cases hdev : (base.qps q).devIndex = d
    · have hn : base.nqps.getD 0 = sh.nqps := by
        rw [hs.nqps]
        rfl
      have hfind := findReplacement_other hs hq hd' (fun he => hne (he.symm.trans hdev)) hok
      obtain ⟨new, hnew⟩ := Option.isSome_iff_exists.mp hfind
      rw [if_neg (not_not_intro hdev), if_neg (by rw [hn]; exact Nat.not_le_of_lt hq), hnew]
      rfl
    · rw [if_pos hdev]
      refine ih (fun q' hq' => hlt q' (List.mem_cons_of_mem _ hq')) ?_
      obtain ⟨q', hq', hdev'⟩ := hmem
      rcases List.mem_cons.mp hq' with rfl | hq'
      · exact absurd hdev' hdev
      · exact ⟨q', hq', hdev'⟩

/-- At the log level of the plugin the first failure that is not fatal stops at the `qp`
pointer of the QP that it would replace. -/
theorem first_failure_stops (h : AllInUse sh base res) (env : ResEnv) {status : WcStatus} {d : Nat}
    (hd : d < sh.ndevs) (hcheck : ncclIbResiliencyCheckErrorNotFatal res status d = .ok ()) :
    (ncclIbResiliencyHandleDeviceFailure env base res d).2.2 = .error .badPointer := by
  obtain ⟨hothers, htwo⟩ := others_ok_of_notFatal (h.ndevs.symm ▸ hd) hcheck
  obtain ⟨d', hd', hne⟩ : ∃ d' < res.ndevs, d' ≠ d := by
    by_cases hz : d = 0
    · exact ⟨1, htwo, by omega⟩
    · exact ⟨0, by omega, by omega⟩
  have hstate : ((res.setState d .Error).devs d').state = .Ok := by
    rw [setState_state, if_neg hne]
    exact hothers d' hd' hne
  -- QP `d` lies on device `d`.
  have hdq : d < sh.nqps := Nat.lt_of_lt_of_le hd
    (Nat.le_trans sh.ndevs_le_nDataQps sh.nDataQps_le_nqps)
  have hstop := replaceQps_stops h.striped h.active (h.ndevs ▸ hd') hne hstate (List.range sh.nqps)
    (fun q hq => List.mem_range.mp hq)
    ⟨d, List.mem_range.mpr hdq, by rw [h.striped.devIndex d hdq, Nat.mod_eq_of_lt hd]⟩
  unfold ncclIbResiliencyHandleDeviceFailure
  simp only [h.ok d hd, ne_eq, not_true_eq_false, if_false, ncclIbResiliencyReplaceQps,
    h.striped.nqps, Option.getD_some]
  split
  · rename_i hrep
    rw [hrep] at hstop
    exact hstop
  · rename_i hrep
    rw [hrep] at hstop
    cases hstop

/-- A device whose recovery has ended is taken back into use, or given up. -/
theorem progressDev_keeps {d : Nat} (h : OnOkDevices sh base res)
    (hdev : progressDev base res d = (base', res', .ok ())) :
    OnOkDevices sh base' res' ∧ base' = { base with activeQps := base'.activeQps } := by
  unfold progressDev at hdev
  split at hdev
  · split at hdev
    · cases hdev
    cases hdev
    refine ⟨⟨?_, h.ndevs, fun q hq => ?_⟩, rfl⟩
    · exact striped_activeQps h.striped _
    · by_cases hqd : (base.qps q).devIndex = d
      · refine ⟨q, hq, ?_, ?_⟩
        · simp [ncclIbResiliencyActiveQpsRestore, h.striped.nqps, hq, hqd]
        · simp [ncclIbResiliencyActiveQpsRestore, hqd, NcclIbResiliency.setState]
      · obtain ⟨p, hp, hactive, hok⟩ := h.active q hq
        refine ⟨p, hp, ?_, ?_⟩
        · simp [ncclIbResiliencyActiveQpsRestore, hqd, hactive]
        · show ((res.setState d .Ok).devs (base.qps p).devIndex).state = .Ok
          rw [setState_state]
          split
          · rfl
          · exact hok
  · rename_i hfailed
    cases hdev
    refine ⟨⟨h.striped, h.ndevs, fun q hq => ?_⟩, rfl⟩
    obtain ⟨p, hp, hactive, hok⟩ := h.active q hq
    refine ⟨p, hp, hactive, ?_⟩
    show ((res.setState d .ErrorPermanent).devs (base.qps p).devIndex).state = .Ok
    have hpd : (base.qps p).devIndex ≠ d := by
      rintro rfl
      rw [hok] at hfailed
      cases hfailed
    rw [setState_state, if_neg hpd]
    exact hok
  · cases hdev
    exact ⟨h, rfl⟩

/-- The turn of a device leaves every QP in its own place. -/
theorem progressDev_inUse {d : Nat} {ret : Except Stop Unit} (h : AllInUse sh base res)
    (hdev : progressDev base res d = (base', res', ret)) : AllInUse sh base' res' := by
  -- A device in recovery is none of the comm's.
  have hstate : (res.devs d).state ≠ .Ok → ∀ st, ∀ d' < sh.ndevs,
      ((res.setState d st).devs d').state = .Ok := by
    intro hout st d' hd'
    have hne : d' ≠ d := by
      rintro rfl
      exact hout (h.ok d' hd')
    rw [setState_state, if_neg hne]
    exact h.ok d' hd'
  unfold progressDev at hdev
  split at hdev
  · rename_i hst
    split at hdev
    · cases hdev
      exact h
    · cases hdev
      refine ⟨striped_activeQps h.striped _, h.ndevs, fun q hq => ?_, hstate (by rw [hst]; simp) _⟩
      simp only [ncclIbResiliencyActiveQpsRestore]
      split
      · rfl
      · exact h.active q hq
  · rename_i hst
    cases hdev
    exact ⟨h.striped, h.ndevs, h.active, hstate (by rw [hst]; simp) _⟩
  · cases hdev
    exact h

/-- The recovery thread only touches a device that is out of use. -/
theorem thread_keeps {d : Nat} {st : DevState} (h : OnOkDevices sh base res)
    (hout : (res.devs d).state ≠ .Ok) : OnOkDevices sh base (res.setState d st) := by
  refine ⟨h.striped, h.ndevs, fun q hq => ?_⟩
  obtain ⟨p, hp, hactive, hok⟩ := h.active q hq
  refine ⟨p, hp, hactive, ?_⟩
  have hpd : (base.qps p).devIndex ≠ d := by
    rintro rfl
    exact hout hok
  rw [setState_state, if_neg hpd]
  exact hok

end

end net_ib.resiliency
