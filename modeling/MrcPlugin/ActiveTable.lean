-- The table of QPs in use over whole runs of a comm with a resiliency context, on
-- either side (p2p_resiliency.cc): data and probes fail, the recovery thread gets done
-- with devices, and the comm takes note of it. Two facts about the table hold together:
-- its entries lie on devices in the Ok state, and a QP whose own device is in the Ok
-- state has its own entry.
import MrcPlugin.ActiveQps
import MrcPlugin.QpLookup
import MrcPlugin.Lib.Runs

namespace net_ib.resiliency

open p2p recovery

/-! ## The runs -/

/-- A comm of one side and its resiliency context. -/
inductive ResComm
  | send (s : ResSendComm)
  | recv (s : ResRecvComm)

def ResComm.base : ResComm → NcclIbNetCommBase
  | .send s => s.comm.base
  | .recv s => s.comm.base

def ResComm.res : ResComm → NcclIbResiliency
  | .send s => s.res.base
  | .recv s => s.res

/-- What happens to the devices of a comm: the completion of a data QP or of a probe
has an error, a failed request has its turn in `ncclIbResiliencyProgress`, the recovery
thread is done with a device, or the device has its turn. -/
inductive DeviceAct
  | dataError (env : ResEnv) (status : WcStatus) (wr_id d : Nat)
  | probeEvent (env : ResEnv) (status : WcStatus) (wr_id d : Nat)
  | request (net : NetEnv) (env : ResEnv) (k : Nat)
  | thread (d : Nat) (st : DevState)
  | recovery (d : Nat)

/-- The state after a handler. There is none after a bad pointer. -/
def afterHandler (x : ResComm) : Except Stop Unit → Option ResComm
  | .ok () => some x
  | .error (.ret _) => some x
  | .error _ => none

/-- One step of a comm. Only a send comm has probes and failed requests. -/
def ResComm.next : DeviceAct → ResComm → Option ResComm
  | .dataError env status wr_id d, .send s =>
    if d < s.res.base.ndevs then
      let (t, ret) := sendCompletionError env s status wr_id d
      afterHandler (.send t) ret
    else none
  | .dataError env status wr_id d, .recv s =>
    if d < s.res.ndevs then
      let out := recvCompletionError env s status wr_id d
      afterHandler (.recv out.comm) out.ret
    else none
  | .probeEvent env status wr_id d, .send s =>
    if d < s.res.base.ndevs then
      let (t, ret) := ncclIbResiliencyProbeHandleCompletionEvent env s status wr_id d
      afterHandler (.send t) ret
    else none
  | .request net env k, .send s =>
    let out := progressRequest net env s k
    afterHandler (.send out.comm) out.ret
  | .thread d st, .send s =>
    if (s.res.base.devs d).state = .RecoveryInProgress ∧ (st = .Recovered ∨ st = .RecoveryFailed)
    then some (.send { s with res := { s.res with base := s.res.base.setState d st } })
    else none
  | .thread d st, .recv s =>
    if (s.res.devs d).state = .RecoveryInProgress ∧ (st = .Recovered ∨ st = .RecoveryFailed) then
      some (.recv { s with res := s.res.setState d st })
    else none
  | .recovery d, .send s =>
    let (base, res, ret) := progressDev s.comm.base s.res.base d
    afterHandler (.send ⟨{ s.comm with base }, { s.res with base := res }⟩) ret
  | .recovery d, .recv s =>
    let (base, res, ret) := progressDev s.comm.base s.res d
    afterHandler (.recv ⟨{ s.comm with base }, res⟩) ret
  | _, _ => none

/-- A comm with two devices or more, as the handshake leaves it. -/
structure ResComm.Init (sh : Shape) (x : ResComm) : Prop where
  striped : Striped sh x.base
  two : 2 ≤ sh.ndevs
  ndevs : x.res.ndevs = sh.ndevs
  active : ∀ q < sh.nqps, x.base.activeQps q = some q
  ok : ∀ d < sh.ndevs, (x.res.devs d).state = .Ok

/-- The runs of a comm of shape `sh`. -/
def deviceSystem (sh : Shape) : runs.System ResComm where
  init := ResComm.Init sh
  step := fun x y => ∃ act, x.next act = some y

/-! ## The invariant -/

/-- Every QP in use lies on a device in the Ok state, and each QP whose device is in
the Ok state is in use in its own place. -/
structure ActiveTable (sh : Shape) (base : NcclIbNetCommBase) (res : NcclIbResiliency) : Prop
    extends OnOkDevices sh base res where
  own : ∀ q < sh.nqps, (res.devs (base.qps q).devIndex).state = .Ok → base.activeQps q = some q

/-- What the table depends on is as before. -/
structure SameTable (base base' : NcclIbNetCommBase) (res res' : NcclIbResiliency) : Prop where
  ndevs : base'.ndevs = base.ndevs
  nqps : base'.nqps = base.nqps
  nDataQps : base'.nDataQps = base.nDataQps
  qps : base'.qps = base.qps
  activeQps : base'.activeQps = base.activeQps
  resNdevs : res'.ndevs = res.ndevs
  state : ∀ d, (res'.devs d).state = (res.devs d).state

section
variable {sh : Shape} {base base' base'' : NcclIbNetCommBase} {res res' res'' : NcclIbResiliency}

theorem SameTable.refl (base : NcclIbNetCommBase) (res : NcclIbResiliency) :
    SameTable base base res res := ⟨rfl, rfl, rfl, rfl, rfl, rfl, fun _ => rfl⟩

theorem SameTable.trans (h : SameTable base base' res res') (h' : SameTable base' base'' res' res'') :
    SameTable base base'' res res'' :=
  ⟨h'.1.trans h.1, h'.2.trans h.2, h'.3.trans h.3, h'.4.trans h.4, h'.5.trans h.5, h'.6.trans h.6,
    fun d => (h'.7 d).trans (h.7 d)⟩

/-- A change of the requests alone leaves the table. -/
theorem sameTable_withReqs (comm : NcclIbSendComm) (reqs : Nat → NcclIbRequest)
    (res : NcclIbResiliency) : SameTable comm.base (comm.withReqs reqs).base res res :=
  ⟨rfl, rfl, rfl, rfl, rfl, rfl, fun _ => rfl⟩

theorem ActiveTable.same (h : ActiveTable sh base res) (hs : SameTable base base' res res') :
    ActiveTable sh base' res' := by
  refine ⟨⟨?_, hs.resNdevs.trans h.ndevs, fun q hq => ?_⟩, fun q hq hok => ?_⟩
  · exact ⟨hs.ndevs.trans h.striped.ndevs, hs.nqps.trans h.striped.nqps,
      hs.nDataQps.trans h.striped.nDataQps, hs.qps ▸ h.striped.devIndex,
      hs.qps ▸ h.striped.remDevIdx⟩
  · obtain ⟨p, hp, hactive, hok⟩ := h.active q hq
    refine ⟨p, hp, (congrFun hs.activeQps q).trans hactive, ?_⟩
    rw [hs.state, hs.qps]
    exact hok
  · rw [hs.state, hs.qps] at hok
    exact (congrFun hs.activeQps q).trans (h.own q hq hok)

theorem ResComm.Init.table {x : ResComm} (h : x.Init sh) : ActiveTable sh x.base x.res := by
  refine ⟨⟨h.striped, h.ndevs, fun q hq => ⟨q, hq, h.active q hq, h.ok _ ?_⟩⟩,
    fun q hq _ => h.active q hq⟩
  rw [h.striped.devIndex q hq]
  exact Nat.mod_lt _ sh.ndevs_pos

/-! ## A failure -/

/-- A turn of the loop leaves a QP in its own place when its device is another one. -/
theorem replaceQp_own {d q q' : Nat} (hown : base.activeQps q' = some q')
    (hdev : (base.qps q').devIndex ≠ d) (h : replaceQp base res d q = .ok base') :
    base'.activeQps q' = some q' ∧ base'.qps = base.qps := by
  unfold replaceQp at h
  cases hactive : base.activeQps q with
  | none =>
    rw [hactive] at h
    cases h
  | some p =>
    rw [hactive] at h
    simp only at h
    split at h
    · cases h
      exact ⟨hown, rfl⟩
    rename_i hp
    have hne : q' ≠ q := by
      rintro rfl
      rw [hown] at hactive
      cases hactive
      exact hp hdev
    split at h
    · cases h
    split at h
    · cases h
    split at h
    · cases h
    · cases h
      exact ⟨(Function.update_of_ne hne ..).trans hown, rfl⟩

theorem replaceQps_own {d q' : Nat} (todo : List Nat) :
    ∀ base : NcclIbNetCommBase, base.activeQps q' = some q' → (base.qps q').devIndex ≠ d →
      (replaceQps res d todo base).1.activeQps q' = some q' ∧
        (replaceQps res d todo base).1.qps = base.qps := by
  induction todo with
  | nil => exact fun base hown _ => ⟨hown, rfl⟩
  | cons q rest ih =>
    intro base hown hdev
    unfold replaceQps
    split
    · exact ⟨hown, rfl⟩
    · rename_i next hnext
      obtain ⟨hown', hqps⟩ := replaceQp_own hown hdev hnext
      obtain ⟨hlast, hqps'⟩ := ih next hown' (hqps ▸ hdev)
      exact ⟨hlast, hqps'.trans hqps⟩

/-- A failure takes no QP out of its own place when its device stays in the Ok state. -/
theorem handleDeviceFailure_own {env : ResEnv} {d q : Nat} {ret : Except Stop Unit}
    (hown : (res.devs (base.qps q).devIndex).state = .Ok → base.activeQps q = some q)
    (hfail : ncclIbResiliencyHandleDeviceFailure env base res d = (base', res', ret))
    (hqps : base'.qps = base.qps) (hok : (res'.devs (base'.qps q).devIndex).state = .Ok) :
    base'.activeQps q = some q := by
  rw [hqps] at hok
  unfold ncclIbResiliencyHandleDeviceFailure at hfail
  split at hfail
  · cases hfail
    exact hown hok
  -- The failed device has left the Ok state, so it is not the device of `q`.
  have hleave : ∀ st : DevState, st ≠ .Ok →
      (((res.setState d .Error).setState d st).devs (base.qps q).devIndex).state = .Ok →
      (base.qps q).devIndex ≠ d ∧ (res.devs (base.qps q).devIndex).state = .Ok := by
    intro st hst h
    rw [setState_state, setState_state] at h
    by_cases hd : (base.qps q).devIndex = d
    · rw [if_pos hd] at h
      exact absurd h hst
    · rw [if_neg hd, if_neg hd] at h
      exact ⟨hd, h⟩
  have hkept : (base.qps q).devIndex ≠ d ∧ (res.devs (base.qps q).devIndex).state = .Ok →
      ∀ out, ncclIbResiliencyReplaceQps base (res.setState d .Error) d = out →
        out.1.activeQps q = some q := by
    rintro ⟨hd, hbefore⟩ out rfl
    exact (replaceQps_own _ base (hown hbefore) hd).1
  have herr : res.setState d .Error = (res.setState d .Error).setState d .Error := by
    unfold NcclIbResiliency.setState
    simp
  simp only at hfail
  split at hfail
  · rename_i hout
    cases hfail
    rw [herr] at hok
    exact hkept (hleave .Error (by simp) hok) _ hout
  rename_i hout
  split at hfail
  · cases hfail
    rw [herr] at hok
    exact hkept (hleave .Error (by simp) hok) _ hout
  split at hfail
  · cases hfail
    exact hkept (hleave .RecoveryInProgress (by simp) hok) _ hout
  · cases hfail
    exact hkept (hleave .RecoveryInProgress (by simp) hok) _ hout
  · cases hfail
    refine hkept (hleave _ ?_ hok) _ hout
    split <;> simp

/-- A failure that is not fatal keeps the table. -/
theorem ActiveTable.fails {env : ResEnv} {status : WcStatus} {d : Nat} {ret : Except Stop Unit}
    (h : ActiveTable sh base res) (hd : d < res.ndevs)
    (hcheck : ncclIbResiliencyCheckErrorNotFatal res status d = .ok ())
    (hfail : ncclIbResiliencyHandleDeviceFailure env base res d = (base', res', ret)) :
    (ret = .ok () ∧ ActiveTable sh base' res') ∨ ret = .error .badPointer := by
  rcases handleDeviceFailure_keeps h.toOnOkDevices hd hcheck hfail with
    ⟨hret, hok, hsame⟩ | ⟨_, hbad⟩
  · have hqps : base'.qps = base.qps := by rw [hsame]
    exact .inl ⟨hret, hok, fun q hq => handleDeviceFailure_own (h.own q hq) hfail hqps⟩
  · exact .inr hbad

/-! ## A recovery -/

/-- The turn of a device fails only at a bad pointer. -/
theorem progressDev_error {d : Nat} {e : Stop}
    (hdev : progressDev base res d = (base', res', .error e)) : e = .badPointer := by
  unfold progressDev at hdev
  split at hdev
  · split at hdev
    · cases hdev
      rfl
    · cases hdev
  · cases hdev
  · cases hdev

theorem ActiveTable.recovery {d : Nat} {ret : Except Stop Unit}
    (h : ActiveTable sh base res) (hdev : progressDev base res d = (base', res', ret))
    (hret : ret ≠ .error .badPointer) : ActiveTable sh base' res' := by
  cases ret with
  | error e => exact absurd (congrArg _ (progressDev_error hdev)) hret
  | ok u =>
    refine ⟨(progressDev_keeps h.toOnOkDevices hdev).1, fun q hq hok => ?_⟩
    unfold progressDev at hdev
    split at hdev
    · split at hdev
      · cases hdev
      cases hdev
      simp only [ncclIbResiliencyActiveQpsRestore, h.striped.nqps, Option.getD_some, hq, true_and]
      split
      · rfl
      · rename_i hne
        refine h.own q hq ?_
        change ((res.setState d .Ok).devs (base.qps q).devIndex).state = .Ok at hok
        rwa [setState_state, if_neg hne] at hok
    · cases hdev
      change ((res.setState d .ErrorPermanent).devs (base.qps q).devIndex).state = .Ok at hok
      rw [setState_state] at hok
      split at hok
      · cases hok
      · exact h.own q hq hok
    · cases hdev
      exact h.own q hq hok

theorem ActiveTable.thread {d : Nat} {st : DevState} (h : ActiveTable sh base res)
    (hd : (res.devs d).state = .RecoveryInProgress) (hst : st ≠ .Ok) :
    ActiveTable sh base (res.setState d st) := by
  refine ⟨thread_keeps h.toOnOkDevices (by rw [hd]; simp), fun q hq hok => ?_⟩
  rw [setState_state] at hok
  split at hok
  · exact absurd hok hst
  · exact h.own q hq hok

/-! ## The failed requests -/

theorem repostParts_sameTable (res : NcclIbResiliencySend) (slot i : Nat)
    (parts : List Nat) : ∀ comm : NcclIbSendComm,
      SameTable comm.base (repostParts res slot i parts comm).1.base res.base res.base := by
  induction parts with
  | nil => exact fun comm => SameTable.refl ..
  | cons part parts ih =>
    intro comm
    unfold repostParts
    split
    · apply SameTable.refl
    split
    · apply ih
    split
    · apply SameTable.refl
    · exact (sameTable_withReqs comm _ _).trans (ih _)

theorem repostSends_sameTable (res : NcclIbResiliencySend) (slot : Nat)
    (rs : List Nat) : ∀ comm : NcclIbSendComm,
      SameTable comm.base (repostSends res slot rs comm).1.base res.base res.base := by
  induction rs with
  | nil => exact fun comm => SameTable.refl ..
  | cons r rs ih =>
    intro comm
    unfold repostSends
    split
    · apply SameTable.refl
    rename_i i _
    simp only
    split
    · apply sameTable_withReqs
    rename_i nqps _
    have hparts := repostParts_sameTable res slot i (List.range nqps)
      (comm.withReqs (Function.update comm.base.reqs i (clearEvents (comm.base.reqs i))))
    split
    · rename_i hrep
      rw [hrep] at hparts
      exact (sameTable_withReqs comm _ _).trans hparts
    · rename_i hrep
      rw [hrep] at hparts
      exact ((sameTable_withReqs comm _ _).trans hparts).trans (ih _)

theorem clearGroup_sameTable (slot : Nat) (res : NcclIbResiliency) (rs : List Nat) :
    ∀ comm : NcclIbSendComm, SameTable comm.base (clearGroup slot rs comm).1.base res res := by
  induction rs with
  | nil => exact fun comm => SameTable.refl ..
  | cons r rs ih =>
    intro comm
    unfold clearGroup
    split
    · apply SameTable.refl
    · exact (sameTable_withReqs comm _ _).trans (ih _)

theorem multiSend_sameTable {net : NetEnv} {comm comm' : NcclIbSendComm} {slot : Nat}
    {posts : List SendPost} (h : ncclIbMultiSend net comm slot = .ok (comm', posts))
    (res : NcclIbResiliency) : SameTable comm.base comm'.base res res := by
  obtain ⟨qps, hpost⟩ := multiSend_post h
  cases hpost
  exact ⟨rfl, rfl, rfl, rfl, rfl, rfl, fun _ => rfl⟩

theorem handleProbe_sameTable (net : NetEnv) (s : ResSendComm) (i : Nat) :
    SameTable s.comm.base (ncclIbResiliencyHandleProbeCompleted net s i).comm.base
      s.res.base s.res.base := by
  unfold ncclIbResiliencyHandleProbeCompleted
  simp only
  split
  · unfold ncclIbResiliencyRepostRequest
    simp only
    split
    · apply SameTable.refl
    have hsends := repostSends_sameTable s.res (slotOf (s.comm.base.reqs i).id)
      (List.range (s.comm.base.reqs i).nreqs) s.comm
    split
    · rename_i hrep
      rwa [hrep] at hsends
    · rename_i hrep
      rw [hrep] at hsends
      split
      · exact hsends
      · rename_i hmulti
        exact hsends.trans (multiSend_sameTable hmulti _)
  · apply clearGroup_sameTable

theorem probePost_sameTable (env : ResEnv) (base : NcclIbNetCommBase) (res : NcclIbResiliencySend)
    (k i : Nat) :
    SameTable base base res.base (ncclIbResiliencyProbePost env base res k i).comm.base := by
  unfold ncclIbResiliencyProbePost
  simp only
  split
  · apply SameTable.refl
  split
  · apply SameTable.refl
  split
  · apply SameTable.refl
  split
  · apply SameTable.refl
  · refine ⟨rfl, rfl, rfl, rfl, rfl, rfl, fun d => ?_⟩
    simp only [Function.update_apply]
    split
    · rename_i hd
      rw [hd]
    · rfl

/-- The turn of a failed request leaves the table. -/
theorem progressRequest_sameTable (net : NetEnv) (env : ResEnv) (s : ResSendComm) (k : Nat) :
    SameTable s.comm.base (progressRequest net env s k).comm.comm.base s.res.base
      (progressRequest net env s k).comm.res.base := by
  unfold progressRequest
  simp only
  split
  · apply probePost_sameTable
  · rename_i i _ _
    have hprobe := handleProbe_sameTable net s i
    split
    · exact hprobe
    · refine hprobe.trans ?_
      unfold ncclIbResiliencySendRequestFree
      simp only
      split
      · apply SameTable.refl
      · exact ⟨rfl, rfl, rfl, rfl, rfl, rfl, fun _ => rfl⟩
  · apply SameTable.refl

end

/-! ## One step -/

/-- The error of a completion of a send comm. -/
theorem sendError_table {sh : Shape} {env : ResEnv} {s t : ResSendComm} {status : WcStatus}
    {wr_id d : Nat} {ret : Except Stop Unit} (h : ActiveTable sh s.comm.base s.res.base)
    (hd : d < s.res.base.ndevs) (herr : sendCompletionError env s status wr_id d = (t, ret)) :
    ActiveTable sh t.comm.base t.res.base ∨ ret = .error .badPointer := by
  unfold sendCompletionError at herr
  cases hcheck : ncclIbResiliencyCheckErrorNotFatal s.res.base status d with
  | error e =>
    rw [hcheck] at herr
    cases herr
    exact .inl h
  | ok u =>
    rw [hcheck] at herr
    simp only at herr
    split at herr
    · rename_i hfail
      cases herr
      rcases h.fails hd hcheck hfail with ⟨_, hkept⟩ | hbad
      · exact .inl hkept
      · exact .inr hbad
    · rename_i base res hfail
      have hkept : ActiveTable sh base res := by
        rcases h.fails hd hcheck hfail with ⟨_, hkept⟩ | hbad
        · exact hkept
        · cases hbad
      -- The entry of the failed request is not part of the table.
      left
      unfold ncclIbResiliencyHandleCompletionErrorSender at herr
      simp only at herr
      split at herr
      · cases herr
        exact hkept
      · rename_i i _
        cases herr
        refine hkept.same ?_
        unfold ncclIbResiliencySendRequestInit
        simp only
        split
        · apply SameTable.refl
        split
        · apply SameTable.refl
        split
        · apply SameTable.refl
        · exact ⟨rfl, rfl, rfl, rfl, rfl, rfl, fun _ => rfl⟩

/-- The error of a completion of a receive comm. -/
theorem recvError_table {sh : Shape} {env : ResEnv} {s : ResRecvComm} {status : WcStatus}
    {wr_id d : Nat} (h : ActiveTable sh s.comm.base s.res) (hd : d < s.res.ndevs) :
    ActiveTable sh (recvCompletionError env s status wr_id d).comm.comm.base
        (recvCompletionError env s status wr_id d).comm.res ∨
      (recvCompletionError env s status wr_id d).ret = .error .badPointer := by
  unfold recvCompletionError
  cases hcheck : ncclIbResiliencyCheckErrorNotFatal s.res status d with
  | error e => exact .inl h
  | ok u =>
    simp only
    split
    · rename_i hfail
      rcases h.fails hd hcheck hfail with ⟨_, hkept⟩ | hbad
      · exact .inl hkept
      · exact .inr hbad
    · rename_i base res hfail
      have hkept : ActiveTable sh base res := by
        rcases h.fails hd hcheck hfail with ⟨_, hkept⟩ | hbad
        · exact hkept
        · cases hbad
      left
      refine hkept.same ?_
      unfold ncclIbResiliencyHandleCompletionErrorReceiver
      simp only
      split
      · apply SameTable.refl
      split
      · apply SameTable.refl
      split
      · apply SameTable.refl
      split
      · exact ⟨rfl, rfl, rfl, rfl, rfl, rfl, fun _ => rfl⟩
      · split <;> apply SameTable.refl
      · apply SameTable.refl
      · apply SameTable.refl

/-- The completion of a probe. -/
theorem probeEvent_table {sh : Shape} {env : ResEnv} {s t : ResSendComm} {status : WcStatus}
    {wr_id d : Nat} {ret : Except Stop Unit} (h : ActiveTable sh s.comm.base s.res.base)
    (hd : d < s.res.base.ndevs)
    (hev : ncclIbResiliencyProbeHandleCompletionEvent env s status wr_id d = (t, ret)) :
    ActiveTable sh t.comm.base t.res.base ∨ ret = .error .badPointer := by
  unfold ncclIbResiliencyProbeHandleCompletionEvent at hev
  simp only at hev
  split at hev
  · cases hev
    exact .inl h
  cases hcheck : ncclIbResiliencyCheckErrorNotFatal s.res.base status d with
  | error e =>
    rw [hcheck] at hev
    cases hev
    exact .inl h
  | ok u =>
    rw [hcheck] at hev
    simp only at hev
    split at hev
    · rename_i hfail
      cases hev
      rcases h.fails hd hcheck hfail with ⟨_, hkept⟩ | hbad
      · exact .inl hkept
      · exact .inr hbad
    · rename_i base res hfail
      cases hev
      rcases h.fails hd hcheck hfail with ⟨_, hkept⟩ | hbad
      · exact .inl hkept
      · cases hbad

theorem afterHandler_cases {x y : ResComm} {ret : Except Stop Unit}
    (h : afterHandler x ret = some y) : y = x ∧ ret ≠ .error .badPointer := by
  unfold afterHandler at h
  split at h
  · cases h
    exact ⟨rfl, by simp⟩
  · cases h
    exact ⟨rfl, by simp⟩
  · cases h

/-- Every step of a comm keeps the table. -/
theorem next_table {sh : Shape} {act : DeviceAct} {x y : ResComm}
    (h : ActiveTable sh x.base x.res) (hnext : x.next act = some y) :
    ActiveTable sh y.base y.res := by
  cases act with
  | dataError env status wr_id d =>
    cases x with
    | send s =>
      simp only [ResComm.next] at hnext
      split at hnext
      · rename_i hd
        obtain ⟨rfl, hret⟩ := afterHandler_cases hnext
        exact (sendError_table h hd rfl).resolve_right hret
      · cases hnext
    | recv s =>
      simp only [ResComm.next] at hnext
      split at hnext
      · rename_i hd
        obtain ⟨rfl, hret⟩ := afterHandler_cases hnext
        exact (recvError_table h hd).resolve_right hret
      · cases hnext
  | probeEvent env status wr_id d =>
    cases x with
    | send s =>
      simp only [ResComm.next] at hnext
      split at hnext
      · rename_i hd
        obtain ⟨rfl, hret⟩ := afterHandler_cases hnext
        exact (probeEvent_table h hd rfl).resolve_right hret
      · cases hnext
    | recv s => cases hnext
  | request net env k =>
    cases x with
    | send s =>
      obtain ⟨rfl, -⟩ := afterHandler_cases hnext
      exact h.same (progressRequest_sameTable net env s k)
    | recv s => cases hnext
  | thread d st =>
    have hdone : st = .Recovered ∨ st = .RecoveryFailed → st ≠ .Ok := by
      rintro (rfl | rfl) <;> simp
    cases x with
    | send s =>
      simp only [ResComm.next] at hnext
      split at hnext
      · rename_i hst
        cases hnext
        exact h.thread hst.1 (hdone hst.2)
      · cases hnext
    | recv s =>
      simp only [ResComm.next] at hnext
      split at hnext
      · rename_i hst
        cases hnext
        exact h.thread hst.1 (hdone hst.2)
      · cases hnext
  | recovery d =>
    cases x with
    | send s =>
      rcases hprog : progressDev s.comm.base s.res.base d with ⟨base, res, ret⟩
      simp only [ResComm.next, hprog] at hnext
      obtain ⟨rfl, hret⟩ := afterHandler_cases hnext
      exact h.recovery hprog hret
    | recv s =>
      rcases hprog : progressDev s.comm.base s.res d with ⟨base, res, ret⟩
      simp only [ResComm.next, hprog] at hnext
      obtain ⟨rfl, hret⟩ := afterHandler_cases hnext
      exact h.recovery hprog hret

/-! ## The search -/

/-- The `do` loop of `ncclIbResiliencyReplaceQps` from `offset` on, for at most `fuel`
turns: `none` is that it still runs, and the result `none` that it found no QP.
`readsOk offset d` is whether the turn reads the Ok state of device `d`. -/
def searchLoop (base : NcclIbNetCommBase) (readsOk : Nat → Nat → Bool) (failedQpIndex : Nat) :
    Nat → Nat → Option (Option Nat)
  | 0, _ => none
  | fuel + 1, offset =>
    let newQpIndex := (failedQpIndex + offset) % base.nqps.getD 0
    if readsOk offset (base.qps newQpIndex).devIndex then some (some newQpIndex)
    else if newQpIndex = failedQpIndex then some none
    else searchLoop base readsOk failedQpIndex fuel (offset + 1)

/-- The loop is back at the failed QP at offset `nqps`, if it is not done before. -/
theorem searchLoop_ends {base : NcclIbNetCommBase} {failed nqps : Nat}
    (hnqps : base.nqps.getD 0 = nqps) (hfailed : failed < nqps) (readsOk : Nat → Nat → Bool)
    (fuel : Nat) : ∀ offset, offset + fuel = nqps + 1 → 0 < fuel →
      (searchLoop base readsOk failed fuel offset).isSome := by
  induction fuel with
  | zero => exact fun _ _ hpos => absurd hpos (Nat.lt_irrefl 0)
  | succ fuel ih =>
    intro offset hsum _
    unfold searchLoop
    simp only [hnqps]
    split
    · rfl
    split
    · rfl
    rename_i hne
    apply ih (offset + 1) (by omega)
    by_contra hzero
    -- The last turn is at offset `nqps`.
    obtain rfl : offset = nqps := by omega
    rw [Nat.add_mod_right, Nat.mod_eq_of_lt hfailed] at hne
    exact hne rfl

/-- With states that stay, the loop returns what `findReplacement` returns. -/
theorem searchLoop_findReplacement (base : NcclIbNetCommBase) (res : NcclIbResiliency)
    (failed fuel : Nat) : ∀ offset found,
      searchLoop base (fun _ d => (res.devs d).state = .Ok) failed fuel offset = some found →
      findReplacement base res failed fuel offset = found := by
  induction fuel with
  | zero =>
    intro offset found h
    cases h
  | succ fuel ih =>
    intro offset found h
    unfold searchLoop at h
    unfold findReplacement
    simp only [decide_eq_true_eq] at h ⊢
    split at h
    · rename_i hok
      cases h
      rw [if_pos hok]
    rename_i hok
    rw [if_neg hok]
    split at h
    · rename_i hback
      cases h
      rw [if_pos hback]
    · rename_i hback
      rw [if_neg hback]
      exact ih _ _ h

/-- The search for a replacement of a QP of the comm ends, whatever states it reads. With
states that stay, it ends with the QP that `replaceQp` takes. -/
def SearchEnds (base : NcclIbNetCommBase) : Prop :=
  ∀ failed < base.nqps.getD 0,
    (∀ readsOk, (searchLoop base readsOk failed (base.nqps.getD 0) 1).isSome) ∧
    ∀ res : NcclIbResiliency,
      searchLoop base (fun _ d => (res.devs d).state = .Ok) failed (base.nqps.getD 0) 1 =
        some (findReplacement base res failed (base.nqps.getD 0) 1)

theorem search_ends (base : NcclIbNetCommBase) : SearchEnds base := by
  intro failed hfailed
  have hends : ∀ readsOk, (searchLoop base readsOk failed (base.nqps.getD 0) 1).isSome :=
    fun readsOk => searchLoop_ends rfl hfailed readsOk _ 1 (by omega) (by omega)
  refine ⟨hends, fun res => ?_⟩
  obtain ⟨found, hfound⟩ := Option.isSome_iff_exists.mp
    (hends (fun _ d => decide ((res.devs d).state = .Ok)))
  rw [hfound, searchLoop_findReplacement base res failed _ 1 found hfound]

/-! ## The law -/

/-- In every run of a comm with two devices or more, each QP in use is one of the
comm's own on a device in the Ok state, and a QP whose device is in the Ok state has its
own place. The search for a replacement ends for every table. -/
theorem active_qps_follow_the_devices (sh : Shape) :
    (∀ x, runs.Reachable (deviceSystem sh) x → ActiveTable sh x.base x.res) ∧
      ∀ base, SearchEnds base := by
  refine ⟨fun x hx => ?_, search_ends⟩
  refine hx.invariant (fun x h => h.table) ?_
  rintro s t - hs ⟨act, hact⟩
  exact next_table hs hact

/-- A receive comm on two devices that can be recovered. -/
def startDevices : ResComm :=
  .recv ⟨freshRecv Shape.twoTwo true,
    { recoveryEnabled := true, devs := fun _ => {}, ndevs := 2, probingQps := fun d => ⟨d, d, d, 0⟩
      inProgress := false, outstandingRequests := 0, outstandingRecovery := 0 }⟩

theorem init_startDevices : startDevices.Init Shape.twoTwo where
  striped := striped_freshBase Shape.twoTwo false
  two := by decide
  ndevs := rfl
  active := fun _ _ => rfl
  ok := fun _ _ => rfl

/-- Device 0 fails, with a status that the failover takes or with another one. -/
def deviceFails (status : WcStatus) : DeviceAct := .dataError {} status NCCL_IB_RECV_WR_ID_DUMMY 0

/-- An error that is fatal leaves the table, and so do the turns of the devices. The
failure of a device that the failover would take over stops at a bad pointer. -/
theorem the_table_after_a_fatal_error :
    ∃ x : ResComm, (List.range 4).map x.base.activeQps = [some 0, some 1, some 2, some 3] ∧
      (x.next (deviceFails .IBV_WC_WR_FLUSH_ERR)).isNone ∧
      ActiveTable Shape.twoTwo x.base x.res ∧ SearchEnds x.base := by
  have hrun : (runs.follow ResComm.next [deviceFails .other, .recovery 0, .recovery 1]
        startDevices).any
      (fun x => (List.range 4).map x.base.activeQps == [some 0, some 1, some 2, some 3] &&
        (x.next (deviceFails .IBV_WC_WR_FLUSH_ERR)).isNone) = true := by
    decide +kernel
  obtain ⟨x, hx, hend⟩ := (Option.any_eq_true _ _).mp hrun
  simp only [Bool.and_eq_true, beq_iff_eq] at hend
  have hsteps : ∀ act y z, ResComm.next act y = some z →
      (deviceSystem Shape.twoTwo).step y z := fun act _ _ h => ⟨act, h⟩
  have hreach : runs.Reachable (deviceSystem Shape.twoTwo) x :=
    (runs.Reachable.init init_startDevices).follow hsteps hx
  exact ⟨x, hend.1, hend.2, (active_qps_follow_the_devices Shape.twoTwo).1 x hreach,
    (active_qps_follow_the_devices Shape.twoTwo).2 x.base⟩

end net_ib.resiliency
