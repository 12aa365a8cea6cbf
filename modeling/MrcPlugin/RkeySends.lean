-- The rkeys of the work requests of a send comm, and what its calls keep: the QPs, the
-- tables of rkeys and the elements of the CTS messages. The replay of a group is posted
-- by the same function as the group.
import MrcPlugin.ActiveQps
import MrcPlugin.RkeyTables
import MrcPlugin.IsendSteps

namespace net_ib

open p2p recovery resiliency

/-! ## What the calls of a sender keep -/

/-- The part of a send comm that its rkeys come from. -/
structure KeptSend (c d : NcclIbSendComm) : Prop where
  qps : d.base.qps = c.base.qps
  nqps : d.base.nqps = c.base.nqps
  resiliency : d.base.resiliency = c.base.resiliency
  rkeys : d.remCmplsRecords.rkeys = c.remCmplsRecords.rkeys
  ctsFifo : d.ctsFifo = c.ctsFifo

theorem KeptSend.refl (c : NcclIbSendComm) : KeptSend c c := ⟨rfl, rfl, rfl, rfl, rfl⟩

theorem KeptSend.trans {c d e : NcclIbSendComm} (h : KeptSend c d) (h' : KeptSend d e) :
    KeptSend c e :=
  ⟨h'.qps.trans h.qps, h'.nqps.trans h.nqps, h'.resiliency.trans h.resiliency,
    h'.rkeys.trans h.rkeys, h'.ctsFifo.trans h.ctsFifo⟩

/-- The rkeys of a list of work requests of the group of `slot`. -/
def KeyedWrs (comm : NcclIbSendComm) (slot : Nat) (post : SendPost) : Prop :=
  ∀ j wr, post.wrs[j]? = some wr →
    (j < (comm.ctsFifo slot 0).nreqs →
      wr.rkey = (comm.ctsFifo slot j).rkeys (comm.base.qps post.qp).remDevIdx) ∧
    ((comm.ctsFifo slot 0).nreqs ≤ j → 1 < (comm.ctsFifo slot 0).nreqs →
      wr.rkey = comm.remCmplsRecords.rkeys (comm.base.qps post.qp).devIndex)

theorem KeptSend.keyedWrs {c d : NcclIbSendComm} (h : KeptSend c d) {slot : Nat} {post : SendPost}
    (hp : KeyedWrs d slot post) : KeyedWrs c slot post := by
  unfold KeyedWrs at hp
  rw [h.ctsFifo, h.qps, h.rkeys] at hp
  exact hp

/-- Each list comes from one turn of the loop over the QPs. -/
theorem mem_foldl_posted (call : MultiSendCall) (qps : List (Nat × Nat)) :
    ∀ (s : MultiSendState) (post : SendPost), post ∈ (qps.foldl (postOnQp call) s).posted →
      post ∈ s.posted ∨ ∃ t dev, post = ⟨post.qp, (List.range (call.lastWr + 1)).map
        (qpWrs call t (call.comm.base.qps post.qp) dev)⟩ := by
  induction qps with
  | nil => exact fun s post h => .inl h
  | cons q rest ih =>
    obtain ⟨p, qpIndex⟩ := q
    intro s post h
    rw [List.foldl_cons] at h
    rcases ih _ post h with hin | hlater
    · unfold postOnQp at hin
      simp only at hin
      split at hin
      · exact .inl hin
      · rcases List.mem_append.mp hin with hold | hnew
        · exact .inl hold
        · rw [List.mem_singleton.mp hnew]
          exact .inr ⟨s, _, rfl⟩
    · exact .inr hlater

theorem keyed_qpWrs (env : NetEnv) (comm : NcclIbSendComm) (slot : Nat) (qps : List (Nat × Nat))
    (t : MultiSendState) (p dev : Nat) :
    KeyedWrs comm slot ⟨p, (List.range ((multiSendCall env comm slot qps).lastWr + 1)).map
      (qpWrs (multiSendCall env comm slot qps) t (comm.base.qps p) dev)⟩ := by
  intro j wr hwr
  rw [List.getElem?_map] at hwr
  obtain ⟨k, hk, rfl⟩ := Option.map_eq_some_iff.mp hwr
  obtain ⟨hlt, hkj⟩ := List.getElem?_eq_some_iff.mp hk
  rw [List.length_range] at hlt
  rw [List.getElem_range] at hkj
  subst hkj
  have hnreqs : (multiSendCall env comm slot qps).nreqs = (comm.ctsFifo slot 0).nreqs := rfl
  have hlast : (multiSendCall env comm slot qps).lastWr ≤ (comm.ctsFifo slot 0).nreqs := by
    unfold multiSendCall
    simp only
    split <;> omega
  unfold qpWrs
  refine ⟨fun hdata => ?_, fun hpast hmany => ?_⟩
  · rw [if_pos (by omega)]
    rfl
  · rw [if_neg (by omega), if_pos (by omega)]
    rfl

theorem multiSend_keyed {env : NetEnv} {comm comm' : NcclIbSendComm} {slot : Nat}
    {posts : List SendPost} (h : ncclIbMultiSend env comm slot = .ok (comm', posts)) :
    KeptSend comm comm' ∧ ∀ post ∈ posts, KeyedWrs comm slot post := by
  obtain ⟨qps, hpost⟩ := multiSend_post h
  cases hpost
  refine ⟨⟨rfl, rfl, rfl, rfl, rfl⟩, fun post hmem => ?_⟩
  rcases mem_foldl_posted _ _ _ post hmem with hnone | ⟨t, dev, heq⟩
  · cases hnone
  · rw [heq]
    exact keyed_qpWrs env comm slot qps t post.qp dev

theorem isendEntry_keyed (env : NetEnv) (comm : NcclIbSendComm) (a : IsendArgs)
    (slot nreqs r : Nat) :
    KeptSend comm (isendEntry env comm a slot nreqs r).comm ∧
      ∀ post ∈ (isendEntry env comm a slot nreqs r).posts, KeyedWrs comm slot post := by
  have hstay : KeptSend comm comm ∧ ∀ post ∈ ([] : List SendPost), KeyedWrs comm slot post :=
    ⟨KeptSend.refl _, fun _ hp => by cases hp⟩
  unfold isendEntry
  simp only
  by_cases hinfo : (comm.ctsFifo slot r).addr = 0 ∨ (comm.ctsFifo slot r).rkeys 0 = 0
  · rw [if_pos hinfo]
    exact hstay
  rw [if_neg hinfo]
  cases requestQps comm.base comm.base.fifoHead with
  | error e => exact hstay
  | ok qps =>
    cases hget : ncclIbGetRequest comm.base with
    | error e => exact hstay
    | ok got =>
      obtain ⟨base, i⟩ := got
      simp only
      obtain ⟨-, -, hbase⟩ := getRequest_cases hget
      generalize sendRequest comm (base.reqs i) a nreqs r _ _ = req
      -- The request is taken and bound to its entry.
      have hbound : KeptSend comm (bindEntry { comm with base } slot r i req) := by
        rw [hbase]
        exact ⟨rfl, rfl, rfl, rfl, rfl⟩
      split
      · exact ⟨hbound, fun _ hp => by cases hp⟩
      split
      · exact ⟨hbound, fun _ hp => by cases hp⟩
      · rename_i hmulti
        obtain ⟨hkept, hposts⟩ := multiSend_keyed hmulti
        exact ⟨hbound.trans ⟨hkept.qps, hkept.nqps, hkept.resiliency, hkept.rkeys, hkept.ctsFifo⟩,
          fun post hp => hbound.keyedWrs (hposts post hp)⟩

theorem isend_keyed (env : NetEnv) (comm : NcclIbSendComm) (a : IsendArgs) :
    KeptSend comm (ncclIbIsend env comm a).comm ∧
      ∀ post ∈ (ncclIbIsend env comm a).posts, KeyedWrs comm (slotOf comm.base.fifoHead) post := by
  have hstay : KeptSend comm comm ∧
      ∀ post ∈ ([] : List SendPost), KeyedWrs comm (slotOf comm.base.fifoHead) post :=
    ⟨KeptSend.refl _, fun _ hp => by cases hp⟩
  unfold ncclIbIsend
  split
  · exact hstay
  split
  · exact hstay
  simp only
  split
  · exact hstay
  split
  · exact hstay
  split
  · exact hstay
  · exact isendEntry_keyed ..

/-! ## ncclIbTest on a send comm -/

theorem keptSend_withReqs (comm : NcclIbSendComm) (reqs : Nat → NcclIbRequest) :
    KeptSend comm (comm.withReqs reqs) := ⟨rfl, rfl, rfl, rfl, rfl⟩

theorem keptSend_chargeSends (slot devIndex : Nat) (js : List Nat) :
    ∀ comm : NcclIbSendComm, KeptSend comm (chargeSends slot devIndex js comm).1 := by
  induction js with
  | nil => exact KeptSend.refl
  | cons j js ih =>
    intro comm
    unfold chargeSends
    split
    · exact KeptSend.refl _
    split
    · exact KeptSend.refl _
    · exact (keptSend_withReqs comm _).trans (ih _)

theorem keptSend_event (comm : NcclIbSendComm) (wc : IbvWc) (devIndex : Nat) :
    KeptSend comm (sendEventProcess comm wc devIndex).comm := by
  unfold sendEventProcess
  split
  · exact KeptSend.refl _
  split
  · exact KeptSend.refl _
  · exact KeptSend.refl _
  simp only
  split
  · exact KeptSend.refl _
  · exact keptSend_chargeSends ..

theorem keptSend_complete (env : NetEnv) (comm : NcclIbSendComm) (i : Nat) :
    KeptSend comm (sendRequestComplete env comm i).1 := by
  have hspeeds : ∀ d : NcclIbSendComm, KeptSend d (ncclIbCheckSpeedChanges env d) := by
    intro d
    unfold ncclIbCheckSpeedChanges
    simp only
    split <;> exact ⟨rfl, rfl, rfl, rfl, rfl⟩
  unfold sendRequestComplete
  simp only
  split
  · split
    · split
      · exact (hspeeds _).trans ⟨rfl, rfl, rfl, rfl, rfl⟩
      · exact ⟨rfl, rfl, rfl, rfl, rfl⟩
    · exact ⟨rfl, rfl, rfl, rfl, rfl⟩
  · exact ⟨rfl, rfl, rfl, rfl, rfl⟩

theorem keptSend_test (env : NetEnv) (comm : NcclIbSendComm) (cq : List p2p.Cqe) (call : TestCall)
    (n : Nat) : KeptSend comm (ncclIbTest env comm cq call n).comm := by
  obtain ⟨r, pc⟩ := call
  unfold ncclIbTest
  cases pc with
  | top =>
    unfold testTop
    simp only
    split
    · exact KeptSend.refl _
    split
    · exact keptSend_complete ..
    · exact KeptSend.refl _
  | device i k =>
    unfold testDevice
    simp only
    split
    · exact KeptSend.refl _
    split <;> exact KeptSend.refl _
  | completions i k w wcs =>
    cases wcs with
    | nil =>
      simp only
      split
      · exact KeptSend.refl _
      split <;> exact KeptSend.refl _
    | cons c wcs =>
      unfold testCompletion
      have hout : KeptSend comm (if c.wc.success then NetComm.eventProcess env comm c.wc i
          else if c.wc.wr_id = NCCL_IB_SPEED_UPDATE_WR_ID then NetComm.speedUpdateFailed comm
          else ⟨comm, [], .error (.ret ncclRemoteError)⟩).comm := by
        split
        · exact keptSend_event ..
        split <;> exact KeptSend.refl _
      simp only
      split <;> exact hout

/-! ## The failover of a send comm -/

/-- The part of a resiliency context that its rkeys come from, with that of the comm. -/
structure KeptRes (s t : ResSendComm) : Prop where
  comm : KeptSend s.comm t.comm
  probingQps : t.res.base.probingQps = s.res.base.probingQps
  records : t.res.remCmplRecordsInfo = s.res.remCmplRecordsInfo

theorem KeptRes.refl (s : ResSendComm) : KeptRes s s := ⟨KeptSend.refl _, rfl, rfl⟩

theorem KeptRes.trans {s t u : ResSendComm} (h : KeptRes s t) (h' : KeptRes t u) : KeptRes s u :=
  ⟨h.comm.trans h'.comm, h'.probingQps.trans h.probingQps, h'.records.trans h.records⟩

/-- A base with other QPs in use. -/
structure KeptBase (b b' : NcclIbNetCommBase) : Prop where
  ndevs : b'.ndevs = b.ndevs
  qps : b'.qps = b.qps
  nqps : b'.nqps = b.nqps
  resiliency : b'.resiliency = b.resiliency
  remDevs : b'.remDevs = b.remDevs

theorem KeptBase.refl (b : NcclIbNetCommBase) : KeptBase b b := ⟨rfl, rfl, rfl, rfl, rfl⟩

theorem keptBase_only {b b' : NcclIbNetCommBase} (h : OnlyActive b b') : KeptBase b b' := by
  rw [h]
  exact ⟨rfl, rfl, rfl, rfl, rfl⟩

/-- The failure of a device changes the QPs in use and the states of the devices. -/
theorem kept_deviceFailure {env : ResEnv} {b b' : NcclIbNetCommBase} {res res' : NcclIbResiliency}
    {d : Nat} {ret : Except Stop Unit}
    (h : ncclIbResiliencyHandleDeviceFailure env b res d = (b', res', ret)) :
    KeptBase b b' ∧ res'.probingQps = res.probingQps := by
  obtain ⟨hbase, -, hqps⟩ := deviceFailure_only h
  exact ⟨keptBase_only hbase, hqps⟩

theorem kept_progressDev {b b' : NcclIbNetCommBase} {res res' : NcclIbResiliency}
    {d : Nat} {ret : Except Stop Unit} (h : progressDev b res d = (b', res', ret)) :
    KeptBase b b' ∧ res'.probingQps = res.probingQps := by
  obtain ⟨hbase, -, hqps⟩ := progressDev_only h
  exact ⟨keptBase_only hbase, hqps⟩

theorem KeptBase.res {s : ResSendComm} {b : NcclIbNetCommBase} {res : NcclIbResiliency}
    (h : KeptBase s.comm.base b) (hres : res.probingQps = s.res.base.probingQps) :
    KeptRes s ⟨{ s.comm with base := b }, { s.res with base := res }⟩ :=
  ⟨⟨h.qps, h.nqps, h.resiliency, rfl, rfl⟩, hres, rfl⟩

theorem keptRes_setFailed (s : ResSendComm) (k : Nat) (f : RequestSend) :
    KeptRes s { s with res := s.res.setFailed k f } := ⟨KeptSend.refl _, rfl, rfl⟩

theorem kept_probeEvent (env : ResEnv) (s : ResSendComm) (status : WcStatus) (wr_id d : Nat) :
    KeptRes s (ncclIbResiliencyProbeHandleCompletionEvent env s status wr_id d).1 := by
  unfold ncclIbResiliencyProbeHandleCompletionEvent
  simp only
  split
  · exact keptRes_setFailed ..
  split
  · exact KeptRes.refl _
  split
  · rename_i hfail
    obtain ⟨hb, hres⟩ := kept_deviceFailure hfail
    exact hb.res hres
  · rename_i hfail
    obtain ⟨hb, hres⟩ := kept_deviceFailure hfail
    exact (hb.res hres).trans (keptRes_setFailed ..)

theorem kept_completionError (env : ResEnv) (s : ResSendComm) (status : WcStatus) (wr_id d : Nat) :
    KeptRes s (sendCompletionError env s status wr_id d).1 := by
  unfold sendCompletionError
  split
  · exact KeptRes.refl _
  split
  · rename_i hfail
    obtain ⟨hb, hres⟩ := kept_deviceFailure hfail
    exact hb.res hres
  · rename_i hfail
    obtain ⟨hb, hres⟩ := kept_deviceFailure hfail
    refine (hb.res hres).trans ?_
    unfold ncclIbResiliencyHandleCompletionErrorSender
    split
    · exact KeptRes.refl _
    · unfold ncclIbResiliencySendRequestInit
      simp only
      split
      · exact KeptRes.refl _
      split
      · exact KeptRes.refl _
      split
      · exact KeptRes.refl _
      · exact ⟨KeptSend.refl _, rfl, rfl⟩

theorem keptSend_repostParts (res : NcclIbResiliencySend) (slot i : Nat)
    (parts : List Nat) :
    ∀ comm : NcclIbSendComm, KeptSend comm (repostParts res slot i parts comm).1 := by
  induction parts with
  | nil => exact KeptSend.refl
  | cons part parts ih =>
    intro comm
    unfold repostParts
    split
    · exact KeptSend.refl _
    split
    · exact ih comm
    split
    · exact KeptSend.refl _
    · exact (keptSend_withReqs comm _).trans (ih _)

theorem keptSend_repostSends (res : NcclIbResiliencySend) (slot : Nat)
    (rs : List Nat) :
    ∀ comm : NcclIbSendComm, KeptSend comm (repostSends res slot rs comm).1 := by
  induction rs with
  | nil => exact KeptSend.refl
  | cons r rs ih =>
    intro comm
    unfold repostSends
    split
    · exact KeptSend.refl _
    rename_i i hi
    simp only
    split
    · exact keptSend_withReqs ..
    rename_i nqps hnqps
    have hparts := keptSend_repostParts res slot i (List.range nqps)
      (comm.withReqs (Function.update comm.base.reqs i (clearEvents (comm.base.reqs i))))
    split
    · rename_i hrep
      rw [hrep] at hparts
      exact (keptSend_withReqs comm _).trans hparts
    · rename_i hrep
      rw [hrep] at hparts
      exact ((keptSend_withReqs comm _).trans hparts).trans (ih _)

theorem keptSend_clearGroup (slot : Nat) (rs : List Nat) :
    ∀ comm : NcclIbSendComm, KeptSend comm (clearGroup slot rs comm).1 := by
  induction rs with
  | nil => exact KeptSend.refl
  | cons r rs ih =>
    intro comm
    unfold clearGroup
    split
    · exact KeptSend.refl _
    · exact (keptSend_withReqs comm _).trans (ih _)

/-- A replay posts the group of the request. -/
theorem repost_keyed (net : NetEnv) (s : ResSendComm) (i : Nat) :
    KeptSend s.comm (ncclIbResiliencyRepostRequest net s i).comm ∧
      ∀ post ∈ (ncclIbResiliencyRepostRequest net s i).posts,
        KeyedWrs s.comm (slotOf (s.comm.base.reqs i).id) post := by
  unfold ncclIbResiliencyRepostRequest
  simp only
  split
  · exact ⟨KeptSend.refl _, fun _ hp => by cases hp⟩
  have hsends := keptSend_repostSends s.res (slotOf (s.comm.base.reqs i).id)
    (List.range (s.comm.base.reqs i).nreqs) s.comm
  split
  · rename_i hrep
    rw [hrep] at hsends
    exact ⟨hsends, fun _ hp => by cases hp⟩
  · rename_i hrep
    rw [hrep] at hsends
    split
    · exact ⟨hsends, fun _ hp => by cases hp⟩
    · rename_i hmulti
      obtain ⟨hkept, hposts⟩ := multiSend_keyed hmulti
      exact ⟨hsends.trans hkept, fun post hp => hsends.keyedWrs (hposts post hp)⟩

theorem handleProbe_keyed (net : NetEnv) (s : ResSendComm) (i : Nat) :
    KeptSend s.comm (ncclIbResiliencyHandleProbeCompleted net s i).comm ∧
      ∀ post ∈ (ncclIbResiliencyHandleProbeCompleted net s i).posts,
        KeyedWrs s.comm (slotOf (s.comm.base.reqs i).id) post := by
  unfold ncclIbResiliencyHandleProbeCompleted
  simp only
  split
  · exact repost_keyed ..
  · exact ⟨keptSend_clearGroup .., fun _ hp => by cases hp⟩

/-- The rkey of a probe is that of its remote device. -/
def KeyedProbe (res : NcclIbResiliencySend) (post : ProbePost) : Prop :=
  post.wr.rkey = (res.remCmplRecordsInfo (res.base.probingQps post.dev).remDevIdx).rkey

theorem probePost_keyed (env : ResEnv) (s : ResSendComm) (k i : Nat) :
    KeptRes s { s with res := (ncclIbResiliencyProbePost env s.comm.base s.res k i).comm } ∧
      ∀ post ∈ (ncclIbResiliencyProbePost env s.comm.base s.res k i).posts,
        KeyedProbe s.res post := by
  have hstay : KeptRes s { s with res := s.res } ∧
      ∀ post ∈ ([] : List ProbePost), KeyedProbe s.res post :=
    ⟨KeptRes.refl _, fun _ hp => by cases hp⟩
  unfold ncclIbResiliencyProbePost
  simp only
  split
  · exact hstay
  split
  · exact hstay
  split
  · exact hstay
  split
  · exact hstay
  · refine ⟨⟨KeptSend.refl _, rfl, rfl⟩, fun post hp => ?_⟩
    rw [List.mem_singleton.mp hp]
    rfl

/-- What a piece of a test of a send comm keeps and posts. -/
structure KeyedOut (s : ResSendComm) (slot : Nat) (t : ResSendComm)
    (posts : List (SendPost ⊕ ProbePost)) : Prop where
  kept : KeptRes s t
  sends : ∀ post ∈ posts.filterMap Sum.getLeft?, KeyedWrs s.comm slot post
  probes : ∀ post ∈ posts.filterMap Sum.getRight?, KeyedProbe s.res post

theorem KeptRes.out {s t : ResSendComm} (h : KeptRes s t) (slot : Nat) : KeyedOut s slot t [] :=
  ⟨h, fun _ hp => (by cases hp), fun _ hp => (by cases hp)⟩

theorem lefts_inl {α β : Type} (l : List α) :
    (l.map (Sum.inl : α → α ⊕ β)).filterMap Sum.getLeft? = l ∧
      (l.map (Sum.inl : α → α ⊕ β)).filterMap Sum.getRight? = [] := by
  constructor
  · rw [List.filterMap_map]
    exact List.filterMap_some
  · rw [List.filterMap_map]
    exact List.filterMap_eq_nil_iff.mpr (fun _ _ => rfl)

theorem rights_inr {α β : Type} (l : List β) :
    (l.map (Sum.inr : β → α ⊕ β)).filterMap Sum.getLeft? = [] ∧
      (l.map (Sum.inr : β → α ⊕ β)).filterMap Sum.getRight? = l := by
  constructor
  · rw [List.filterMap_map]
    exact List.filterMap_eq_nil_iff.mpr (fun _ _ => rfl)
  · rw [List.filterMap_map]
    exact List.filterMap_some

theorem progressRequest_keyed (net : NetEnv) (env : ResEnv) (s : ResSendComm) (k : Nat) :
    KeyedOut s (replaySlot s (.requests k)) (progressRequest net env s k).comm
      (progressRequest net env s k).posts := by
  unfold progressRequest
  simp only
  split
  · rename_i i hreq hstate
    obtain ⟨hkept, hposts⟩ := probePost_keyed env s k i
    obtain ⟨hl, hr⟩ := @rights_inr SendPost _
      (ncclIbResiliencyProbePost env s.comm.base s.res k i).posts
    refine ⟨hkept, ?_, ?_⟩
    · rw [hl]
      exact fun _ hp => by cases hp
    · rw [hr]
      exact hposts
  · rename_i i hreq hstate
    obtain ⟨hkept, hposts⟩ := handleProbe_keyed net s i
    obtain ⟨hl, hr⟩ := @lefts_inl _ ProbePost
      (ncclIbResiliencyHandleProbeCompleted net s i).posts
    have hslot : replaySlot s (.requests k) = slotOf (s.comm.base.reqs i).id := by
      show slotOf (s.comm.base.reqs ((s.res.failedRequests k).request.getD 0)).id = _
      rw [hreq]
      rfl
    split
    · refine ⟨⟨hkept, rfl, rfl⟩, ?_, ?_⟩
      · simp only
        rw [hl, hslot]
        exact hposts
      · simp only
        rw [hr]
        exact fun _ hp => by cases hp
    · have hfree : (ncclIbResiliencySendRequestFree s.res k).1.base.probingQps =
          s.res.base.probingQps ∧ (ncclIbResiliencySendRequestFree s.res k).1.remCmplRecordsInfo =
          s.res.remCmplRecordsInfo := by
        unfold ncclIbResiliencySendRequestFree
        simp only
        split <;> exact ⟨rfl, rfl⟩
      refine ⟨⟨hkept, hfree.1, hfree.2⟩, ?_, ?_⟩
      · simp only
        rw [hl, hslot]
        exact hposts
      · simp only
        rw [hr]
        exact fun _ hp => by cases hp
  · exact (KeptRes.refl s).out _

/-- A piece of a test of a send comm with a context. Only the turn of a failed request
posts. -/
theorem failoverTest_keyed (env : FailoverEnv) (s : ResSendComm) (q : Cqs) (call : FailoverCall)
    (n : Nat) :
    KeyedOut s (replaySlot s call.pc) (failoverTest env s q call n).s
      (failoverTest env s q call n).posts := by
  have hstay : KeyedOut s (replaySlot s call.pc) s [] := (KeptRes.refl s).out _
  obtain ⟨r, pc⟩ := call
  unfold failoverTest
  cases pc with
  | start => exact hstay
  | probes d =>
    show KeyedOut s _ (probeProgress s q d n).s (probeProgress s q d n).posts
    unfold probeProgress
    simp only
    split
    · exact hstay
    split
    · exact hstay
    split
    · exact hstay
    split
    · exact hstay
    · exact ⟨⟨KeptSend.refl _, rfl, rfl⟩, fun _ hp => (by cases hp), fun _ hp => (by cases hp)⟩
  | probeEvents d wcs =>
    cases wcs with
    | nil => exact hstay
    | cons c wcs =>
      show KeyedOut s _ (probeEvent env s q d c wcs).s (probeEvent env s q d c wcs).posts
      have hkept := kept_probeEvent env.res s c.status c.wr.wr_id d
      unfold probeEvent
      split
      · rename_i hout
        rw [hout] at hkept
        exact hkept.out _
      · rename_i hout
        rw [hout] at hkept
        exact hkept.out _
  | requests k =>
    show KeyedOut s _ (requestTurn env s q k).s (requestTurn env s q k).posts
    unfold requestTurn
    split
    · exact hstay
    · simp only
      split <;> exact progressRequest_keyed ..
  | recovery d =>
    show KeyedOut s _ (recoveryTurn s q d).s (recoveryTurn s q d).posts
    unfold recoveryTurn
    split
    · exact hstay
    split
    · rename_i hdev
      obtain ⟨hb, hres⟩ := kept_progressDev hdev
      exact (hb.res hres).out _
    · rename_i hdev
      obtain ⟨hb, hres⟩ := kept_progressDev hdev
      exact (hb.res hres).out _
  | finish =>
    exact ⟨⟨KeptSend.refl _, rfl, rfl⟩, fun _ hp => (by cases hp), fun _ hp => (by cases hp)⟩
  | top =>
    show KeyedOut s _ (failoverTop env s q r).s (failoverTop env s q r).posts
    unfold failoverTop
    split
    · exact hstay
    split
    · exact ⟨⟨keptSend_complete .., rfl, rfl⟩, fun _ hp => (by cases hp),
        fun _ hp => (by cases hp)⟩
    · exact hstay
  | device i totalWrDone =>
    show KeyedOut s _ (failoverDevice s q r i totalWrDone n).s
      (failoverDevice s q r i totalWrDone n).posts
    unfold failoverDevice
    split
    · split <;> exact hstay
    split <;> exact hstay
  | completions i totalWrDone wrDone wcs =>
    show KeyedOut s _ (failoverCompletions env s q i totalWrDone wrDone wcs).s
      (failoverCompletions env s q i totalWrDone wrDone wcs).posts
    cases wcs with
    | nil =>
      simp only [failoverCompletions]
      split
      · exact hstay
      split <;> exact hstay
    | cons c wcs =>
      have hkept : KeptRes s (sendCompletion env s i c).1 := by
        unfold sendCompletion
        split
        · exact ⟨keptSend_event .., rfl, rfl⟩
        split
        · exact KeptRes.refl _
        · exact kept_completionError ..
      simp only [failoverCompletions]
      split
      · rename_i hout
        rw [hout] at hkept
        exact hkept.out _
      · rename_i hout
        rw [hout] at hkept
        exact hkept.out _

end net_ib
