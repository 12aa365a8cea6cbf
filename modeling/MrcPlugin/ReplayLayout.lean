-- The layout of a replay. A group whose post failed is posted again on the QPs
-- that are in use by then. The chunk of each QP index comes from the device that
-- the index had at first, so both posts cut every send in the same way, and only
-- the parts that the probe did not find are sent.
import MrcPlugin.ActiveQps
import MrcPlugin.PostedSends

namespace net_ib.resiliency

open p2p recovery

/-! ## The parts of a request -/

/-- The bytes that a work request moves, and the number of its scatter elements. -/
structure ByteRange where
  source : Nat
  target : Nat
  length : Nat
  num_sge : Nat
deriving DecidableEq, Repr

def rangeOf (wr : IbvSendWr) : ByteRange := ⟨wr.sge.addr, wr.remote_addr, wr.sge.length, wr.num_sge⟩

/-- A QP index of a request, and what `ncclIbMultiSend` builds for it. -/
structure Part where
  qpIndex : Nat
  post : SendPost

/-- The parts of a loop of `ncclIbMultiSend`, with the ones that it skips. -/
def loopParts (call : MultiSendCall) (s : MultiSendState) (qps : List (Nat × Nat)) : List Part :=
  List.zipWith (fun q post => ⟨q.2, post⟩) qps (loopPosts call s qps)

/-- The parts of the group in `slot`. -/
def multiSendParts (sh : Shape) (net : NetEnv) (comm : NcclIbSendComm) (slot : Nat) : List Part :=
  let qps := qpsOf sh comm.base (reqAt comm slot 0).id
  let call := multiSendCall net comm slot qps
  loopParts call (multiSendInit call (immDataOf comm.base (comm.base.reqs (call.reqs 0)))) qps

/-- Two parts give the same bytes of every send of the group to the same QP index. -/
def SameBytes (nreqs : Nat) (a b : Part) : Prop :=
  a.qpIndex = b.qpIndex ∧ ∀ r < nreqs, ∃ wr wr', a.post.wrs[r]? = some wr ∧
    b.post.wrs[r]? = some wr' ∧ rangeOf wr = rangeOf wr'

/-- The posts are those of the parts whose index is one of `todo`, each index once. -/
structure PostsOf (parts : List Part) (todo : Nat → Prop) (posts : List SendPost) : Prop where
  sub : ∃ sent : List Part, sent.Sublist parts ∧ posts = sent.map Part.post ∧
    (sent.map Part.qpIndex).Nodup ∧
    ∀ q, q ∈ sent.map Part.qpIndex ↔ q ∈ parts.map Part.qpIndex ∧ todo q

/-! ## The loop that skips -/

section
variable {call : MultiSendCall}

/-- Each turn marks its index as sent, for the first request of the group. -/
theorem postOnQp_sentData (hpos : 0 < call.nreqs) (s : MultiSendState) (q : Nat × Nat) (j : Nat) :
    ((postOnQp call s q).reqs (call.reqs 0)).send.sentData j =
      if j = q.2 then true else (s.reqs (call.reqs 0)).send.sentData j := by
  show (markSent s.reqs ((List.range call.nreqs).map call.reqs) q.2 (call.reqs 0)).send.sentData j = _
  split
  · rename_i hj
    subst hj
    have hmem : call.reqs 0 ∈ (List.range call.nreqs).map call.reqs :=
      List.mem_map.mpr ⟨0, List.mem_range.mpr hpos, rfl⟩
    exact markSent_marks _ hmem s.reqs
  · rename_i hj
    exact markSent_sentData _ _ _ hj _

/-- The loop posts the parts that are not marked as sent before, each once. -/
theorem postsOf_foldl (hpos : 0 < call.nreqs) (hres : call.comm.base.resiliency = true)
    (qps : List (Nat × Nat)) : ∀ s, ∃ posts,
      (qps.foldl (postOnQp call) s).posted = s.posted ++ posts ∧
        PostsOf (loopParts call s qps)
          (fun q => (s.reqs (call.reqs 0)).send.sentData q = false) posts := by
  induction qps with
  | nil =>
    intro s
    exact ⟨[], by simp, ⟨[], List.Sublist.refl _, rfl, List.nodup_nil, by simp [loopParts]⟩⟩
  | cons q rest ih =>
    obtain ⟨p, qpIndex⟩ := q
    intro s
    obtain ⟨posts, hposts, sent, hsub, hmap, hnd, hmem⟩ := ih (postOnQp call s (p, qpIndex))
    have hmark := postOnQp_sentData hpos s (p, qpIndex)
    have hparts : loopParts call s ((p, qpIndex) :: rest) =
        ⟨qpIndex, ⟨p, (List.range (call.lastWr + 1)).map (qpWrs call s (call.comm.base.qps p)
          (call.comm.base.qps qpIndex).devIndex)⟩⟩ ::
        loopParts call (postOnQp call s (p, qpIndex)) rest := rfl
    -- The index of this turn is marked, so no later turn posts it.
    have hnot : qpIndex ∉ sent.map Part.qpIndex := by
      intro hin
      have := ((hmem qpIndex).mp hin).2
      simp only [hmark, if_true] at this
      cases this
    have hrest : ∀ j, j ≠ qpIndex → (j ∈ sent.map Part.qpIndex ↔
        j ∈ (loopParts call (postOnQp call s (p, qpIndex)) rest).map Part.qpIndex ∧
          (s.reqs (call.reqs 0)).send.sentData j = false) := by
      intro j hj
      rw [hmem j]
      simp only [hmark, if_neg hj]
    rw [List.foldl_cons, hposts, hparts]
    by_cases hsent : (s.reqs (call.reqs 0)).send.sentData qpIndex = true
    · refine ⟨posts, ?_, sent, hsub.cons _, hmap, hnd, fun j => ?_⟩
      · simp [postOnQp, hres, hsent]
      · by_cases hj : j = qpIndex
        · subst hj
          simp [hnot, hsent]
        · rw [hrest j hj]
          simp [hj]
    · refine ⟨_ :: posts, ?_, _ :: sent, hsub.cons_cons _, congrArg _ hmap, ?_, fun j => ?_⟩
      · simp [postOnQp, hres, hsent]
      · exact List.nodup_cons.mpr ⟨hnot, hnd⟩
      · by_cases hj : j = qpIndex
        · subst hj
          simp [hsent]
        · rw [List.map_cons, List.mem_cons, hrest j hj]
          simp [hj]

end

/-! ## The layout -/

/-- Two calls for the same group, maybe with other QPs in use. -/
structure SameLayout (a b : MultiSendCall) : Prop where
  nreqs : a.nreqs = b.nreqs
  qps : a.comm.base.qps = b.comm.base.qps
  qpsPerDev : a.qpsPerDev = b.qpsPerDev
  target : ∀ r < b.nreqs, (a.comm.ctsFifo a.slot r).addr = (b.comm.ctsFifo b.slot r).addr
  send : ∀ r < b.nreqs, (a.comm.base.reqs (a.reqs r)).send.size =
      (b.comm.base.reqs (b.reqs r)).send.size ∧
    (a.comm.base.reqs (a.reqs r)).send.data = (b.comm.base.reqs (b.reqs r)).send.data
  weights : (a.comm.base.reqs (a.reqs 0)).send.weights = (b.comm.base.reqs (b.reqs 0)).send.weights

/-- Two loops have cut off the same bytes so far. -/
def SameSoFar (nreqs : Nat) (s t : MultiSendState) : Prop :=
  ∀ r < nreqs, rangeOf (s.wrs r) = rangeOf (t.wrs r) ∧ s.sendOffsets r = t.sendOffsets r

section
variable {a b : MultiSendCall}

theorem sameSoFar_init (h : SameLayout a b) (imm imm' : Nat) :
    SameSoFar b.nreqs (multiSendInit a imm) (multiSendInit b imm') := by
  intro r hr
  have hlast : ∀ (c : MultiSendCall) (imm r : Nat), r < c.nreqs →
      rangeOf ((multiSendInit c imm).wrs r) = rangeOf (initWr c r) := by
    intro c imm r hr
    unfold multiSendInit
    simp only
    split
    · rename_i he
      unfold initLastWr
      rw [if_pos (he ▸ hr), ← he]
      rfl
    · rfl
  refine ⟨?_, rfl⟩
  rw [hlast a imm r (h.nreqs ▸ hr), hlast b imm' r hr]
  unfold rangeOf initWr
  simp only [(h.send r hr).2, h.target r hr]

/-- One turn cuts off the same bytes. -/
theorem qpWrs_range (h : SameLayout a b) {s t : MultiSendState} (hst : SameSoFar b.nreqs s t)
    (p p' j : Nat) {r : Nat} (hr : r < b.nreqs) :
    rangeOf (qpWrs a s (a.comm.base.qps p) (a.comm.base.qps j).devIndex r) =
      rangeOf (qpWrs b t (b.comm.base.qps p') (b.comm.base.qps j).devIndex r) := by
  obtain ⟨hrange, hoff⟩ := hst r hr
  unfold qpWrs
  rw [if_pos (h.nreqs ▸ hr), if_pos hr]
  simp only [rangeOf, ByteRange.mk.injEq, chunkWr] at hrange ⊢
  obtain ⟨h1, h2, h3, h4⟩ := hrange
  rw [(h.send r hr).1, h.weights, h.qps, h.qpsPerDev, hoff, h1, h2, h4]
  exact ⟨rfl, rfl, rfl, rfl⟩

theorem sameSoFar_postOnQp (h : SameLayout a b) {s t : MultiSendState}
    (hst : SameSoFar b.nreqs s t) (p p' j : Nat) :
    SameSoFar b.nreqs (postOnQp a s (p, j)) (postOnQp b t (p', j)) := by
  intro r hr
  have hrange := qpWrs_range h hst p p' j hr
  have ha : r < a.nreqs := h.nreqs ▸ hr
  unfold postOnQp
  simp only [if_pos ha, if_pos hr]
  generalize qpWrs a s (a.comm.base.qps p) (a.comm.base.qps j).devIndex r = wr at hrange
  generalize qpWrs b t (b.comm.base.qps p') (b.comm.base.qps j).devIndex r = wr' at hrange
  simp only [rangeOf, ByteRange.mk.injEq] at hrange
  obtain ⟨h1, h2, h3, h4⟩ := hrange
  refine ⟨?_, ?_⟩
  · unfold rangeOf advanceWr
    simp only [h1, h2, h3, h4]
  · rw [h3, (hst r hr).2, (h.send r hr).1]

/-- Both loops give the same bytes to each index. -/
theorem sameBytes_loopParts (h : SameLayout a b) (ha : a.nreqs - 1 ≤ a.lastWr)
    (hb : b.nreqs - 1 ≤ b.lastWr) (qps : List (Nat × Nat)) :
    ∀ qps' s t, qps.map Prod.snd = qps'.map Prod.snd → SameSoFar b.nreqs s t →
      List.Forall₂ (SameBytes b.nreqs) (loopParts a s qps) (loopParts b t qps') := by
  induction qps with
  | nil =>
    intro qps' s t heq _
    cases qps' with
    | nil => exact List.Forall₂.nil
    | cons q rest => cases heq
  | cons q rest ih =>
    intro qps' s t heq hst
    obtain ⟨p, j⟩ := q
    cases qps' with
    | nil => cases heq
    | cons q' rest' =>
      obtain ⟨p', j'⟩ := q'
      obtain ⟨hj, hrest⟩ := List.cons.inj heq
      obtain rfl : j = j' := hj
      refine List.Forall₂.cons ⟨rfl, fun r hr => ?_⟩
        (ih rest' _ _ hrest (sameSoFar_postOnQp h hst p p' j))
      have hr' : r < a.nreqs := h.nreqs ▸ hr
      refine ⟨_, _, ?_, ?_, qpWrs_range h hst p p' j hr⟩
      · rw [List.getElem?_map, List.getElem?_range (by omega)]
        rfl
      · rw [List.getElem?_map, List.getElem?_range (by omega)]
        rfl

end

/-! ## What happens between the posts -/

/-- Everything that the choice of QPs reads is as before, but for the QPs in use. -/
structure SameQps (c d : NcclIbSendComm) : Prop where
  ndevs : d.base.ndevs = c.base.ndevs
  qps : d.base.qps = c.base.qps
  nqps : d.base.nqps = c.base.nqps
  nDataQps : d.base.nDataQps = c.base.nDataQps
  splitDataOnQps : d.base.splitDataOnQps = c.base.splitDataOnQps
  context : d.base.resiliency = c.base.resiliency

/-- The group of `slot` still has its CTS elements, and its requests are for the same
sends. -/
structure SameGroup (slot : Nat) (c d : NcclIbSendComm) : Prop extends SameQps c d where
  ctsFifo : d.ctsFifo slot = c.ctsFifo slot
  sendReqs : d.sendReqs slot = c.sendReqs slot
  req : ∀ r < (c.ctsFifo slot 0).nreqs, (reqAt d slot r).type = (reqAt c slot r).type ∧
    (reqAt d slot r).id = (reqAt c slot r).id ∧ (reqAt d slot r).nreqs = (reqAt c slot r).nreqs
  send : ∀ r < (c.ctsFifo slot 0).nreqs,
    (reqAt d slot r).send.size = (reqAt c slot r).send.size ∧
    (reqAt d slot r).send.data = (reqAt c slot r).send.data ∧
    (reqAt d slot r).send.weights = (reqAt c slot r).send.weights

/-- The same, and what was sent of the group is still marked. -/
structure GroupKept (slot : Nat) (c d : NcclIbSendComm) : Prop extends SameGroup slot c d where
  sentData : (reqAt d slot 0).send.sentData = (reqAt c slot 0).send.sentData

/-- A device fails, the recovery thread is done with a device, the comm takes note of
it, or anything else happens that stays within `keep`. -/
inductive FailoverStep (keep : NcclIbSendComm → NcclIbSendComm → Prop) (s : ResSendComm) :
    ResSendComm → Prop
  | fails (env : ResEnv) (status : WcStatus) (d : Nat) {base : NcclIbNetCommBase}
    {res : NcclIbResiliency} {ret : Except Stop Unit} (hd : d < s.res.base.ndevs)
    (hcheck : ncclIbResiliencyCheckErrorNotFatal s.res.base status d = .ok ())
    (h : ncclIbResiliencyHandleDeviceFailure env s.comm.base s.res.base d = (base, res, ret))
    (hret : ret ≠ .error .badPointer) :
    FailoverStep keep s ⟨{ s.comm with base }, { s.res with base := res }⟩
  | thread (d : Nat) (st : DevState) (hd : (s.res.base.devs d).state = .RecoveryInProgress)
    (hst : st = .Recovered ∨ st = .RecoveryFailed) :
    FailoverStep keep s ⟨s.comm, { s.res with base := s.res.base.setState d st }⟩
  | progress (d : Nat) {base : NcclIbNetCommBase} {res : NcclIbResiliency}
    (h : progressDev s.comm.base s.res.base d = (base, res, .ok ())) :
    FailoverStep keep s ⟨{ s.comm with base }, { s.res with base := res }⟩
  | other {t : ResSendComm} (hkeep : keep s.comm t.comm)
    (hactive : t.comm.base.activeQps = s.comm.base.activeQps)
    (hndevs : t.res.base.ndevs = s.res.base.ndevs)
    (hstate : ∀ d, (t.res.base.devs d).state = (s.res.base.devs d).state) :
    FailoverStep keep s t

/-- A send comm as connect leaves it: each QP is in use and each device is Ok. -/
structure Connected (sh : Shape) (s : ResSendComm) : Prop where
  striped : Striped sh s.comm.base
  context : s.comm.base.resiliency = true
  ndevs : s.res.base.ndevs = sh.ndevs
  active : ∀ q < sh.nqps, s.comm.base.activeQps q = some q
  ok : ∀ d < sh.ndevs, (s.res.base.devs d).state = .Ok

/-- A full group of `slot` that `ncclIbIsend` is about to post. -/
structure WaitingGroup (comm : NcclIbSendComm) (slot : Nat) : Prop where
  nreqs_pos : 0 < (comm.ctsFifo slot 0).nreqs
  nreqs_le : (comm.ctsFifo slot 0).nreqs ≤ NCCL_NET_IB_MAX_RECVS
  matched : ∀ r < (comm.ctsFifo slot 0).nreqs, (comm.sendReqs slot r).isSome
  type : (reqAt comm slot 0).type = NCCL_NET_IB_REQ_SEND
  nreqs : (reqAt comm slot 0).nreqs = (comm.ctsFifo slot 0).nreqs
  slot_eq : slotOf (reqAt comm slot 0).id = slot
  ids : ∀ r < (comm.ctsFifo slot 0).nreqs, (reqAt comm slot r).id = (reqAt comm slot 0).id

section
variable {sh : Shape} {slot : Nat} {c d e : NcclIbSendComm} {s t : ResSendComm}
  {keep : NcclIbSendComm → NcclIbSendComm → Prop}

theorem SameQps.refl (c : NcclIbSendComm) : SameQps c c := ⟨rfl, rfl, rfl, rfl, rfl, rfl⟩

theorem SameQps.trans (h : SameQps c d) (h' : SameQps d e) : SameQps c e :=
  ⟨h'.1.trans h.1, h'.2.trans h.2, h'.3.trans h.3, h'.4.trans h.4, h'.5.trans h.5, h'.6.trans h.6⟩

theorem SameQps.striped (h : SameQps c d) (hs : Striped sh c.base) : Striped sh d.base :=
  ⟨h.ndevs.trans hs.ndevs, h.nqps.trans hs.nqps, h.nDataQps.trans hs.nDataQps,
    h.qps ▸ hs.devIndex, h.qps ▸ hs.remDevIdx⟩

theorem SameQps.indexes (h : SameQps c d) (id : Nat) :
    (qpsOf sh d.base id).map Prod.snd = (qpsOf sh c.base id).map Prod.snd := by
  rw [qpsOf_indexes, qpsOf_indexes]
  unfold reqQpIndex reqQps
  rw [h.splitDataOnQps]

theorem SameGroup.trans (h : SameGroup slot c d) (h' : SameGroup slot d e) : SameGroup slot c e := by
  refine ⟨h.toSameQps.trans h'.toSameQps, h'.ctsFifo.trans h.ctsFifo,
    h'.sendReqs.trans h.sendReqs, fun r hr => ?_, fun r hr => ?_⟩
  · obtain ⟨h1, h2, h3⟩ := h.req r hr
    obtain ⟨k1, k2, k3⟩ := h'.req r (h.ctsFifo ▸ hr)
    exact ⟨k1.trans h1, k2.trans h2, k3.trans h3⟩
  · obtain ⟨h1, h2, h3⟩ := h.send r hr
    obtain ⟨k1, k2, k3⟩ := h'.send r (h.ctsFifo ▸ hr)
    exact ⟨k1.trans h1, k2.trans h2, k3.trans h3⟩

/-- A change of counters and marks leaves the group as it is. -/
theorem sameGroup_withReqs (slot : Nat) {reqs : Nat → NcclIbRequest}
    (h : ∀ i, ∃ events devBases sentData, reqs i = { c.base.reqs i with
      events, devBases, send := { (c.base.reqs i).send with sentData } }) :
    SameGroup slot c (c.withReqs reqs) := by
  have hreq : ∀ r, ∃ events devBases sentData, reqAt (c.withReqs reqs) slot r =
      { reqAt c slot r with
        events, devBases, send := { (reqAt c slot r).send with sentData } } := fun r => h _
  refine ⟨⟨rfl, rfl, rfl, rfl, rfl, rfl⟩, rfl, rfl, fun r _ => ?_, fun r _ => ?_⟩
  · obtain ⟨_, _, _, heq⟩ := hreq r
    rw [heq]
    exact ⟨rfl, rfl, rfl⟩
  · obtain ⟨_, _, _, heq⟩ := hreq r
    rw [heq]
    exact ⟨rfl, rfl, rfl⟩

theorem GroupKept.refl (slot : Nat) (c : NcclIbSendComm) : GroupKept slot c c :=
  ⟨⟨SameQps.refl c, rfl, rfl, fun _ _ => ⟨rfl, rfl, rfl⟩, fun _ _ => ⟨rfl, rfl, rfl⟩⟩, rfl⟩

theorem GroupKept.trans (h : GroupKept slot c d) (h' : GroupKept slot d e) : GroupKept slot c e :=
  ⟨h.toSameGroup.trans h'.toSameGroup, h'.sentData.trans h.sentData⟩

theorem WaitingGroup.same (h : WaitingGroup c slot) (hk : SameGroup slot c d) :
    WaitingGroup d slot := by
  obtain ⟨h1, h2, h3⟩ := hk.req 0 h.nreqs_pos
  refine ⟨hk.ctsFifo ▸ h.nreqs_pos, hk.ctsFifo ▸ h.nreqs_le, ?_, h1.trans h.type, ?_, ?_, ?_⟩
  · rw [hk.ctsFifo, hk.sendReqs]
    exact h.matched
  · rw [h3, hk.ctsFifo]
    exact h.nreqs
  · rw [h2]
    exact h.slot_eq
  · intro r hr
    rw [hk.ctsFifo] at hr
    rw [(hk.req r hr).2.1, h2]
    exact h.ids r hr

theorem Connected.onOkDevices (h : Connected sh s) : OnOkDevices sh s.comm.base s.res.base := by
  refine ⟨h.striped, h.ndevs, fun q hq => ⟨q, hq, h.active q hq, h.ok _ ?_⟩⟩
  rw [h.striped.devIndex q hq]
  exact Nat.mod_lt _ sh.ndevs_pos

/-- A step keeps every QP in use on a device in the Ok state. -/
theorem FailoverStep.keeps (hkeep : ∀ c d, keep c d → SameQps c d)
    (hactive : ∀ (c : NcclIbSendComm) (activeQps : Nat → Option Nat),
      keep c { c with base := { c.base with activeQps } })
    (h : FailoverStep keep s t) (hok : OnOkDevices sh s.comm.base s.res.base) :
    OnOkDevices sh t.comm.base t.res.base ∧ keep s.comm t.comm := by
  cases h with
  | fails env status d hd hcheck h hret =>
    rcases handleDeviceFailure_keeps hok hd hcheck h with ⟨_, hok', hsame⟩ | ⟨_, hbad⟩
    · refine ⟨hok', ?_⟩
      simp only
      rw [hsame]
      exact hactive _ _
    · exact absurd hbad hret
  | thread d st hd hst =>
    refine ⟨thread_keeps hok (by rw [hd]; simp), ?_⟩
    exact hactive s.comm s.comm.base.activeQps
  | progress d h =>
    obtain ⟨hok', hsame⟩ := progressDev_keeps hok h
    refine ⟨hok', ?_⟩
    simp only
    rw [hsame]
    exact hactive _ _
  | other hkept hact hndevs hstate =>
    have hsame := hkeep _ _ hkept
    refine ⟨⟨hsame.striped hok.striped, hndevs.trans hok.ndevs, fun q hq => ?_⟩, hkept⟩
    obtain ⟨p, hp, hactive, hst⟩ := hok.active q hq
    refine ⟨p, hp, (congrFun hact q).trans hactive, ?_⟩
    rw [hstate, hsame.qps]
    exact hst

theorem Connected.allInUse (h : Connected sh s) : AllInUse sh s.comm.base s.res.base :=
  ⟨h.striped, h.ndevs, h.active, h.ok⟩

/-- A step takes no QP out of its own place, since the first failure stops. -/
theorem FailoverStep.inUse (hkeep : ∀ c d, keep c d → SameQps c d) (h : FailoverStep keep s t)
    (huse : AllInUse sh s.comm.base s.res.base) : AllInUse sh t.comm.base t.res.base := by
  cases h with
  | fails env status d hd hcheck h hret =>
    have hstop := first_failure_stops huse env (huse.ndevs ▸ hd) hcheck
    rw [h] at hstop
    exact absurd hstop hret
  | thread d st hd hst =>
    refine ⟨huse.striped, huse.ndevs, huse.active, fun d' hd' => ?_⟩
    have hne : d' ≠ d := by
      rintro rfl
      rw [huse.ok d' hd'] at hd
      cases hd
    show ((s.res.base.setState d st).devs d').state = .Ok
    rw [setState_state, if_neg hne]
    exact huse.ok d' hd'
  | progress d h => exact progressDev_inUse huse h
  | other hkept hact hndevs hstate =>
    have hsame := hkeep _ _ hkept
    exact ⟨hsame.striped huse.striped, hndevs.trans huse.ndevs,
      fun q hq => (congrFun hact q).trans (huse.active q hq),
      fun d hd => (hstate d).trans (huse.ok d hd)⟩

theorem failovers_inUse (hkeep : ∀ c d, keep c d → SameQps c d)
    (hrun : Relation.ReflTransGen (FailoverStep keep) s t)
    (huse : AllInUse sh s.comm.base s.res.base) : AllInUse sh t.comm.base t.res.base := by
  induction hrun with
  | refl => exact huse
  | tail _ hstep ih => exact hstep.inUse hkeep ih

/-- Runs before the post keep the QPs in use on devices in the Ok state. -/
theorem failovers_before (hrun : Relation.ReflTransGen (FailoverStep SameQps) s t)
    (hok : OnOkDevices sh s.comm.base s.res.base) :
    OnOkDevices sh t.comm.base t.res.base ∧ SameQps s.comm t.comm := by
  induction hrun with
  | refl => exact ⟨hok, SameQps.refl _⟩
  | tail _ hstep ih =>
    obtain ⟨hok', hsame⟩ := FailoverStep.keeps (fun _ _ h => h)
      (fun _ _ => ⟨rfl, rfl, rfl, rfl, rfl, rfl⟩) hstep ih.1
    exact ⟨hok', ih.2.trans hsame⟩

/-- Runs after the post also keep the group. -/
theorem failovers_after (hrun : Relation.ReflTransGen (FailoverStep (GroupKept slot)) s t)
    (hok : OnOkDevices sh s.comm.base s.res.base) :
    OnOkDevices sh t.comm.base t.res.base ∧ GroupKept slot s.comm t.comm := by
  induction hrun with
  | refl => exact ⟨hok, GroupKept.refl slot _⟩
  | tail _ hstep ih =>
    obtain ⟨hok', hkept⟩ := FailoverStep.keeps (fun _ _ h => h.toSameQps)
      (fun c _ => ⟨⟨⟨rfl, rfl, rfl, rfl, rfl, rfl⟩, rfl, rfl, fun _ _ => ⟨rfl, rfl, rfl⟩,
        fun _ _ => ⟨rfl, rfl, rfl⟩⟩, rfl⟩) hstep ih.1
    exact ⟨hok', ih.2.trans hkept⟩

end

/-! ## The loops of the replay -/

/-- A request whose parts `qs` are to be sent again, but for the delivered ones. -/
def Resent (delivered : Nat → Bool) (qs : List Nat) (old new : NcclIbRequest) : Prop :=
  ∃ events devBases sentData,
    new = { old with events, devBases, send := { old.send with sentData } } ∧
    ∀ q, sentData q = (old.send.sentData q && !(decide (q ∈ qs) && !delivered q))

section
variable {delivered : Nat → Bool} {qs : List Nat} {a b c : NcclIbRequest}

theorem Resent.trans {qs' : List Nat} (h : Resent delivered qs a b) (h' : Resent delivered qs' b c)
    {l : List Nat} (hl : ∀ q, q ∈ l ↔ q ∈ qs ∨ q ∈ qs') : Resent delivered l a c := by
  obtain ⟨ev, db, sd, rfl, hsd⟩ := h
  obtain ⟨ev', db', sd', rfl, hsd'⟩ := h'
  refine ⟨ev', db', sd', rfl, fun q => ?_⟩
  rw [hsd' q]
  simp only [hsd q, hl q]
  by_cases h1 : q ∈ qs <;> by_cases h2 : q ∈ qs' <;> simp [h1, h2]

theorem resent_clearEvents (req : NcclIbRequest) : Resent delivered [] req (clearEvents req) :=
  ⟨_, _, _, rfl, fun q => by simp⟩

theorem resent_resend (req : NcclIbRequest) {q : Nat} (hq : delivered q = false) (d : Nat) :
    Resent delivered [q] req (resend req q d) := by
  refine ⟨_, _, _, rfl, fun j => ?_⟩
  by_cases hj : j = q
  · subst hj
    simp [hq]
  · simp [hj]

theorem resent_delivered (req : NcclIbRequest) {q : Nat} (hq : delivered q = true) :
    Resent delivered [q] req req := by
  refine ⟨_, _, _, rfl, fun j => ?_⟩
  by_cases hj : j = q
  · subst hj
    simp [hq]
  · simp [hj]

end

section
variable {sh : Shape}

/-- The inner loop marks the parts that are not delivered. The log line of such a part
stops it. -/
theorem repostParts_resent (res : NcclIbResiliencySend) (slot i : Nat)
    (parts : List Nat) : ∀ comm : NcclIbSendComm, Striped sh comm.base →
      (∀ q < sh.nqps, (comm.base.activeQps q).isSome) →
      ((repostParts res slot i parts comm).2 = .ok () ↔ (logsInfo = true →
        ∀ part ∈ parts, res.probingResults slot
          (reqQpIndex sh comm.base (comm.base.reqs i).id part) = true)) ∧
      ((repostParts res slot i parts comm).2 = .ok () →
        ∃ new, (repostParts res slot i parts comm).1 =
            comm.withReqs (Function.update comm.base.reqs i new) ∧
          Resent (res.probingResults slot)
            (parts.map (reqQpIndex sh comm.base (comm.base.reqs i).id)) (comm.base.reqs i) new) := by
  induction parts with
  | nil =>
    intro comm _ _
    refine ⟨⟨fun _ _ part hpart => (by cases hpart), fun _ => rfl⟩,
      fun _ => ⟨comm.base.reqs i, ?_, _, _, _, rfl, fun q => by simp⟩⟩
    rw [Function.update_eq_self]
    rfl
  | cons part rest ih =>
    intro comm hs hact
    obtain ⟨p, hp⟩ := Option.isSome_iff_exists.mp
      (hact _ (reqQpIndex_lt sh comm.base (comm.base.reqs i).id part))
    have hget := qpForRequest_eq hs (comm.base.reqs i).id part hp
    unfold repostParts
    rw [hget]
    simp only
    by_cases hq : res.probingResults slot
        (reqQpIndex sh comm.base (comm.base.reqs i).id part) = true
    · rw [if_pos hq]
      obtain ⟨hret, hnew⟩ := ih comm hs hact
      refine ⟨?_, fun hok => ?_⟩
      · rw [hret]
        simp only [List.mem_cons, forall_eq_or_imp, hq, true_and]
      · obtain ⟨new, hcomm, hres⟩ := hnew hok
        exact ⟨new, hcomm, (resent_delivered _ hq).trans hres (fun q => by simp)⟩
    rw [if_neg hq]
    by_cases hlog : logsInfo = true
    · rw [if_pos hlog]
      refine ⟨⟨fun hok => (by cases hok), fun hall => ?_⟩, fun hok => (by cases hok)⟩
      exact absurd (hall hlog part (List.mem_cons_self ..)) hq
    rw [if_neg hlog]
    obtain ⟨hret, hnew⟩ := ih (comm.withReqs (Function.update comm.base.reqs i
      (resend (comm.base.reqs i) (reqQpIndex sh comm.base (comm.base.reqs i).id part)
        (comm.base.qps p).devIndex)))
      ⟨hs.ndevs, hs.nqps, hs.nDataQps, hs.devIndex, hs.remDevIdx⟩ hact
    refine ⟨⟨fun _ hno => absurd hno hlog, fun _ => hret.mpr (fun hno => absurd hno hlog)⟩,
      fun hok => ?_⟩
    obtain ⟨new, hcomm, hres⟩ := hnew hok
    refine ⟨new, ?_, ?_⟩
    · rw [hcomm]
      unfold NcclIbSendComm.withReqs
      simp
    · simp only [NcclIbSendComm.withReqs, Function.update_self] at hres
      exact (resent_resend _ (by simpa using hq) _).trans hres (fun q => by
        simp only [List.map_cons, List.mem_cons, List.not_mem_nil, or_false]
        rfl)

/-- Both loops together, for the entries `rs` of a group with one id. -/
theorem repostSends_resent (res : NcclIbResiliencySend) (slot id : Nat)
    (rs : List Nat) : ∀ comm : NcclIbSendComm, Striped sh comm.base →
      (∀ q < sh.nqps, (comm.base.activeQps q).isSome) →
      (∀ r ∈ rs, (comm.sendReqs slot r).isSome ∧ (reqAt comm slot r).id = id) →
      ((repostSends res slot rs comm).2 = .ok () ↔ (logsInfo = true → rs ≠ [] →
        ∀ q ∈ (qpsOf sh comm.base id).map Prod.snd, res.probingResults slot q = true)) ∧
      ((repostSends res slot rs comm).2 = .ok () →
        ∃ reqs, (repostSends res slot rs comm).1 = comm.withReqs reqs ∧
          ∀ i, ((∃ r ∈ rs, comm.sendReqs slot r = some i) →
              Resent (res.probingResults slot) ((qpsOf sh comm.base id).map Prod.snd)
                (comm.base.reqs i) (reqs i)) ∧
            ((¬ ∃ r ∈ rs, comm.sendReqs slot r = some i) → reqs i = comm.base.reqs i)) := by
  induction rs with
  | nil =>
    intro comm _ _ _
    exact ⟨⟨fun _ _ hne => absurd rfl hne, fun _ => rfl⟩,
      fun _ => ⟨comm.base.reqs, rfl, fun i => ⟨by simp, fun _ => rfl⟩⟩⟩
  | cons r rest ih =>
    intro comm hs hact hreq
    obtain ⟨hsome, hid⟩ := hreq r (List.mem_cons_self ..)
    obtain ⟨i, hi⟩ := Option.isSome_iff_exists.mp hsome
    have hidi : (comm.base.reqs i).id = id := by
      rw [← hid]
      unfold reqAt
      rw [hi]
      rfl
    have hnq := nqpsPerRequest_eq hs
    obtain ⟨hret, hnew⟩ := repostParts_resent res slot i
      (List.range (reqQps sh comm.base))
      (comm.withReqs (Function.update comm.base.reqs i (clearEvents (comm.base.reqs i))))
      ⟨hs.ndevs, hs.nqps, hs.nDataQps, hs.devIndex, hs.remDevIdx⟩ hact
    unfold repostSends
    rw [hi]
    simp only
    have hnq' : ncclIbCommBaseGetNqpsPerRequest (comm.withReqs
        (Function.update comm.base.reqs i (clearEvents (comm.base.reqs i)))).base =
        .ok (reqQps sh comm.base) := hnq
    rw [hnq']
    simp only
    have hparts : (∀ part ∈ List.range (reqQps sh comm.base),
        res.probingResults slot (reqQpIndex sh comm.base id part) = true) ↔
          ∀ q ∈ (qpsOf sh comm.base id).map Prod.snd, res.probingResults slot q = true := by
      rw [qpsOf_indexes, List.forall_mem_map]
    have hid₁ : ((comm.withReqs (Function.update comm.base.reqs i
        (clearEvents (comm.base.reqs i)))).base.reqs i).id = id := by
      simp [NcclIbSendComm.withReqs, clearEvents, hidi]
    rw [hid₁] at hret
    change _ ↔ (logsInfo = true → ∀ part ∈ List.range (reqQps sh comm.base),
      res.probingResults slot (reqQpIndex sh comm.base id part) = true) at hret
    rw [hparts] at hret
    generalize hout : repostParts res slot i (List.range (reqQps sh comm.base))
      (comm.withReqs (Function.update comm.base.reqs i (clearEvents (comm.base.reqs i)))) = out
      at hret hnew
    obtain ⟨mid, ret⟩ := out
    cases ret with
    | error e =>
      refine ⟨⟨fun hok => (by cases hok), fun hall => ?_⟩, fun hok => (by cases hok)⟩
      cases hret.mpr (fun hlog => hall hlog (List.cons_ne_nil _ _))
    | ok u =>
      obtain ⟨new, hmid, hres⟩ := hnew rfl
      simp only at hmid ⊢
      have hmid' : mid = comm.withReqs (Function.update comm.base.reqs i new) := by
        rw [hmid]
        unfold NcclIbSendComm.withReqs
        simp
      subst hmid'
      simp only [NcclIbSendComm.withReqs, Function.update_self] at hres
      have hnewid : new.id = id := by
        obtain ⟨_, _, _, rfl, _⟩ := hres
        exact hidi
      -- The request is reset once, and maybe again for another entry.
      have hone : Resent (res.probingResults slot) ((qpsOf sh comm.base id).map Prod.snd)
          (comm.base.reqs i) new := by
        refine (resent_clearEvents (comm.base.reqs i)).trans hres (fun q => ?_)
        rw [qpsOf_indexes]
        simp only [List.not_mem_nil, false_or]
        rw [← hidi]
        rfl
      obtain ⟨hret', hrest⟩ := ih (comm.withReqs (Function.update comm.base.reqs i new))
        ⟨hs.ndevs, hs.nqps, hs.nDataQps, hs.devIndex, hs.remDevIdx⟩ hact (by
          intro r' hr'
          obtain ⟨hsome', hid'⟩ := hreq r' (List.mem_cons_of_mem _ hr')
          refine ⟨hsome', ?_⟩
          unfold reqAt at hid' ⊢
          by_cases he : (comm.sendReqs slot r').getD 0 = i
          · simp [NcclIbSendComm.withReqs, he, hnewid]
          · simp [NcclIbSendComm.withReqs, he, hid'])
      refine ⟨?_, fun hok => ?_⟩
      · rw [hret']
        exact ⟨fun _ hlog _ => hret.mp rfl hlog, fun hall hlog _ => hall hlog (List.cons_ne_nil _ _)⟩
      obtain ⟨reqs, hcomm, hall⟩ := hrest hok
      refine ⟨reqs, hcomm, fun j => ?_⟩
      obtain ⟨hin, hout'⟩ := hall j
      have hsame : ∀ id, (qpsOf sh (comm.withReqs
          (Function.update comm.base.reqs i new)).base id) = qpsOf sh comm.base id := fun _ => rfl
      rw [hsame] at hin
      simp only [NcclIbSendComm.withReqs] at hin hout'
      by_cases hji : j = i
      · subst hji
        rw [Function.update_self] at hin hout'
        refine ⟨fun _ => ?_, fun hno => absurd ⟨r, List.mem_cons_self .., hi⟩ hno⟩
        by_cases hmem : ∃ r' ∈ rest, comm.sendReqs slot r' = some j
        · exact hone.trans (hin hmem) (fun q => (or_self_iff).symm)
        · rw [hout' hmem]
          exact hone
      · rw [Function.update_of_ne hji] at hin hout'
        refine ⟨fun hmem => hin ?_, fun hno => hout' (fun ⟨r', hr', he⟩ =>
          hno ⟨r', List.mem_cons_of_mem _ hr', he⟩)⟩
        obtain ⟨r', hr', he⟩ := hmem
        rcases List.mem_cons.mp hr' with rfl | hr'
        · rw [hi] at he
          exact absurd (Option.some.inj he).symm hji
        · exact ⟨r', hr', he⟩

end

/-! ## The replay -/

/-- The comm with which the replay calls `ncclIbMultiSend`. -/
def replayComm (s : ResSendComm) (slot : Nat) : NcclIbSendComm :=
  (repostSends s.res slot (List.range (reqAt s.comm slot 0).nreqs) s.comm).1

section
variable {sh : Shape} {slot : Nat}

theorem loopParts_indexes (call : MultiSendCall) (qps : List (Nat × Nat)) : ∀ s,
    (loopParts call s qps).map Part.qpIndex = qps.map Prod.snd := by
  induction qps with
  | nil => intro s; rfl
  | cons q rest ih =>
    intro s
    exact congrArg (q.2 :: ·) (ih (postOnQp call s q))

/-- Each post is on the QP in use for its index. -/
theorem loopParts_qp (call : MultiSendCall) (qps : List (Nat × Nat)) : ∀ s,
    ∀ part ∈ loopParts call s qps, (part.post.qp, part.qpIndex) ∈ qps := by
  induction qps with
  | nil =>
    intro s part hpart
    cases hpart
  | cons q rest ih =>
    intro s part hpart
    rcases List.mem_cons.mp hpart with rfl | hpart
    · exact List.mem_cons_self ..
    · exact List.mem_cons_of_mem _ (ih _ part hpart)

theorem multiSendParts_indexes (net : NetEnv) (comm : NcclIbSendComm) (slot : Nat) :
    (multiSendParts sh net comm slot).map Part.qpIndex =
      (qpsOf sh comm.base (reqAt comm slot 0).id).map Prod.snd := loopParts_indexes _ _ _

theorem PostsOf.congr {parts : List Part} {todo todo' : Nat → Prop} {posts : List SendPost}
    (h : PostsOf parts todo posts) (hiff : ∀ q ∈ parts.map Part.qpIndex, todo q ↔ todo' q) :
    PostsOf parts todo' posts := by
  obtain ⟨sent, hsub, hmap, hnd, hmem⟩ := h
  refine ⟨sent, hsub, hmap, hnd, fun q => ?_⟩
  rw [hmem q]
  exact and_congr_right (hiff q)

/-- A post of the group is on the QP in use for one of its indexes. -/
theorem PostsOf.qp {net : NetEnv} {comm : NcclIbSendComm} {todo : Nat → Prop}
    {posts : List SendPost} (h : PostsOf (multiSendParts sh net comm slot) todo posts)
    {post : SendPost} (hpost : post ∈ posts) :
    ∃ j < sh.nqps, post.qp = (comm.base.activeQps j).getD 0 := by
  obtain ⟨sent, hsub, hmap, _⟩ := h
  rw [hmap] at hpost
  obtain ⟨part, hpart, rfl⟩ := List.mem_map.mp hpost
  have hmem := loopParts_qp _ _ _ part (hsub.mem hpart)
  obtain ⟨i, _, heq⟩ := List.mem_map.mp hmem
  obtain ⟨hqp, hindex⟩ := Prod.mk.inj heq
  exact ⟨_, reqQpIndex_lt sh comm.base (reqAt comm slot 0).id i, hqp.symm⟩

/-- After a loop the parts of its QPs are marked as sent. -/
theorem foldl_sentData {call : MultiSendCall} (hpos : 0 < call.nreqs) (qps : List (Nat × Nat))
    (j : Nat) : ∀ s, ((qps.foldl (postOnQp call) s).reqs (call.reqs 0)).send.sentData j =
      ((s.reqs (call.reqs 0)).send.sentData j || decide (j ∈ qps.map Prod.snd)) := by
  induction qps with
  | nil => intro s; simp
  | cons q rest ih =>
    intro s
    rw [List.foldl_cons, ih, postOnQp_sentData hpos, List.map_cons]
    by_cases hj : j = q.2
    · simp [hj]
    · have hmem : j ∈ q.2 :: rest.map Prod.snd ↔ j ∈ rest.map Prod.snd := by simp [hj]
      rw [if_neg hj]
      simp only [hmem]

/-- A full group passes the checks of `ncclIbMultiSend`. Its posts are those of the
parts that are not marked as sent, and then all parts are. -/
theorem multiSend_posts (net : NetEnv) {comm : NcclIbSendComm} (hs : Striped sh comm.base)
    (hres : comm.base.resiliency = true) (hact : ∀ q < sh.nqps, (comm.base.activeQps q).isSome)
    (hg : WaitingGroup comm slot) :
    ∃ reqs posts, ncclIbMultiSend net comm slot = .ok (comm.withReqs reqs, posts) ∧
      PostsOf (multiSendParts sh net comm slot)
        (fun q => (reqAt comm slot 0).send.sentData q = false) posts ∧
      (∀ i, ∃ sentData, reqs i = { comm.base.reqs i with
        send := { (comm.base.reqs i).send with sentData } }) ∧
      ∀ q ∈ (qpsOf sh comm.base (reqAt comm slot 0).id).map Prod.snd,
        (reqs ((comm.sendReqs slot 0).getD 0)).send.sentData q = true := by
  have hsend := multiSend_eq net hs hact hg.nreqs_pos hg.nreqs_le hg.matched
  generalize hqps : qpsOf sh comm.base (reqAt comm slot 0).id = qps at hsend
  generalize hcall : multiSendCall net comm slot qps = call
  have hpos : 0 < call.nreqs := by
    rw [← hcall]
    exact hg.nreqs_pos
  have hcomm : call.comm = comm := by
    rw [← hcall]
    rfl
  have hreqs0 : call.reqs 0 = (comm.sendReqs slot 0).getD 0 := by
    rw [← hcall]
    rfl
  generalize himm : immDataOf comm.base (comm.base.reqs (call.reqs 0)) = imm
  obtain ⟨posts, hposts, hof⟩ :=
    postsOf_foldl hpos (hcomm ▸ hres) qps (multiSendInit call imm)
  refine ⟨(qps.foldl (postOnQp call) (multiSendInit call imm)).reqs, posts, ?_, ?_, fun i => ?_,
    fun q hq => ?_⟩
  · rw [hsend]
    unfold multiSendPost
    simp only
    rw [hcall, himm, hposts]
    rfl
  · unfold multiSendParts
    simp only
    rw [hqps, hcall, himm]
    have hold : ∀ q, ((multiSendInit call imm).reqs (call.reqs 0)).send.sentData q =
        (reqAt comm slot 0).send.sentData q := by
      intro q
      rw [hreqs0]
      unfold multiSendInit reqAt
      rw [hcomm]
    simpa only [hold] using hof
  · have hinit : (multiSendInit call imm).reqs = comm.base.reqs := by
      rw [← hcomm]
      rfl
    rw [← hinit]
    exact foldl_reqs call qps i (multiSendInit call imm)
  · rw [← hreqs0, foldl_sentData hpos]
    simp [hq]

/-- What the replay hands to `ncclIbMultiSend`: the group, with the parts that the
probe did not find marked as not sent. -/
theorem replayComm_kept {s : ResSendComm} (hs : Striped sh s.comm.base)
    (hact : ∀ q < sh.nqps, (s.comm.base.activeQps q).isSome) (hg : WaitingGroup s.comm slot)
    (hsent : ∀ q ∈ (qpsOf sh s.comm.base (reqAt s.comm slot 0).id).map Prod.snd,
      (reqAt s.comm slot 0).send.sentData q = true) :
    ((repostSends s.res slot (List.range (reqAt s.comm slot 0).nreqs) s.comm).2 = .ok () ↔
      (logsInfo = true → ∀ q ∈ (qpsOf sh s.comm.base (reqAt s.comm slot 0).id).map Prod.snd,
        s.res.probingResults slot q = true)) ∧
    ((repostSends s.res slot (List.range (reqAt s.comm slot 0).nreqs) s.comm).2 = .ok () →
      ∃ reqs, replayComm s slot = s.comm.withReqs reqs ∧
        (∀ i, ∃ events devBases sentData, reqs i = { s.comm.base.reqs i with
          events, devBases, send := { (s.comm.base.reqs i).send with sentData } }) ∧
        ∀ q ∈ (qpsOf sh s.comm.base (reqAt s.comm slot 0).id).map Prod.snd,
          (reqs ((s.comm.sendReqs slot 0).getD 0)).send.sentData q =
            s.res.probingResults slot q) := by
  have hpos : 0 < (reqAt s.comm slot 0).nreqs := by
    rw [hg.nreqs]
    exact hg.nreqs_pos
  obtain ⟨hret, hnew⟩ := repostSends_resent s.res slot
    (reqAt s.comm slot 0).id (List.range (reqAt s.comm slot 0).nreqs) s.comm hs hact (by
      intro r hr
      have hr' : r < (s.comm.ctsFifo slot 0).nreqs := hg.nreqs ▸ List.mem_range.mp hr
      exact ⟨hg.matched r hr', hg.ids r hr'⟩)
  have hne : List.range (reqAt s.comm slot 0).nreqs ≠ [] := by
    rw [Ne, List.range_eq_nil]
    omega
  refine ⟨?_, fun hok => ?_⟩
  · rw [hret]
    exact ⟨fun hall hlog => hall hlog hne, fun hall hlog _ => hall hlog⟩
  obtain ⟨reqs, hcomm, hall⟩ := hnew hok
  refine ⟨reqs, hcomm, fun i => ?_, fun q hq => ?_⟩
  · obtain ⟨hin, hout⟩ := hall i
    by_cases hmem : ∃ r ∈ List.range (reqAt s.comm slot 0).nreqs, s.comm.sendReqs slot r = some i
    · obtain ⟨ev, db, sd, heq, _⟩ := hin hmem
      exact ⟨ev, db, sd, heq⟩
    · exact ⟨_, _, _, hout hmem⟩
  · obtain ⟨i, hi⟩ := Option.isSome_iff_exists.mp (hg.matched 0 hg.nreqs_pos)
    obtain ⟨_, _, sd, heq, hsd⟩ := (hall i).1 ⟨0, List.mem_range.mpr hpos, hi⟩
    have hold := hsent q hq
    unfold reqAt at hold
    rw [hi] at hold ⊢
    simp only [Option.getD_some] at hold ⊢
    rw [heq]
    simp only
    rw [hsd, hold]
    simp [hq]

theorem sameLayout_same (net net' : NetEnv) {c d : NcclIbSendComm} (hk : SameGroup slot c d)
    (hpos : 0 < (c.ctsFifo slot 0).nreqs) {qps qps' : List (Nat × Nat)}
    (hqps : qps'.map Prod.snd = qps.map Prod.snd) :
    SameLayout (multiSendCall net' d slot qps') (multiSendCall net c slot qps) := by
  refine ⟨?_, hk.qps, ?_, fun r _ => ?_, fun r hr => ?_, ?_⟩
  · show (d.ctsFifo slot 0).nreqs = (c.ctsFifo slot 0).nreqs
    rw [hk.ctsFifo]
  · funext dev
    show qps'.countP (fun q => decide ((d.base.qps q.2).devIndex = dev)) =
      qps.countP (fun q => decide ((c.base.qps q.2).devIndex = dev))
    rw [hk.qps]
    have hcount : ∀ l : List (Nat × Nat),
        l.countP (fun q => decide ((c.base.qps q.2).devIndex = dev)) =
          (l.map Prod.snd).countP (fun j => decide ((c.base.qps j).devIndex = dev)) := by
      intro l
      rw [List.countP_map]
      rfl
    rw [hcount, hcount, hqps]
  · show (d.ctsFifo slot r).addr = (c.ctsFifo slot r).addr
    rw [hk.ctsFifo]
  · exact ⟨(hk.send r hr).1, (hk.send r hr).2.1⟩
  · exact (hk.send 0 hpos).2.2

/-- The end of `ncclIbResiliencyRepostRequest`, after its loop over the sends. -/
def afterRepostSends (net : NetEnv) (slot : Nat) :
    NcclIbSendComm × Except Stop Unit → ResOut NcclIbSendComm SendPost
  | (comm, .error e) => ⟨comm, [], .error e⟩
  | (comm, .ok ()) =>
    match ncclIbMultiSend net comm slot with
    | .error e => ⟨comm, [], .error e⟩
    | .ok (comm, posts) => ⟨comm, posts, .ok ()⟩

/-- A replay as it should be: it succeeds, gives every QP index the bytes that the first
post from comm `c` gave it, and posts exactly the parts that the probe did not find,
each on a device that is in the Ok state. -/
structure ReplayRight (sh : Shape) (net net' : NetEnv) (slot : Nat) (c : NcclIbSendComm)
    (s : ResSendComm) : Prop where
  ret : (ncclIbResiliencyRepostRequest net' s ((s.comm.sendReqs slot 0).getD 0)).ret = .ok ()
  bytes : List.Forall₂ (SameBytes (c.ctsFifo slot 0).nreqs)
    (multiSendParts sh net' (replayComm s slot) slot) (multiSendParts sh net c slot)
  posts : PostsOf (multiSendParts sh net' (replayComm s slot) slot)
    (fun q => s.res.probingResults slot q = false)
    (ncclIbResiliencyRepostRequest net' s ((s.comm.sendReqs slot 0).getD 0)).posts
  devices : ∀ post ∈
      (ncclIbResiliencyRepostRequest net' s ((s.comm.sendReqs slot 0).getD 0)).posts,
    (s.res.base.devs (s.comm.base.qps post.qp).devIndex).state = .Ok

/-- A group that waits for its replay: it was posted from comm `c`, and all its parts
are marked as sent. -/
structure PostedGroup (sh : Shape) (slot : Nat) (c : NcclIbSendComm) (s : ResSendComm) : Prop where
  ok : OnOkDevices sh s.comm.base s.res.base
  context : s.comm.base.resiliency = true
  group : WaitingGroup s.comm slot
  same : SameGroup slot c s.comm
  sent : ∀ q ∈ (qpsOf sh s.comm.base (reqAt s.comm slot 0).id).map Prod.snd,
    (reqAt s.comm slot 0).send.sentData q = true

theorem PostedGroup.indexes {c : NcclIbSendComm} {s : ResSendComm} (h : PostedGroup sh slot c s)
    (hpos : 0 < (c.ctsFifo slot 0).nreqs) :
    (qpsOf sh s.comm.base (reqAt s.comm slot 0).id).map Prod.snd =
      (qpsOf sh c.base (reqAt c slot 0).id).map Prod.snd := by
  rw [(h.same.req 0 hpos).2.1]
  exact h.same.indexes _

theorem repostRequest_eq (net : NetEnv) {s : ResSendComm} (hg : WaitingGroup s.comm slot) :
    ncclIbResiliencyRepostRequest net s ((s.comm.sendReqs slot 0).getD 0) =
      afterRepostSends net slot (repostSends s.res slot
        (List.range (reqAt s.comm slot 0).nreqs) s.comm) := by
  have hslot : slotOf (s.comm.base.reqs ((s.comm.sendReqs slot 0).getD 0)).id = slot := hg.slot_eq
  have htype : (s.comm.base.reqs ((s.comm.sendReqs slot 0).getD 0)).type =
      NCCL_NET_IB_REQ_SEND := hg.type
  unfold ncclIbResiliencyRepostRequest
  simp only [hslot, htype, ne_eq, not_true_eq_false, if_false]
  rfl

/-- The replay runs to its end when the loop over the sends does, and then it is right. -/
theorem PostedGroup.replay {c : NcclIbSendComm} {s : ResSendComm} (h : PostedGroup sh slot c s)
    (net net' : NetEnv) (hpos : 0 < (c.ctsFifo slot 0).nreqs) :
    ReplayRight sh net net' slot c s ↔
      (repostSends s.res slot (List.range (reqAt s.comm slot 0).nreqs) s.comm).2 = .ok () := by
  have hout := repostRequest_eq net' h.group
  have hcommeq : replayComm s slot = (repostSends s.res slot
    (List.range (reqAt s.comm slot 0).nreqs) s.comm).1 := rfl
  obtain ⟨_, hcomm⟩ := replayComm_kept h.ok.striped h.ok.isSome h.group h.sent
  generalize repostSends s.res slot (List.range (reqAt s.comm slot 0).nreqs) s.comm = mid
    at hcomm hout hcommeq
  obtain ⟨again, ret⟩ := mid
  constructor
  · intro hright
    have hret := hright.ret
    rw [hout] at hret
    cases ret with
    | ok u => rfl
    | error e => cases hret
  intro hret
  obtain rfl : ret = .ok () := hret
  obtain ⟨reqs, hagain, hframe, hprobe⟩ := hcomm rfl
  simp only at hcommeq
  obtain rfl : again = s.comm.withReqs reqs := hcommeq.symm.trans hagain
  have hsame : SameGroup slot s.comm (s.comm.withReqs reqs) := sameGroup_withReqs slot hframe
  obtain ⟨reqs', posts, hsend, hof, _, _⟩ := multiSend_posts net' (hsame.striped h.ok.striped)
    (hsame.context.trans h.context) h.ok.isSome (h.group.same hsame)
  simp only [afterRepostSends, hsend] at hout
  have hindexes : (qpsOf sh (s.comm.withReqs reqs).base
      (reqAt (s.comm.withReqs reqs) slot 0).id).map Prod.snd =
      (qpsOf sh s.comm.base (reqAt s.comm slot 0).id).map Prod.snd := by
    rw [(hsame.req 0 h.group.nreqs_pos).2.1]
    rfl
  refine ⟨by rw [hout], ?_, ?_, ?_⟩
  · have hall := hindexes.trans (h.indexes hpos)
    have hlay := sameLayout_same net net' (h.same.trans hsame) hpos hall
    rw [hagain]
    exact sameBytes_loopParts hlay (lastWr_ge ..) (lastWr_ge ..) _ _ _ _ hall
      (sameSoFar_init hlay _ _)
  · rw [hout, hagain]
    refine hof.congr (fun q hq => ?_)
    rw [multiSendParts_indexes, hindexes] at hq
    have hnow := hprobe q hq
    rw [← hnow]
    rfl
  · rw [hout]
    intro post hpost
    obtain ⟨j, hj, hqp⟩ := hof.qp hpost
    obtain ⟨p, _, hactive, hstate⟩ := h.ok.active j hj
    have hqp' : post.qp = p := by
      rw [hqp]
      show (s.comm.base.activeQps j).getD 0 = p
      rw [hactive]
      rfl
    rw [hqp']
    exact hstate

/-- The replay of a group is right exactly when the probe has found all its parts: the
log line of a missing part stops it. A failure of a device that is not fatal stops
too, before it and after the post. -/
theorem a_replay_is_right_iff_nothing_is_missing (sh : Shape) (net net' : NetEnv) (slot : Nat)
    (s₀ s s' : ResSendComm) (comm : NcclIbSendComm) (posts : List SendPost)
    (hstart : Connected sh s₀)
    (hbefore : Relation.ReflTransGen (FailoverStep SameQps) s₀ s)
    (hg : WaitingGroup s.comm slot) (hfresh : ∀ q, (reqAt s.comm slot 0).send.sentData q = false)
    (hpost : ncclIbMultiSend net s.comm slot = .ok (comm, posts))
    (hafter : Relation.ReflTransGen (FailoverStep (GroupKept slot)) ⟨comm, s.res⟩ s') :
    PostsOf (multiSendParts sh net s.comm slot) (fun _ => True) posts ∧
      (ReplayRight sh net net' slot s.comm s' ↔
        ∀ q ∈ (qpsOf sh s.comm.base (reqAt s.comm slot 0).id).map Prod.snd,
          s'.res.probingResults slot q = true) ∧
      ∀ env status d, d < sh.ndevs →
        (ncclIbResiliencyCheckErrorNotFatal s.res.base status d = .ok () →
          (ncclIbResiliencyHandleDeviceFailure env s.comm.base s.res.base d).2.2 =
            .error .badPointer) ∧
        (ncclIbResiliencyCheckErrorNotFatal s'.res.base status d = .ok () →
          (ncclIbResiliencyHandleDeviceFailure env s'.comm.base s'.res.base d).2.2 =
            .error .badPointer) := by
  -- The first post.
  obtain ⟨hok, hsame⟩ := failovers_before hbefore hstart.onOkDevices
  have huse := failovers_inUse (fun _ _ h => h) hbefore hstart.allInUse
  have hres : s.comm.base.resiliency = true := hsame.context.trans hstart.context
  obtain ⟨reqs, posts₁, hsend, hof, hframe, hmarked⟩ :=
    multiSend_posts net hok.striped hres hok.isSome hg
  obtain ⟨rfl, rfl⟩ := Prod.mk.inj (Except.ok.inj (hsend.symm.trans hpost))
  have hsame₁ : SameGroup slot s.comm (s.comm.withReqs reqs) := sameGroup_withReqs slot (fun i => by
    obtain ⟨sentData, heq⟩ := hframe i
    exact ⟨_, _, sentData, heq⟩)
  have hok₁ : OnOkDevices sh (s.comm.withReqs reqs).base s.res.base :=
    ⟨hsame₁.striped hok.striped, hok.ndevs, hok.active⟩
  have huse₁ : AllInUse sh (s.comm.withReqs reqs).base s.res.base :=
    ⟨hsame₁.striped hok.striped, huse.ndevs, huse.active, huse.ok⟩
  -- What is there at the replay.
  obtain ⟨hok', hkept⟩ := failovers_after hafter hok₁
  have huse' := failovers_inUse (fun _ _ h => h.toSameQps) hafter huse₁
  have hsame' : SameGroup slot s.comm s'.comm := hsame₁.trans hkept.toSameGroup
  have hindexes : (qpsOf sh s'.comm.base (reqAt s'.comm slot 0).id).map Prod.snd =
      (qpsOf sh s.comm.base (reqAt s.comm slot 0).id).map Prod.snd := by
    rw [(hsame'.req 0 hg.nreqs_pos).2.1]
    exact hsame'.indexes _
  have hposted : PostedGroup sh slot s.comm s' :=
    ⟨hok', hsame'.context.trans hres, hg.same hsame', hsame', fun q hq => by
      rw [hkept.sentData]
      exact hmarked q (hindexes ▸ hq)⟩
  refine ⟨?_, ?_, fun env status d hd => ⟨fun hcheck => first_failure_stops huse env hd hcheck,
    fun hcheck => first_failure_stops huse' env hd hcheck⟩⟩
  · simpa only [hfresh] using hof
  · rw [hposted.replay net net' hg.nreqs_pos,
      (replayComm_kept hok'.striped hok'.isSome hposted.group hposted.sent).1, hindexes]
    exact ⟨fun hall => hall rfl, fun hall _ => hall⟩

end

/-! ## A send over two devices -/

/-- Two devices and one QP on each of them, on both sides. -/
def pairShape : Shape := Shape.two

/-- The context of a send comm with `ndevs` devices, before its first use. -/
def freshRes (ndevs : Nat) : NcclIbResiliency :=
  { recoveryEnabled := false, devs := fun _ => {}, ndevs, probingQps := fun d => ⟨d, d, d, 0⟩
    inProgress := false, outstandingRequests := 0, outstandingRecovery := 0 }

def freshSendRes (ndevs : Nat) : NcclIbResiliencySend :=
  { base := freshRes ndevs, failedRequests := fun _ => {}, probingResults := fun _ _ => false
    probingResultsAddr := 0, remCmplRecordsInfo := fun _ => ⟨0, 0⟩ }

/-- A send of 1000 bytes that waits in slot 0 to be posted on two devices. -/
def waitingSend : ResSendComm :=
  { comm := { freshSend pairShape with
      base := { freshBase pairShape true with
        resiliency := true
        reqs := fun _ => { blankRequest with
          type := NCCL_NET_IB_REQ_SEND
          nreqs := 1
          send := { blankRequest.send with size := 1000, data := 0x1000, weights := fun _ => 50 } } }
      ctsFifo := fun _ _ =>
        { addr := 0x2000, size := 2 ^ 31, rkeys := fun _ => 7, nreqs := 1, tag := 0, idx := 1 }
      sendReqs := fun _ _ => some 0
      sendReqsCnt := fun _ => 1 }
    res := freshSendRes 2 }

/-- The send is posted. -/
def postedSend : ResSendComm :=
  { waitingSend with
    comm := (multiSendPost plainEnv waitingSend.comm 0 (qpsOf pairShape waitingSend.comm.base 0)).1 }

/-- Then a probe reports `flags`. -/
def probedSend (flags : Nat → Bool) : ResSendComm :=
  { postedSend with res := { postedSend.res with probingResults := fun _ => flags } }

theorem connected_waitingSend : Connected pairShape waitingSend where
  striped := { striped_freshBase pairShape true with }
  context := rfl
  ndevs := rfl
  active := fun _ _ => rfl
  ok := fun _ _ => rfl

theorem waitingGroup_waitingSend : WaitingGroup waitingSend.comm 0 :=
  ⟨by decide, by decide, fun _ _ => rfl, rfl, rfl, rfl, fun _ _ => rfl⟩

theorem post_waitingSend : ncclIbMultiSend plainEnv waitingSend.comm 0 = .ok
    (multiSendPost plainEnv waitingSend.comm 0 (qpsOf pairShape waitingSend.comm.base 0)) :=
  multiSend_eq plainEnv connected_waitingSend.striped (fun _ _ => rfl)
    waitingGroup_waitingSend.nreqs_pos waitingGroup_waitingSend.nreqs_le
    waitingGroup_waitingSend.matched

theorem step_probedSend (flags : Nat → Bool) :
    FailoverStep (GroupKept 0) postedSend (probedSend flags) :=
  .other (GroupKept.refl 0 _) rfl rfl (fun _ => rfl)

/-- The failure of a device under the send stops, and so does the replay when the probe has
found no part. -/
theorem a_replay_with_a_missing_part_stops :
    (ncclIbResiliencyHandleDeviceFailure {} postedSend.comm.base postedSend.res.base 1).2.2 =
      .error .badPointer ∧
    ¬ ∀ (sh : Shape) (net net' : NetEnv) (slot : Nat) (s₀ s s' : ResSendComm)
      (comm : NcclIbSendComm) (posts : List SendPost), Connected sh s₀ →
      Relation.ReflTransGen (FailoverStep SameQps) s₀ s → WaitingGroup s.comm slot →
      (∀ q, (reqAt s.comm slot 0).send.sentData q = false) →
      ncclIbMultiSend net s.comm slot = .ok (comm, posts) →
      Relation.ReflTransGen (FailoverStep (GroupKept slot)) ⟨comm, s.res⟩ s' →
      ReplayRight sh net net' slot s.comm s' := by
  refine ⟨rfl, fun h => ?_⟩
  have hret := (h pairShape plainEnv plainEnv 0 waitingSend waitingSend
    (probedSend fun _ => false) _ _ connected_waitingSend Relation.ReflTransGen.refl
    waitingGroup_waitingSend (fun _ => rfl) post_waitingSend
    (Relation.ReflTransGen.single (step_probedSend _))).ret
  have hstop : (ncclIbResiliencyRepostRequest plainEnv (probedSend fun _ => false) 0).ret =
      .error .badPointer := rfl
  cases hret.symm.trans hstop

/-- The replay of a send of which the probe has found all parts posts nothing. -/
theorem a_send_that_has_arrived_is_not_posted_again :
    ReplayRight pairShape plainEnv plainEnv 0 waitingSend.comm (probedSend fun _ => true) ∧
      (ncclIbResiliencyRepostRequest plainEnv (probedSend fun _ => true) 0).posts = [] :=
  ⟨(a_replay_is_right_iff_nothing_is_missing pairShape plainEnv plainEnv 0 waitingSend waitingSend
    (probedSend fun _ => true) _ _ connected_waitingSend Relation.ReflTransGen.refl
    waitingGroup_waitingSend (fun _ => rfl) post_waitingSend
    (Relation.ReflTransGen.single (step_probedSend _))).2.1.mpr (fun _ _ => rfl), by decide +kernel⟩

end net_ib.resiliency
