-- What a step of a connection can change of what its data goes by: the accepted sends,
-- the posted groups, the open receives, and the completions that are on their way.
-- Every post brings a completion to both sides, and its last write may go to the
-- completion records.
import MrcPlugin.DeliveryModel

namespace net_ib.p2p

open queues runs memory

/-! ## The completion records stay where they are -/

/-- Where a send comm finds the completion records of its peer. -/
def NcclIbSendComm.recordsAddr (comm : NcclIbSendComm) : Nat := comm.remCmplsRecords.addr

theorem recordsAddr_chargeSends (slot devIndex : Nat) (js : List Nat) : ∀ comm : NcclIbSendComm,
    (chargeSends slot devIndex js comm).1.recordsAddr = comm.recordsAddr := by
  induction js with
  | nil => exact fun _ => rfl
  | cons j js ih =>
    intro comm
    unfold chargeSends
    split
    · rfl
    split
    · rfl
    · exact ih _

theorem recordsAddr_event (comm : NcclIbSendComm) (wc : IbvWc) (devIndex : Nat) :
    (sendEventProcess comm wc devIndex).comm.recordsAddr = comm.recordsAddr := by
  unfold sendEventProcess
  split
  · rfl
  split
  · rfl
  · rfl
  simp only
  split
  · rfl
  · exact recordsAddr_chargeSends ..

theorem recordsAddr_complete (env : NetEnv) (comm : NcclIbSendComm) (i : Nat) :
    (sendRequestComplete env comm i).1.recordsAddr = comm.recordsAddr := by
  have hspeeds : ∀ d : NcclIbSendComm,
      (ncclIbCheckSpeedChanges env d).recordsAddr = d.recordsAddr := by
    intro d
    unfold ncclIbCheckSpeedChanges
    simp only
    split <;> rfl
  unfold sendRequestComplete
  simp only
  split
  · split
    · split
      · exact hspeeds _
      · rfl
    · rfl
  · rfl

theorem recordsAddr_test (env : NetEnv) (comm : NcclIbSendComm) (cq : List Cqe) (call : TestCall)
    (n : Nat) : (ncclIbTest env comm cq call n).comm.recordsAddr = comm.recordsAddr := by
  obtain ⟨r, pc⟩ := call
  unfold ncclIbTest
  cases pc with
  | top =>
    unfold testTop
    simp only
    split
    · rfl
    split
    · exact recordsAddr_complete ..
    · rfl
  | device i k =>
    unfold testDevice
    simp only
    split
    · rfl
    split <;> rfl
  | completions i k w wcs =>
    cases wcs with
    | nil =>
      simp only
      split
      · rfl
      split <;> rfl
    | cons c wcs =>
      have hout : (if c.wc.success then NetComm.eventProcess env comm c.wc i
          else if c.wc.wr_id = NCCL_IB_SPEED_UPDATE_WR_ID then NetComm.speedUpdateFailed comm
          else ⟨comm, [], .error (.ret ncclRemoteError)⟩).comm.recordsAddr = comm.recordsAddr := by
        split
        · exact recordsAddr_event ..
        split <;> rfl
      unfold testCompletion
      simp only
      split <;> exact hout

theorem recordsAddr_afterTest {s t : SendState} {env : NetEnv} {call : TestCall} {n : Nat}
    (h : s.afterTest call (ncclIbTest env s.comm s.cq call n) = some t) :
    t.comm.recordsAddr = s.comm.recordsAddr := by
  have htest := recordsAddr_test env s.comm s.cq call n
  generalize ncclIbTest env s.comm s.cq call n = out at h htest
  unfold SendState.afterTest at h
  simp only at h
  split at h
  · rw [← Option.some.inj h]
    exact htest
  · rw [← Option.some.inj h]
    exact htest
  · cases h
  · rw [← Option.some.inj h]
    exact htest
  · rw [← Option.some.inj h]
    exact htest

/-! ## What a post brings -/

theorem mem_flightsOf {id : Nat} {p : SendPost} {f : Flight} :
    f ∈ flightsOf id p ↔ f.id = id ∧ f.qp = p.qp ∧ p.wrs[f.j]? = some f.wr := by
  unfold flightsOf
  rw [List.mem_map]
  constructor
  · rintro ⟨⟨wr, j⟩, hmem, rfl⟩
    exact ⟨rfl, rfl, List.mem_zipIdx_iff_getElem?.mp hmem⟩
  · rintro ⟨hid, hqp, hwr⟩
    refine ⟨(f.wr, f.j), List.mem_zipIdx_iff_getElem?.mpr hwr, ?_⟩
    rw [← hid, ← hqp]

/-- A write that leaves everything but the completion records. -/
def IntoRecords (addr : Nat) (wr : IbvSendWr) : Prop :=
  bytesOf wr = 0 ∨ ∃ slot < NET_IB_MAX_REQUESTS,
    wr.remote_addr = (addr + slot * sizeofCompletionRecord) % 2 ^ 64 ∧
    bytesOf wr ≤ sizeofCompletionRecord

/-- The work request behind the data writes keeps its target along the QPs. -/
def ExtraTarget (call : MultiSendCall) (s : MultiSendState) : Prop :=
  (s.wrs call.lastWr).num_sge = 0 ∨ 1 < call.nreqs ∧
    (s.wrs call.lastWr).remote_addr =
      (call.comm.recordsAddr + call.slot * sizeofCompletionRecord) % 2 ^ 64

section
variable {call : MultiSendCall}

theorem extraTarget_init (hle : call.nreqs ≤ call.lastWr) (imm : Nat) :
    ExtraTarget call (multiSendInit call imm) := by
  unfold ExtraTarget multiSendInit initLastWr
  simp only [if_true, if_neg (Nat.not_lt_of_le hle)]
  by_cases hmany : call.nreqs > 1
  · simp only [if_pos hmany]
    exact .inr ⟨hmany, rfl⟩
  · simp only [if_neg hmany]
    exact .inl rfl

theorem qpWrs_extra (hle : call.nreqs ≤ call.lastWr) (s : MultiSendState) (qp : NcclIbQp)
    (dev : Nat) : qpWrs call s qp dev call.lastWr =
      if 1 < call.nreqs then sizesWr call (s.wrs call.lastWr) qp.devIndex
      else s.wrs call.lastWr := by
  unfold qpWrs
  rw [if_neg (Nat.not_lt_of_le hle)]
  by_cases hmany : 1 < call.nreqs
  · rw [if_pos ⟨rfl, hmany⟩, if_pos hmany]
  · rw [if_neg (fun h => hmany h.2), if_neg hmany]

theorem extraTarget_postOnQp (hle : call.nreqs ≤ call.lastWr) {s : MultiSendState}
    (h : ExtraTarget call s) (q : Nat × Nat) : ExtraTarget call (postOnQp call s q) := by
  have hwr : (postOnQp call s q).wrs call.lastWr = qpWrs call s (call.comm.base.qps q.1)
      (call.comm.base.qps q.2).devIndex call.lastWr := if_neg (Nat.not_lt_of_le hle)
  unfold ExtraTarget
  rw [hwr, qpWrs_extra hle]
  split
  · exact h
  · exact h

/-- The list of each QP ends with the work request behind the data writes. -/
theorem extra_loopPosts (hle : call.nreqs ≤ call.lastWr) (hslot : call.slot < NET_IB_MAX_REQUESTS)
    (hmax : call.nreqs ≤ NCCL_NET_IB_MAX_RECVS) (qps : List (Nat × Nat)) :
    ∀ s, ExtraTarget call s → ∀ post ∈ loopPosts call s qps, ∀ wr,
      post.wrs[call.lastWr]? = some wr → IntoRecords call.comm.recordsAddr wr := by
  induction qps with
  | nil =>
    intro s _ post hpost
    cases hpost
  | cons q rest ih =>
    intro s h post hpost wr hwr
    rcases List.mem_cons.mp hpost with rfl | hpost
    · rw [List.getElem?_map, List.getElem?_range (Nat.lt_succ_self _)] at hwr
      rw [← Option.some.inj hwr, qpWrs_extra hle]
      unfold IntoRecords bytesOf
      split
      · rename_i hmany
        rcases h with hnone | ⟨_, htarget⟩
        · exact .inl (if_pos hnone)
        · refine .inr ⟨call.slot, hslot, htarget, ?_⟩
          split
          · exact Nat.zero_le _
          · show call.nreqs * 4 ≤ sizeofCompletionRecord
            unfold NCCL_NET_IB_MAX_RECVS at hmax
            unfold sizeofCompletionRecord
            omega
      · rename_i hone
        rcases h with hnone | ⟨hmany, _⟩
        · exact .inl (if_pos hnone)
        · exact absurd hmany hone
    · exact ih _ (extraTarget_postOnQp hle h q) post hpost wr hwr

end

/-- Behind the data writes of a group, a post only writes to the completion records. -/
theorem extra_callPosts (env : NetEnv) (comm : NcclIbSendComm) {slot : Nat}
    (hslot : slot < NET_IB_MAX_REQUESTS)
    (hmax : (comm.ctsFifo slot 0).nreqs ≤ NCCL_NET_IB_MAX_RECVS) (qps : List (Nat × Nat)) :
    ∀ post ∈ callPosts env comm slot qps, ∀ j wr, post.wrs[j]? = some wr →
      (comm.ctsFifo slot 0).nreqs ≤ j → IntoRecords comm.recordsAddr wr := by
  intro post hpost j wr hwr hj
  have hlen : ∀ q : List (Nat × Nat), ∀ s, ∀ p ∈ loopPosts (multiSendCall env comm slot qps) s q,
      p.wrs.length = (multiSendCall env comm slot qps).lastWr + 1 := by
    intro q
    induction q with
    | nil =>
      intro s p hp
      cases hp
    | cons _ _ ih =>
      intro s p hp
      rcases List.mem_cons.mp hp with rfl | hp
      · rw [List.length_map, List.length_range]
      · exact ih _ p hp
  have hlt := (List.getElem?_eq_some_iff.mp hwr).1
  rw [hlen qps _ post hpost] at hlt
  have hlast : (multiSendCall env comm slot qps).lastWr ≤ (comm.ctsFifo slot 0).nreqs := by
    unfold multiSendCall
    simp only
    split <;> omega
  obtain rfl : j = (multiSendCall env comm slot qps).lastWr := by omega
  have hle : (multiSendCall env comm slot qps).nreqs ≤
      (multiSendCall env comm slot qps).lastWr := hj
  exact extra_loopPosts hle hslot hmax qps _ (extraTarget_init hle _) post hpost wr hwr

/-- Each post of a group has a completion on both sides. -/
theorem completions_of_chain {wr_id imm : Nat} {posts : List SendPost} {qps : List (Nat × Nat)}
    (h : List.Forall₂ (Chain wr_id imm) posts qps) (id : Nat) (bs br : NcclIbNetCommBase) :
    ∀ p ∈ posts, (∃ c ∈ sendCqes bs id posts, c.cause = .data id ∧ c.qp = p.qp) ∧
      ∃ c ∈ posts.flatMap (dataMsgs br id), c.cause = .data id ∧ c.qp = p.qp := by
  intro p hp
  have hchain : ∃ q, Chain wr_id imm p q := by
    obtain ⟨k, hk, rfl⟩ := List.mem_iff_getElem.mp hp
    exact ⟨_, h.get hk (by rw [← h.length_eq]; exact hk)⟩
  obtain ⟨q, hc⟩ := hchain
  obtain ⟨front, last, hwrs, _, hsignaled, _⟩ := hc.list
  have hlast : last ∈ p.wrs.filter (fun wr => wr.signaled) := by
    rw [List.mem_filter, hwrs]
    exact ⟨List.mem_append_right _ (List.mem_singleton_self _), hsignaled⟩
  obtain ⟨len, hmsg⟩ := dataMsgs_chain hc br id
  refine ⟨⟨_, List.mem_flatMap.mpr ⟨p, hp, List.mem_map_of_mem hlast⟩, rfl, rfl⟩,
    _, List.mem_flatMap.mpr ⟨p, hp, by rw [hmsg]; exact List.mem_singleton_self _⟩, rfl, ?_⟩
  exact hc.qp.symm

/-! ## What a step changes -/

/-- What every step leaves or only adds to. -/
structure World.Grows (w t : World) : Prop where
  sndReported : ∃ l, t.snd.reported = w.snd.reported ++ l
  rcvReported : ∃ l, t.rcv.reported = w.rcv.reported ++ l
  records : t.snd.comm.recordsAddr = w.snd.comm.recordsAddr

/-- A step that accepts no send and opens no group. -/
structure World.Quiet (w t : World) : Prop extends World.Grows w t where
  log : t.snd.log = w.snd.log
  sent : t.snd.sent = w.snd.sent
  groups : t.groups = w.groups

/-- A completion of `l` that is not in `l'` is the first one on its QP. -/
def OnlyFirst (l l' : List Cqe) (q : Nat) : Prop :=
  ∀ c ∈ l, c ∈ l' ∨ ∃ rest, popFirst (fun c => c.qp = q) l = some (c, rest)

theorem onlyFirst_pop {l rest : List Cqe} {q : Nat} {c : Cqe}
    (h : popFirst (fun c => c.qp = q) l = some (c, rest)) : OnlyFirst l rest q := by
  intro x hx
  obtain ⟨_, front, back, rfl, rfl, _⟩ := popFirst_split h
  rcases List.mem_append.mp hx with hx | hx
  · exact .inl (List.mem_append_left _ hx)
  · rcases List.mem_cons.mp hx with rfl | hx
    · exact .inr ⟨_, h⟩
    · exact .inl (List.mem_append_right _ hx)

/-- A step of the sender other than a call of `ncclIbIsend`. -/
theorem send_quiet {s t : SendState} {act : SendAct} (hact : ∀ env a, act ≠ .isend env a)
    (hnext : s.next (fun _ => []) act = some t) :
    (∃ l, t.reported = s.reported ++ l) ∧ t.comm.recordsAddr = s.comm.recordsAddr ∧
      t.log = s.log ∧ t.sent = s.sent ∧
      ∀ c ∈ s.sq, c ∈ t.sq ∨ ∃ q rest, act = .complete q ∧
        popFirst (fun c => c.qp = q) s.sq = some (c, rest) := by
  cases act with
  | isend env a => exact absurd rfl (hact env a)
  | cts k r => cases hnext
  | testBegin r =>
    simp only [SendState.next] at hnext
    split at hnext
    · rw [← Option.some.inj hnext]
      exact ⟨⟨[], (List.append_nil _).symm⟩, rfl, rfl, rfl, fun c hc => .inl hc⟩
    · cases hnext
  | test env n =>
    simp only [SendState.next] at hnext
    split at hnext
    · cases hnext
    rename_i call _
    have haddr := recordsAddr_afterTest hnext
    generalize ncclIbTest env s.comm s.cq call n = out at hnext
    unfold SendState.afterTest at hnext
    simp only at hnext
    split at hnext
    · rw [← Option.some.inj hnext] at haddr ⊢
      exact ⟨⟨[], (List.append_nil _).symm⟩, haddr, rfl, rfl, fun c hc => .inl hc⟩
    · rw [← Option.some.inj hnext] at haddr ⊢
      exact ⟨⟨[], (List.append_nil _).symm⟩, haddr, rfl, rfl, fun c hc => .inl hc⟩
    · cases hnext
    · rw [← Option.some.inj hnext] at haddr ⊢
      exact ⟨⟨[], (List.append_nil _).symm⟩, haddr, rfl, rfl, fun c hc => .inl hc⟩
    · rw [← Option.some.inj hnext] at haddr ⊢
      exact ⟨⟨_, rfl⟩, haddr, rfl, rfl, fun c hc => .inl hc⟩
  | complete q =>
    simp only [SendState.next] at hnext
    split at hnext
    · cases hnext
    rename_i c rest hpop
    rw [← Option.some.inj hnext]
    refine ⟨⟨[], (List.append_nil _).symm⟩, rfl, rfl, rfl, fun x hx => ?_⟩
    rcases onlyFirst_pop hpop x hx with hx | ⟨rest', hfirst⟩
    · exact .inl hx
    · exact .inr ⟨q, rest', rfl, hfirst⟩
  | speed buf =>
    rw [← Option.some.inj hnext]
    exact ⟨⟨[], (List.append_nil _).symm⟩, rfl, rfl, rfl, fun c hc => .inl hc⟩

/-- A step of the receiver other than a call of `ncclIbIrecv`. -/
theorem recv_quiet {s t : RecvState} {act : RecvAct} (hact : ∀ env bufs, act ≠ .irecv env bufs)
    (hnext : s.next act = some t) :
    (∃ l, t.reported = s.reported ++ l) ∧
      ∀ c ∈ s.data, c ∈ t.data ∨ ∃ q rest, act = .deliver q ∧
        popFirst (fun c => c.qp = q) s.data = some (c, rest) := by
  cases act with
  | irecv env bufs => exact absurd rfl (hact env bufs)
  | iflush bufs =>
    simp only [RecvState.next] at hnext
    split at hnext
    · cases hnext
    generalize ncclIbIflush s.comm bufs = out at hnext
    unfold RecvState.afterCall RecvState.posted at hnext
    simp only at hnext
    have hquiet : ∀ u, some u = some t → u.reported = s.reported → u.data = s.data →
        (∃ l, t.reported = s.reported ++ l) ∧ ∀ c ∈ s.data, c ∈ t.data := by
      intro u hu hrep hdata
      rw [← Option.some.inj hu, hrep, hdata]
      exact ⟨⟨[], (List.append_nil _).symm⟩, fun c hc => hc⟩
    have hends : (∃ l, t.reported = s.reported ++ l) ∧ ∀ c ∈ s.data, c ∈ t.data := by
      split at hnext
      · cases hnext
      · rename_i u hu
        split at hu
        · rw [← Option.some.inj hu] at hnext
          exact hquiet _ hnext rfl rfl
        · cases hu
        · rw [← Option.some.inj hu] at hnext
          exact hquiet _ hnext rfl rfl
        · rw [← Option.some.inj hu] at hnext
          exact hquiet _ hnext rfl rfl
    exact ⟨hends.1, fun c hc => .inl (hends.2 c hc)⟩
  | testBegin r =>
    simp only [RecvState.next] at hnext
    split at hnext
    · rw [← Option.some.inj hnext]
      exact ⟨⟨[], (List.append_nil _).symm⟩, fun c hc => .inl hc⟩
    · cases hnext
  | test env n =>
    simp only [RecvState.next] at hnext
    split at hnext
    · cases hnext
    rename_i call _
    generalize ncclIbTest env s.comm s.cq call n = out at hnext
    unfold RecvState.afterTest RecvState.posted at hnext
    simp only at hnext
    split at hnext
    · rw [← Option.some.inj hnext]
      exact ⟨⟨[], (List.append_nil _).symm⟩, fun c hc => .inl hc⟩
    · rw [← Option.some.inj hnext]
      exact ⟨⟨[], (List.append_nil _).symm⟩, fun c hc => .inl hc⟩
    · cases hnext
    · rw [← Option.some.inj hnext]
      exact ⟨⟨[], (List.append_nil _).symm⟩, fun c hc => .inl hc⟩
    · rw [← Option.some.inj hnext]
      exact ⟨⟨_, rfl⟩, fun c hc => .inl hc⟩
  | complete q flush =>
    simp only [RecvState.next] at hnext
    split at hnext
    · cases hnext
    · rw [← Option.some.inj hnext]
      exact ⟨⟨[], (List.append_nil _).symm⟩, fun c hc => .inl hc⟩
  | deliver q =>
    simp only [RecvState.next] at hnext
    split at hnext
    · rename_i c rest e rq hpop _
      rw [← Option.some.inj hnext]
      refine ⟨⟨[], (List.append_nil _).symm⟩, fun x hx => ?_⟩
      rcases onlyFirst_pop hpop x hx with hx | ⟨rest', hfirst⟩
      · exact .inl hx
      · exact .inr ⟨q, rest', rfl, hfirst⟩
    · cases hnext
  | record slot sizes =>
    rw [← Option.some.inj hnext]
    exact ⟨⟨[], (List.append_nil _).symm⟩, fun c hc => .inl hc⟩

section
variable {sh : Shape} {bs br : NcclIbNetCommBase} {pre : Bool} {w t : World}

/-- A completion that a step takes away is the first one of its QP. -/
structure World.TakesFirst (w t : World) (act : WorldAct) : Prop where
  sq : ∀ c ∈ w.snd.sq, c ∈ t.snd.sq ∨ ∃ q rest, act = .send (.complete q) ∧
    popFirst (fun c => c.qp = q) w.snd.sq = some (c, rest)
  data : ∀ c ∈ w.rcv.data, c ∈ t.rcv.data ∨ ∃ q rest, act = .recv (.deliver q) ∧
    popFirst (fun c => c.qp = q) w.rcv.data = some (c, rest)

/-- A step that is not a call of `ncclIbIsend` or `ncclIbIrecv`. -/
theorem world_quiet {act : WorldAct} (hs : ∀ env a, act ≠ .send (.isend env a))
    (hr : ∀ env bufs, act ≠ .recv (.irecv env bufs)) (hnext : w.next act = some t) :
    w.Quiet t ∧ w.TakesFirst t act := by
  have hstay : ∀ cts fifo, t = { w with
      cts, snd := { w.snd with comm := { w.snd.comm with ctsFifo := fifo } } } →
      w.Quiet t ∧ w.TakesFirst t act := by
    rintro cts fifo rfl
    exact ⟨⟨⟨⟨[], (List.append_nil _).symm⟩, ⟨[], (List.append_nil _).symm⟩, rfl⟩, rfl, rfl, rfl⟩,
      fun c hc => .inl hc, fun c hc => .inl hc⟩
  cases act with
  | send act =>
    have hact : ∀ env a, act ≠ .isend env a := fun env a he => hs env a (congrArg _ he)
    simp only [World.next] at hnext
    split at hnext
    · cases hnext
    rename_i snd hsnd
    have ht : t = { w with snd } := by
      cases act with
      | isend env a => exact absurd rfl (hact env a)
      | cts k r => cases hsnd
      | testBegin r => exact (Option.some.inj hnext).symm
      | test env n => exact (Option.some.inj hnext).symm
      | complete q => exact (Option.some.inj hnext).symm
      | speed buf => exact (Option.some.inj hnext).symm
    subst ht
    obtain ⟨hrep, haddr, hlog, hsent, hsq⟩ := send_quiet hact hsnd
    refine ⟨⟨⟨hrep, ⟨[], (List.append_nil _).symm⟩, haddr⟩, hlog, hsent, rfl⟩, fun c hc => ?_,
      fun c hc => .inl hc⟩
    rcases hsq c hc with hc | ⟨q, rest, he, hpop⟩
    · exact .inl hc
    · exact .inr ⟨q, rest, congrArg _ he, hpop⟩
  | recv act =>
    have hact : ∀ env bufs, act ≠ .irecv env bufs := fun env bufs he => hr env bufs (congrArg _ he)
    simp only [World.next] at hnext
    split at hnext
    · cases hnext
    rename_i rcv hrcv
    have ht : t = { w with rcv } := by
      cases act with
      | irecv env bufs => exact absurd rfl (hact env bufs)
      | iflush bufs => exact (Option.some.inj hnext).symm
      | testBegin r => exact (Option.some.inj hnext).symm
      | test env n => exact (Option.some.inj hnext).symm
      | complete q flush => exact (Option.some.inj hnext).symm
      | deliver q => exact (Option.some.inj hnext).symm
      | record slot sizes => exact (Option.some.inj hnext).symm
    subst ht
    obtain ⟨hrep, hdata⟩ := recv_quiet hact hrcv
    refine ⟨⟨⟨⟨[], (List.append_nil _).symm⟩, hrep, rfl⟩, rfl, rfl, rfl⟩, fun c hc => .inl hc,
      fun c hc => ?_⟩
    rcases hdata c hc with hc | ⟨q, rest, he, hpop⟩
    · exact .inl hc
    · exact .inr ⟨q, rest, congrArg _ he, hpop⟩
  | ctsRead n =>
    simp only [World.next] at hnext
    split at hnext
    · exact hstay _ w.snd.comm.ctsFifo (Option.some.inj hnext).symm
    · cases hnext
  | ctsWrite n =>
    simp only [World.next] at hnext
    split at hnext
    · exact hstay _ _ (Option.some.inj hnext).symm
    · cases hnext

/-- A call of `ncclIbIrecv` that opens a group. -/
structure World.OpensGroup (w t : World) (bufs : List RecvBuffer) : Prop where
  snd : t.snd = w.snd
  reported : t.rcv.reported = w.rcv.reported
  data : t.rcv.data = w.rcv.data
  fifoHead : w.groups.length = w.rcv.comm.base.fifoHead
  groups : ∃ group, t.groups = w.groups ++ [group] ∧
    ∀ (r : Nat) (e : NcclIbSendFifo), group[r]? = some e →
      ∃ b : RecvBuffer, bufs[r]? = some b ∧ e.addr = b.data ∧ e.size = b.size

theorem world_opens (h : WorldGood sh bs br pre w) {env : NetEnv} {bufs : List RecvBuffer}
    (hnext : w.next (.recv (.irecv env bufs)) = some t) : t = w ∨ w.OpensGroup t bufs := by
  simp only [World.next] at hnext
  split at hnext
  · cases hnext
  rename_i rcv hrcv
  have hnext := (Option.some.inj hnext).symm
  subst hnext
  rcases irecv_next h.recv hrcv with ⟨rfl, hret⟩ | ⟨_, i, cqes, recvs, ht, hret, hcomm, _⟩
  · left
    unfold World.afterIrecv
    split
    · rename_i j hj
      exact absurd hj (hret j)
    · rfl
  right
  have hafter : w.afterIrecv rcv bufs.length (ncclIbIrecv env w.rcv.comm bufs) =
      { w with
        rcv
        cts := w.cts ++ (ncclIbIrecv env w.rcv.comm bufs).posts.flatMap
          (ctsMsgs rcv.comm w.rcv.comm.base.fifoHead)
        groups := w.groups ++ [(List.range bufs.length).map
          (rcv.comm.remCtsFifo.elems (slotOf w.rcv.comm.base.fifoHead))] } := by
    unfold World.afterIrecv
    simp only [hret, hcomm]
  rw [hafter]
  refine ⟨rfl, ht.reported, ht.data, h.length, _, rfl, fun r e he => ?_⟩
  obtain ⟨k, hk, rfl⟩ := List.getElem?_map .. ▸ he |> Option.map_eq_some_iff.mp
  obtain ⟨hlt, hkr⟩ := List.getElem?_eq_some_iff.mp hk
  rw [List.length_range] at hlt
  rw [List.getElem_range] at hkr
  subst hkr
  refine ⟨bufs[r], List.getElem?_eq_getElem hlt, ?_⟩
  rw [ht.does.elems, Function.update_self]
  unfold fillElems
  rw [List.getElem?_eq_getElem hlt]
  exact ⟨rfl, rfl⟩

/-- A call of `ncclIbIsend` that accepts a send. It posts nothing, or its whole group. -/
structure World.AcceptsSend (w t : World) (a : IsendArgs) (posts : List SendPost) : Prop where
  log : ∃ r weights, t.snd.log = w.snd.log ++
    [⟨w.snd.comm.base.fifoHead, r, w.snd.nextSerial, a, w.snd.reported, weights⟩]
  serial : ∀ x ∈ w.snd.log, x.serial < w.snd.nextSerial
  sndReported : t.snd.reported = w.snd.reported
  rcvReported : t.rcv.reported = w.rcv.reported
  groups : t.groups = w.groups
  records : t.snd.comm.recordsAddr = w.snd.comm.recordsAddr
  sq : ∀ c ∈ w.snd.sq, c ∈ t.snd.sq
  data : ∀ c ∈ w.rcv.data, c ∈ t.rcv.data
  sent : posts = [] ∧ t.snd.sent = w.snd.sent ∨
    ∃ owners, t.snd.sent = w.snd.sent ++ [⟨w.snd.comm.base.fifoHead, owners, posts⟩]
  completions : ∀ p ∈ posts,
    (∃ c ∈ t.snd.sq, c.cause = .data w.snd.comm.base.fifoHead ∧ c.qp = p.qp) ∧
    ∃ c ∈ t.rcv.data, c.cause = .data w.snd.comm.base.fifoHead ∧ c.qp = p.qp
  extra : ∀ p ∈ posts, ∀ j wr, p.wrs[j]? = some wr →
    ∀ group, w.groups[w.snd.comm.base.fifoHead]? = some group → group.length ≤ j →
      IntoRecords w.snd.comm.recordsAddr wr

theorem world_accepts (h : WorldGood sh bs br pre w) {env : NetEnv} {a : IsendArgs}
    (hnext : w.next (.send (.isend env a)) = some t) (hwin : t.InWindow) :
    (t = w ∧ (ncclIbIsend env w.snd.comm a).posts = []) ∨
      w.AcceptsSend t a (ncclIbIsend env w.snd.comm a).posts := by
  simp only [World.next] at hnext
  split at hnext
  · cases hnext
  rename_i snd hsnd
  have hnext := (Option.some.inj hnext).symm
  subst hnext
  obtain ⟨hg, hs⟩ := h.soFar
  rcases isend_does hg hs.good hs.history hsnd hwin.send with ⟨rfl, hposts⟩ | ⟨r, i, hd⟩
  · refine .inl ⟨?_, hposts⟩
    unfold World.afterIsend
    rw [if_pos hposts]
  right
  have hserial := hs.history.serial_lt
  rcases hd.posted with ⟨hposts, hfifo⟩ | ⟨hposts, hne, hfifo, hfull⟩
  · have hsnd : snd = w.snd.bound a r i (boundReq sh w.snd.comm a r i) := by
      cases hd.accepts with
      | waits => rfl
      | posts =>
        exact absurd hfifo (Nat.succ_ne_self _)
    rw [hposts]
    refine ⟨⟨r, _, by rw [hsnd]; rfl⟩, hserial, by rw [hsnd]; rfl, ?_, rfl, by rw [hsnd]; rfl,
      fun c hc => ?_, fun c hc => ?_, .inl ⟨rfl, by rw [hsnd]; rfl⟩,
      fun p hp => absurd hp List.not_mem_nil, fun p hp => absurd hp List.not_mem_nil⟩
    · unfold World.afterIsend
      rw [if_pos hposts]
    · rw [hsnd]
      exact hc
    · unfold World.afterIsend
      rw [if_pos hposts]
      exact hc
  · generalize hout : ncclIbIsend env w.snd.comm a = out at hposts hne ⊢
    have hchain : ∃ wr_id imm, List.Forall₂ (Chain wr_id imm) out.posts
        (qpsOf sh (w.snd.bound a r i (boundReq sh w.snd.comm a r i)).comm.base
          w.snd.comm.base.fifoHead) := by
      rw [hposts]
      exact ⟨_, _, chain_loopPosts _ _ (marked_init _ _)⟩
    obtain ⟨_, _, hchain⟩ := hchain
    obtain ⟨reqs, hsnd⟩ : ∃ reqs, snd = (w.snd.bound a r i (boundReq sh w.snd.comm a r i)).posted sh
        env (groupsSoFar w.groups w.snd.comm.base.fifoHead).length reqs := by
      cases hd.accepts with
      | waits => exact absurd hfifo.symm (Nat.succ_ne_self _)
      | posts => exact ⟨_, rfl⟩
    have hrcv : w.afterIsend out = w.rcv.arrives
        (out.posts.flatMap (dataMsgs w.rcv.comm.base w.snd.comm.base.fifoHead)) := if_neg hne
    have hcompletions := completions_of_chain hchain w.snd.comm.base.fifoHead
      w.snd.comm.base w.rcv.comm.base
    rw [hrcv]
    refine ⟨⟨r, _, by rw [hsnd]; rfl⟩, hserial, by rw [hsnd]; rfl, rfl, rfl, by rw [hsnd]; rfl,
      fun c hc => ?_, fun c hc => List.mem_append_left _ hc,
      .inr ⟨_, by rw [hsnd, hposts]; rfl⟩, fun p hp => ?_, fun p hp j wr hwr group hgroup hj => ?_⟩
    · rw [hsnd]
      exact List.mem_append_left _ hc
    · obtain ⟨⟨c, hc, hcause⟩, c', hc', hcause'⟩ := hcompletions p hp
      refine ⟨⟨c, ?_, hcause⟩, c', List.mem_append_right _ hc', hcause'⟩
      rw [hsnd]
      rw [hposts] at hc
      exact List.mem_append_right _ hc
    · have hn := hs.good.cts_nreqs hg hd.there
      rw [extends_groupsSoFar w.groups _ _ hgroup] at hn
      have hlen := (h.groups _ _ hgroup).1
      rw [hposts] at hp
      exact extra_callPosts env (w.snd.bound a r i (boundReq sh w.snd.comm a r i)).comm
        (slotOf_lt _)
        (show (w.snd.comm.ctsFifo (slotOf w.snd.comm.base.fifoHead) 0).nreqs ≤ _ by omega) _ p hp j wr
        hwr (show (w.snd.comm.ctsFifo (slotOf w.snd.comm.base.fifoHead) 0).nreqs ≤ j by omega)

end

end net_ib.p2p
