-- The steps of a receive comm keep its invariant: data arrives, a completion is
-- charged to its request, a request is reported done, and new calls are made.
import MrcPlugin.RecvGood
import MrcPlugin.IsendSteps

namespace net_ib.p2p

open queues counts

/-! ## What processing a completion changes -/

/-- The part of a receive comm that no completion changes. -/
structure RecvFrame (comm comm' : NcclIbRecvComm) : Prop where
  same : SameBase comm.base comm'.base
  fifoHead : comm'.base.fifoHead = comm.base.fifoHead
  recvReqs : comm'.recvReqs = comm.recvReqs
  prepost : comm'.prepostReceiveWorkRequests = comm.prepostReceiveWorkRequests
  recvWrId : comm'.recvWrId = comm.recvWrId
  remCtsFifo : comm'.remCtsFifo = comm.remCtsFifo
  reqs : ∀ j, (comm'.base.reqs j).type = (comm.base.reqs j).type ∧
    (comm'.base.reqs j).id = (comm.base.reqs j).id

theorem RecvFrame.refl (comm : NcclIbRecvComm) : RecvFrame comm comm :=
  ⟨SameBase.refl _, rfl, rfl, rfl, rfl, rfl, fun _ => ⟨rfl, rfl⟩⟩

theorem RecvFrame.trans {c1 c2 c3 : NcclIbRecvComm} (h : RecvFrame c1 c2) (h' : RecvFrame c2 c3) :
    RecvFrame c1 c3 := by
  refine ⟨h.same.trans h'.same, h'.fifoHead.trans h.fifoHead, h'.recvReqs.trans h.recvReqs,
    h'.prepost.trans h.prepost, h'.recvWrId.trans h.recvWrId, h'.remCtsFifo.trans h.remCtsFifo,
    fun j => ?_⟩
  obtain ⟨h1, h2⟩ := h.reqs j
  obtain ⟨h3, h4⟩ := h'.reqs j
  exact ⟨h3.trans h1, h4.trans h2⟩

/-- A change of one request that keeps its type and its id. -/
theorem recvFrame_update (comm : NcclIbRecvComm) {i : Nat} {req : NcclIbRequest}
    (htype : req.type = (comm.base.reqs i).type) (hid : req.id = (comm.base.reqs i).id) :
    RecvFrame comm (comm.withReqs (Function.update comm.base.reqs i req)) := by
  refine ⟨⟨rfl, rfl, rfl, rfl, rfl, rfl, rfl, rfl, rfl, rfl⟩, rfl, rfl, rfl, rfl, rfl, fun j => ?_⟩
  unfold NcclIbRecvComm.withReqs
  by_cases hj : j = i
  · subst hj
    simp only [Function.update_self]
    exact ⟨htype, hid⟩
  · simp [hj]

theorem recordSize_same (comm : NcclIbRecvComm) (i : Nat) (wc : IbvWc) :
    RecvFrame comm (recordSize comm i wc) ∧
      ∀ j, ((recordSize comm i wc).base.reqs j).events = (comm.base.reqs j).events := by
  unfold recordSize
  simp only
  split
  · exact ⟨RecvFrame.refl _, fun _ => rfl⟩
  split
  · exact ⟨⟨⟨rfl, rfl, rfl, rfl, rfl, rfl, rfl, rfl, rfl, rfl⟩, rfl, rfl, rfl, rfl, rfl,
      fun _ => ⟨rfl, rfl⟩⟩, fun _ => rfl⟩
  split
  · refine ⟨recvFrame_update comm rfl rfl, fun j => ?_⟩
    unfold NcclIbRecvComm.withReqs
    by_cases hj : j = i
    · subst hj
      simp
    · simp [hj]
  · exact ⟨RecvFrame.refl _, fun _ => rfl⟩

/-- One event less for one request. -/
theorem chargeRecv_same (comm : NcclIbRecvComm) (i dev : Nat) :
    RecvFrame comm (chargeRecv comm i dev) ∧ ∀ j d,
      ((chargeRecv comm i dev).base.reqs j).events d =
        (comm.base.reqs j).events d - if j = i ∧ d = dev then 1 else 0 := by
  refine ⟨recvFrame_update comm rfl rfl, fun j d => ?_⟩
  unfold chargeRecv NcclIbRecvComm.withReqs
  by_cases hj : j = i
  · subst hj
    by_cases hd : d = dev
    · subst hd
      simp [takeEvent]
    · simp [takeEvent, hd]
  · simp [hj]

/-- Another receive is posted for a preposted one, or the lookup of its QP fails. -/
theorem repost_cases (comm : NcclIbRecvComm) (i dev : Nat) (wc : IbvWc) :
    (∃ e, repost comm i wc dev = ⟨comm, [], .error e⟩) ∨
      ∃ comm' posts, repost comm i wc dev = ⟨comm', posts, .ok ()⟩ ∧ RecvFrame comm comm' ∧
        comm'.base.reqs = comm.base.reqs ∧
        (comm.prepostReceiveWorkRequests = false → posts = []) ∧
        ∀ p ∈ posts, ∃ q, p = .recv q comm.recvWrId := by
  unfold repost
  by_cases hpre : comm.prepostReceiveWorkRequests = true
  · simp only [hpre, Bool.not_true, Bool.false_eq_true, if_false]
    cases ncclIbCommBaseGetQpByQpNum comm.base dev wc.qp_num with
    | error e => exact .inl ⟨e, rfl⟩
    | ok q =>
      refine .inr ⟨_, _, rfl, ⟨⟨rfl, rfl, rfl, rfl, rfl, rfl, rfl, rfl, rfl, rfl⟩, rfl, rfl,
        hpre.symm, rfl, rfl, fun _ => ⟨rfl, rfl⟩⟩, rfl, fun hc => (by cases hc), fun p hp => ?_⟩
      exact ⟨q, List.mem_singleton.mp hp⟩
  · simp only [hpre, Bool.not_false, if_true]
    exact .inr ⟨_, _, rfl, RecvFrame.refl _, rfl, fun _ => rfl, fun p hp => by cases hp⟩

/-- A speed update is one write on QP 0, with its own id. -/
theorem speedUpdate_same (env : NetEnv) (comm : NcclIbRecvComm) :
    RecvFrame comm (ncclIbPostSpeedUpdateToRemote env comm).1 ∧
      (ncclIbPostSpeedUpdateToRemote env comm).1.base.reqs = comm.base.reqs ∧
      ∀ p ∈ (ncclIbPostSpeedUpdateToRemote env comm).2, ∃ wr : IbvSendWr, p = .send ⟨0, [wr]⟩ ∧
        wr.wr_id = NCCL_IB_SPEED_UPDATE_WR_ID := by
  unfold ncclIbPostSpeedUpdateToRemote
  split
  · exact ⟨RecvFrame.refl _, rfl, fun p hp => by cases hp⟩
  simp only
  split
  · exact ⟨⟨⟨rfl, rfl, rfl, rfl, rfl, rfl, rfl, rfl, rfl, rfl⟩, rfl, rfl, rfl, rfl, rfl,
      fun _ => ⟨rfl, rfl⟩⟩, rfl, fun p hp => by cases hp⟩
  · refine ⟨⟨⟨rfl, rfl, rfl, rfl, rfl, rfl, rfl, rfl, rfl, rfl⟩, rfl, rfl, rfl, rfl, rfl,
      fun _ => ⟨rfl, rfl⟩⟩, rfl, fun p hp => ?_⟩
    rw [List.mem_singleton.mp hp]
    exact ⟨_, rfl, rfl⟩

/-! ## A completion finds its request -/

/-- Request `j` waits for the completions of `k`. -/
def RecvState.Waits (s : RecvState) (k : Cause) (j : Nat) : Prop :=
  j < NET_IB_MAX_REQUESTS ∧ (s.comm.base.reqs j).type ≠ NCCL_NET_IB_REQ_UNUSED ∧ s.reqFor j = k

instance (s : RecvState) (k : Cause) (j : Nat) : Decidable (s.Waits k j) :=
  inferInstanceAs (Decidable (_ ∧ _))

/-- How a completion `c` is processed: it is charged to the requests that wait
for it and to no other. -/
structure Processes (s : RecvState) (c : Cqe) (out : EventOut NcclIbRecvComm) : Prop where
  ret : out.ret = .ok ()
  frame : RecvFrame s.comm out.comm
  events : ∀ j d, (out.comm.base.reqs j).events d =
    (s.comm.base.reqs j).events d - if s.Waits c.cause j ∧ d = c.dev then 1 else 0
  sq : ∀ x ∈ out.posts.flatMap (postCqes s.comm.base .speed), x.cause = .speed ∧
    x.wc.wr_id = NCCL_IB_SPEED_UPDATE_WR_ID ∧ x.wc.success = true
  rq : ∀ e ∈ out.posts.flatMap (postRecvs none), e.wr_id = s.comm.recvWrId ∧ e.id = none
  rq_none : s.comm.prepostReceiveWorkRequests = false → out.posts.flatMap (postRecvs none) = []

/-- How the processing of a completion fails: nothing is charged. -/
structure Fails (s : RecvState) (out : EventOut NcclIbRecvComm) : Prop where
  ret : ∃ e, out.ret = .error e
  frame : RecvFrame s.comm out.comm
  events : ∀ j, (out.comm.base.reqs j).events = (s.comm.base.reqs j).events
  posts : out.posts = []

section
variable {sh : Shape} {b0 : NcclIbNetCommBase} {pre : Bool} {s t : RecvState}

/-- The one request that waits for a completion gets one event less. -/
theorem RecvGood.charge_events (h : RecvGood sh b0 pre s) {c : Cqe} {i : Nat}
    (hi : i < NET_IB_MAX_REQUESTS) (hlive : (s.comm.base.reqs i).type ≠ NCCL_NET_IB_REQ_UNUSED)
    (hfor : s.reqFor i = c.cause) {comm' : NcclIbRecvComm}
    (hev : ∀ j d, (comm'.base.reqs j).events d =
      (s.comm.base.reqs j).events d - if j = i ∧ d = c.dev then 1 else 0) :
    ∀ j d, (comm'.base.reqs j).events d =
      (s.comm.base.reqs j).events d - if s.Waits c.cause j ∧ d = c.dev then 1 else 0 := by
  intro j d
  rw [hev j d]
  have hiff : j = i ↔ s.Waits c.cause j := by
    constructor
    · rintro rfl
      exact ⟨hi, hlive, hfor⟩
    · rintro ⟨hj, hjlive, hjfor⟩
      exact h.one_req j hj i hi hjlive hlive (hjfor.trans hfor.symm)
  simp only [hiff]

/-- No request waits for a completion that is not counted. -/
theorem RecvGood.not_waits (h : RecvGood sh b0 pre s) {k : Cause} (hk : k.counted = false)
    (j : Nat) : ¬ s.Waits k j := by
  rintro ⟨hj, hlive, hfor⟩
  have hissued := (h.live j hj hlive).1
  rw [hfor] at hissued
  cases k with
  | data id => cases hk
  | flush n => cases hk
  | cts id => exact hissued
  | speed => exact hissued

/-- Data finds the request of its group. A preposted receive has no slot in its
number, so it only finds the request by the id. -/
theorem RecvGood.retrieve_data (h : RecvGood sh b0 pre s) {c : Cqe} (hc : c ∈ s.pend)
    {id : Nat} (hcause : c.cause = .data id) (hok : DataOk sh b0 id c)
    (hwr : c.wc.wr_id = slotOf id ∨ pre = true ∧ c.wc.wr_id = NCCL_IB_RECV_WR_ID_DUMMY) :
    c.wc.wr_id ≠ NCCL_IB_SPEED_UPDATE_WR_ID ∧ ∃ i < NET_IB_MAX_REQUESTS,
      (s.comm.base.reqs i).type = NCCL_NET_IB_REQ_RECV ∧ s.reqFor i = c.cause ∧
      (recvRetrieve s.comm c.wc = .ok (some i) ∨
        recvRetrieve s.comm c.wc = .error .badPointer ∧ pre = true ∧
          b0.recvMatchingScheme ≠ BY_ID) := by
  obtain ⟨i, hi, htype, hfor⟩ := h.waiting hc (by rw [hcause]; rfl)
  rw [hcause] at htype
  have htype : (s.comm.base.reqs i).type = NCCL_NET_IB_REQ_RECV := htype
  have hlive : (s.comm.base.reqs i).type ≠ NCCL_NET_IB_REQ_UNUSED := by
    rw [htype]
    simp
  have hslot := ((h.live i hi hlive).2.2.2 id (hfor.trans hcause)).1
  have hlt : slotOf id < 256 := slotOf_lt id
  refine ⟨?_, i, hi, htype, hfor, ?_⟩
  · unfold NCCL_IB_SPEED_UPDATE_WR_ID
    rcases hwr with hwr | ⟨_, hwr⟩
    · omega
    · rw [hwr]
      decide
  unfold recvRetrieve
  rw [hok.success, hok.opcode, h.same.recvMatchingScheme]
  by_cases hscheme : b0.recvMatchingScheme = BY_ID
  · left
    simp only [hscheme, and_self, if_true, hok.imm hscheme, hslot]
    rfl
  · simp only [hscheme, and_false, if_false]
    rcases hwr with hwr | ⟨hpre, hwr⟩
    · left
      have hlt' : ¬ slotOf id ≥ NET_IB_MAX_REQUESTS := Nat.not_le_of_lt hlt
      simp only [hwr, hslot, if_neg hlt']
      rfl
    · refine .inr ⟨?_, hpre, hscheme⟩
      rw [hwr]
      rfl

/-- Data is charged to the request of its group. With preposted receives, the
lookup of the QP can fail. -/
theorem recvEvent_data (h : RecvGood sh b0 pre s) (env : NetEnv) {c : Cqe} (hc : c ∈ s.pend)
    {id : Nat} (hcause : c.cause = .data id) (hok : DataOk sh b0 id c)
    (hwr : c.wc.wr_id = slotOf id ∨ pre = true ∧ c.wc.wr_id = NCCL_IB_RECV_WR_ID_DUMMY) :
    Processes s c (recvEventProcess env s.comm c.wc c.dev) ∨
      Fails s (recvEventProcess env s.comm c.wc c.dev) := by
  obtain ⟨hspeed, i, hi, htype, hfor, hretrieve⟩ := h.retrieve_data hc hcause hok hwr
  have hlive : (s.comm.base.reqs i).type ≠ NCCL_NET_IB_REQ_UNUSED := by
    rw [htype]
    simp
  rcases hretrieve with hretrieve | ⟨hretrieve, _⟩
  swap
  · right
    have hprocess : recvEventProcess env s.comm c.wc c.dev = ⟨s.comm, [], .error .badPointer⟩ := by
      unfold recvEventProcess
      rw [if_neg hspeed, hretrieve]
    rw [hprocess]
    exact ⟨⟨_, rfl⟩, RecvFrame.refl _, fun _ => rfl, rfl⟩
  have hprocess : recvEventProcess env s.comm c.wc c.dev = recvData s.comm i c.wc c.dev := by
    unfold recvEventProcess
    rw [if_neg hspeed, hretrieve, hok.opcode]
  obtain ⟨hframe, hevents⟩ := recordSize_same s.comm i c.wc
  rw [hprocess]
  unfold recvData
  simp only
  rw [if_neg (by rw [htype]; simp), if_neg (by rw [htype]; simp)]
  rcases repost_cases (recordSize s.comm i c.wc) i c.dev c.wc with
    ⟨e, hrepost⟩ | ⟨comm', posts, hrepost, hframe', hreqs', hnone, hposts⟩
  · right
    rw [hrepost]
    exact ⟨⟨e, rfl⟩, hframe, hevents, rfl⟩
  left
  rw [hrepost]
  obtain ⟨hframe'', hcharge⟩ := chargeRecv_same comm' i c.dev
  refine ⟨rfl, hframe.trans (hframe'.trans hframe''), ?_, ?_, ?_, ?_⟩
  · refine h.charge_events hi hlive hfor (fun j d => ?_)
    rw [hcharge, hreqs', hevents]
  · intro x hx
    obtain ⟨p, hp, hxp⟩ := List.mem_flatMap.mp hx
    obtain ⟨q, rfl⟩ := hposts p hp
    cases hxp
  · intro e he
    obtain ⟨p, hp, hep⟩ := List.mem_flatMap.mp he
    obtain ⟨q, rfl⟩ := hposts p hp
    rw [List.mem_singleton.mp hep]
    exact ⟨hframe.recvWrId, rfl⟩
  · intro hpre
    rw [hnone (hframe.prepost.trans hpre)]
    rfl

/-- A CTS message that has arrived changes no counter. -/
theorem recvEvent_cts (h : RecvGood sh b0 pre s) (env : NetEnv) {c : Cqe} {id : Nat}
    (hcause : c.cause = .cts id) (hok : CqeOk sh b0 pre s c) :
    Processes s c (recvEventProcess env s.comm c.wc c.dev) := by
  unfold CqeOk at hok
  rw [hcause] at hok
  obtain ⟨hsuccess, hop, hwr, hid⟩ := hok
  obtain ⟨i, hslot⟩ := h.slots id hid
  have hlt : slotOf id < NET_IB_MAX_REQUESTS := Nat.mod_lt _ (by decide)
  have hretrieve : recvRetrieve s.comm c.wc = .ok (some i) := by
    unfold recvRetrieve
    rw [hsuccess, hop, hwr, hslot]
    simp [Nat.not_le_of_lt hlt]
  have hsame : ∀ reqs : Nat → NcclIbRequest, reqs = s.comm.base.reqs →
      ∀ j d, (reqs j).events d =
        (s.comm.base.reqs j).events d - if s.Waits c.cause j ∧ d = c.dev then 1 else 0 := by
    rintro reqs rfl j d
    have hnone : ¬ s.Waits c.cause j := by
      rw [hcause]
      exact h.not_waits rfl j
    simp [hnone]
  have hne : c.wc.wr_id ≠ NCCL_IB_SPEED_UPDATE_WR_ID := by
    rw [hwr]
    unfold NCCL_IB_SPEED_UPDATE_WR_ID NET_IB_MAX_REQUESTS at *
    omega
  unfold recvEventProcess
  rw [if_neg hne, hretrieve, hop]
  simp only
  split
  · obtain ⟨hframe, hreqs, hposts⟩ := speedUpdate_same env s.comm
    refine ⟨rfl, hframe, hsame _ hreqs, ?_, ?_, ?_⟩
    · intro x hx
      obtain ⟨p, hp, hxp⟩ := List.mem_flatMap.mp hx
      obtain ⟨wr, rfl, hwrid⟩ := hposts p hp
      obtain ⟨wr', hwr', rfl⟩ := List.mem_map.mp hxp
      rw [List.mem_singleton.mp (List.mem_of_mem_filter hwr')]
      exact ⟨rfl, hwrid, rfl⟩
    · intro e he
      obtain ⟨p, hp, hep⟩ := List.mem_flatMap.mp he
      obtain ⟨wr, rfl, _⟩ := hposts p hp
      cases hep
    · intro _
      apply List.flatMap_eq_nil_iff.mpr
      intro p hp
      obtain ⟨wr, rfl, _⟩ := hposts p hp
      rfl
  · exact ⟨rfl, RecvFrame.refl _, hsame _ rfl, fun x hx => (by cases hx), fun e he => (by cases he),
      fun _ => rfl⟩

/-- A read of a flush is charged to the flush request of its number. -/
theorem recvEvent_flush (h : RecvGood sh b0 pre s) (env : NetEnv) {c : Cqe} {n : Nat}
    (hcause : c.cause = .flush n) (hok : CqeOk sh b0 pre s c) :
    Processes s c (recvEventProcess env s.comm c.wc c.dev) := by
  unfold CqeOk at hok
  rw [hcause] at hok
  obtain ⟨hsuccess, hop, i, hi, hwr, htype, hfor⟩ := hok
  have hlive : (s.comm.base.reqs i).type ≠ NCCL_NET_IB_REQ_UNUSED := by
    rw [htype]
    simp
  have hi' : i < 256 := hi
  have hindex : (c.wc.wr_id + (2 ^ 64 - NCCL_IB_FLUSH_REQ_WR_ID_OFFSET)) % 2 ^ 64 % 2 ^ 32 = i := by
    rw [hwr, NCCL_IB_FLUSH_REQ_WR_ID_OFFSET]
    omega
  have hne : c.wc.wr_id ≠ NCCL_IB_SPEED_UPDATE_WR_ID := by
    rw [hwr, NCCL_IB_FLUSH_REQ_WR_ID_OFFSET, NCCL_IB_SPEED_UPDATE_WR_ID]
    omega
  have hretrieve : recvRetrieve s.comm c.wc = .ok (some i) := by
    unfold recvRetrieve
    rw [hsuccess, hop, hindex]
    simp [ncclIbRequestRetrieveAsIndex, Nat.not_le_of_lt hi]
  unfold recvEventProcess
  rw [if_neg hne, hretrieve, hop]
  obtain ⟨hframe, hcharge⟩ := chargeRecv_same s.comm i c.dev
  exact ⟨rfl, hframe, h.charge_events hi hlive (hfor.trans hcause.symm) hcharge,
    fun x hx => (by cases hx), fun e he => (by cases he), fun _ => rfl⟩

/-- The write of a speed update changes no counter. -/
theorem recvEvent_speed (h : RecvGood sh b0 pre s) (env : NetEnv) {c : Cqe}
    (hcause : c.cause = .speed) (hok : CqeOk sh b0 pre s c) :
    Processes s c (recvEventProcess env s.comm c.wc c.dev) := by
  unfold CqeOk at hok
  rw [hcause] at hok
  unfold recvEventProcess
  rw [if_pos hok.1]
  refine ⟨rfl, ⟨⟨rfl, rfl, rfl, rfl, rfl, rfl, rfl, rfl, rfl, rfl⟩, rfl, rfl, rfl, rfl, rfl,
    fun _ => ⟨rfl, rfl⟩⟩, ?_, fun x hx => (by cases hx), fun e he => (by cases he), fun _ => rfl⟩
  intro j d
  have hnone : ¬ s.Waits c.cause j := by
    rw [hcause]
    exact h.not_waits rfl j
  simp [hnone]

theorem CqeOk.success {c : Cqe} (h : CqeOk sh b0 pre s c) : c.wc.success = true := by
  unfold CqeOk at h
  cases hc : c.cause with
  | data id =>
    rw [hc] at h
    exact h.1.success
  | cts id =>
    rw [hc] at h
    exact h.1
  | flush n =>
    rw [hc] at h
    exact h.1
  | speed =>
    rw [hc] at h
    exact h.2

/-- Every completion is charged to the requests that wait for it, or it is lost
with the test. -/
theorem recvEvent_cases (h : RecvGood sh b0 pre s) (env : NetEnv) {c : Cqe}
    (hc : c ∈ s.sq ++ s.cq ++ inHand s.call) :
    Processes s c (recvEventProcess env s.comm c.wc c.dev) ∨
      Fails s (recvEventProcess env s.comm c.wc c.dev) := by
  have hok := h.cqes c hc
  cases hcause : c.cause with
  | data id =>
    have hok' := hok
    unfold CqeOk at hok'
    rw [hcause] at hok'
    exact recvEvent_data h env (RecvState.mem_pend hc) hcause hok'.1 hok'.2
  | cts id => exact .inl (recvEvent_cts h env hcause hok)
  | flush n => exact .inl (recvEvent_flush h env hcause hok)
  | speed => exact .inl (recvEvent_speed h env hcause hok)

/-! ## A completion is charged -/

/-- The first completion in hand is processed: what changes. -/
structure Charges (s t : RecvState) (c : Cqe) (cqes : List Cqe) (recvs : List RecvWr) : Prop where
  frame : RecvFrame s.comm t.comm
  events : ∀ j d, (t.comm.base.reqs j).events d =
    (s.comm.base.reqs j).events d - if s.Waits c.cause j ∧ d = c.dev then 1 else 0
  sq : t.sq = s.sq ++ cqes
  rq : t.rq = s.rq ++ recvs
  data : t.data = s.data
  cq : t.cq = s.cq
  reqFor : t.reqFor = s.reqFor
  peerHead : t.peerHead = s.peerHead
  flushes : t.flushes = s.flushes
  reported : t.reported = s.reported
  processed : t.processed = s.processed ++ [c]
  lost : t.lost = s.lost
  hand : inHand s.call = c :: inHand t.call
  call : ∃ r i k w wcs, s.call = some ⟨r, .completions i k w (c :: wcs)⟩ ∧
    t.call = some ⟨r, .completions i k w wcs⟩
  newSq : ∀ x ∈ cqes, x.cause = .speed ∧ x.wc.wr_id = NCCL_IB_SPEED_UPDATE_WR_ID ∧
    x.wc.success = true
  newRq : ∀ e ∈ recvs, e.wr_id = s.comm.recvWrId ∧ e.id = none
  noRq : s.comm.prepostReceiveWorkRequests = false → recvs = []

section
variable {c : Cqe} {cqes : List Cqe} {recvs : List RecvWr}

/-- A completion that is processed is no longer somewhere. -/
theorem Charges.count (ht : Charges s t c cqes recvs) {k : Cause} (hk : k.counted = true) (d : Nat) :
    t.pend.countP (causedBy k d) + t.processed.countP (causedBy k d) =
        s.pend.countP (causedBy k d) + s.processed.countP (causedBy k d) ∧
      t.pend.countP (causedBy k d) ≤ s.pend.countP (causedBy k d) := by
  have hzero : cqes.countP (causedBy k d) = 0 := by
    apply List.countP_eq_zero.mpr
    intro x hx hby
    have := (causedBy_iff.mp hby).1
    rw [(ht.newSq x hx).1] at this
    rw [← this] at hk
    cases hk
  unfold RecvState.pend
  rw [ht.data, ht.sq, ht.cq, ht.processed, ht.hand]
  simp only [List.countP_append, List.countP_cons, List.countP_nil, hzero]
  omega

theorem good_recvCharge (h : RecvGood sh b0 pre s) (ht : Charges s t c cqes recvs) :
    RecvGood sh b0 pre t := by
  have hframe := ht.frame
  have htype : ∀ j, (t.comm.base.reqs j).type = (s.comm.base.reqs j).type := fun j =>
    (hframe.reqs j).1
  have hissued := issued_congr hframe.fifoHead ht.flushes
  have hstarted : t.started = s.started := by
    funext k
    unfold RecvState.started
    rw [ht.peerHead, ht.flushes]
  refine
    { plain := h.plain
      same := h.same.trans hframe.same
      prepost := hframe.prepost.trans h.prepost
      recvWrId := fun hpre => hframe.recvWrId.trans (h.recvWrId hpre)
      peer := ?_, live := ?_, known := ?_, one_req := ?_, slots := ?_, events := ?_
      conserved := ?_, reported := ?_, reported_nodup := ?_, data := ?_
      cqes := ?_, rq := ?_, aligned := ?_, call_live := ?_, hand := ?_ }
  · rw [ht.peerHead, hframe.fifoHead]
    exact h.peer
  · intro j hj hj'
    rw [htype] at hj'
    obtain ⟨h1, h2, h3, h4⟩ := h.live j hj hj'
    rw [hissued, ht.reqFor, ht.reported, htype, hframe.recvReqs, (hframe.reqs j).2]
    exact ⟨h1, h2, h3, h4⟩
  · intro k hk hrep
    rw [hissued] at hk
    rw [ht.reported] at hrep
    obtain ⟨j, hj, hjtype, hfor⟩ := h.known k hk hrep
    exact ⟨j, hj, (htype j).trans hjtype, (congrFun ht.reqFor j).trans hfor⟩
  · intro j hj j' hj' hl hl'
    rw [htype] at hl hl'
    rw [ht.reqFor]
    exact h.one_req j hj j' hj' hl hl'
  · rw [hframe.fifoHead, hframe.recvReqs]
    exact h.slots
  · intro j hj hl d
    rw [htype] at hl
    rw [ht.events j d, h.events j hj hl d, ht.reqFor, ht.processed, List.countP_append,
      List.countP_singleton]
    by_cases hby : s.Waits c.cause j ∧ d = c.dev
    · have : causedBy (s.reqFor j) d c = true :=
        causedBy_iff.mpr ⟨hby.1.2.2.symm, hby.2.symm⟩
      rw [if_pos hby, if_pos this]
      omega
    · have : ¬ causedBy (s.reqFor j) d c = true := fun hc =>
        hby ⟨⟨hj, hl, (causedBy_iff.mp hc).1.symm⟩, (causedBy_iff.mp hc).2.symm⟩
      rw [if_neg hby, if_neg this]
      omega
  · intro k hk d
    rw [hstarted, (ht.count hk d).1, ht.lost]
    exact h.conserved k hk d
  · intro k hk
    rw [ht.reported] at hk
    obtain ⟨h1, h2, h3⟩ := h.reported k hk
    refine ⟨h1, hstarted ▸ h2, fun d => ?_⟩
    have := (ht.count h1 d).2
    rw [h3 d] at this
    omega
  · rw [ht.reported]
    exact h.reported_nodup
  · rw [ht.data]
    exact h.data
  · intro x hx
    have hkeep : ∀ y, CqeOk sh b0 pre s y → CqeOk sh b0 pre t y := fun y hy =>
      hy.keep (Nat.le_of_eq hframe.fifoHead.symm) (fun n _ j _ hj hfor =>
        ⟨(htype j).trans hj, (congrFun ht.reqFor j).trans hfor⟩)
    rw [ht.sq, ht.cq] at hx
    by_cases hnew : x ∈ cqes
    · obtain ⟨h1, h2, h3⟩ := ht.newSq x hnew
      unfold CqeOk
      rw [h1]
      exact ⟨h2, h3⟩
    · refine hkeep x (h.cqes x ?_)
      rw [ht.hand]
      simp only [List.mem_append, List.mem_cons, hnew, or_false] at hx ⊢
      rcases hx with (hx | hx) | hx
      · exact .inl (.inl hx)
      · exact .inl (.inr hx)
      · exact .inr (.inr hx)
  · intro e he
    rw [ht.rq] at he
    rcases List.mem_append.mp he with he | he
    · exact h.rq e he
    · obtain ⟨h1, h2⟩ := ht.newRq e he
      have hpre : pre = true := by
        by_contra hpre
        rw [ht.noRq (h.prepost.trans (Bool.eq_false_iff.mpr hpre))] at he
        cases he
      exact .inl ⟨h2, h1.trans (h.recvWrId hpre)⟩
  · intro hpre q
    rw [ht.rq, ht.noRq (h.prepost.trans hpre), List.append_nil, hframe.fifoHead, ht.data, ht.peerHead]
    exact h.aligned hpre q
  · intro call hc
    obtain ⟨r, i, k, w, wcs, hs, ht'⟩ := ht.call
    rw [ht'] at hc
    cases hc
    obtain ⟨h1, h2⟩ := h.call_live _ hs
    exact ⟨h1, fun hu => h2 ((htype r).symm.trans hu)⟩
  · intro r' i' t' w' wcs' hc x hx
    obtain ⟨r, i, k, w, wcs, hs, ht'⟩ := ht.call
    rw [ht'] at hc
    cases hc
    exact h.hand _ _ _ _ _ hs x (List.mem_cons_of_mem _ hx)

end

end

end net_ib.p2p
