-- What one completion does to a receive comm while devices fail, and what the calls that
-- open a request do. The device that a completion counts on is the one that was polled.
import MrcPlugin.FailoverReceiveGood

namespace net_ib.resiliency

open p2p recovery queues tallies

/-! ## What stays -/

/-- What no completion, failure or recovery changes. -/
structure ReceiveFrame (comm comm' : NcclIbRecvComm) : Prop where
  fifoHead : comm'.base.fifoHead = comm.base.fifoHead
  split : comm'.base.splitDataOnQps = comm.base.splitDataOnQps
  context : comm'.base.resiliency = comm.base.resiliency
  scheme : comm'.base.recvMatchingScheme = comm.base.recvMatchingScheme
  recvReqs : comm'.recvReqs = comm.recvReqs
  prepost : comm'.prepostReceiveWorkRequests = comm.prepostReceiveWorkRequests
  recvWrId : comm'.recvWrId = comm.recvWrId
  reqs : ∀ j, (comm'.base.reqs j).type = (comm.base.reqs j).type ∧
    (comm'.base.reqs j).id = (comm.base.reqs j).id

section
variable {sh : Shape} {comm comm' comm'' : NcclIbRecvComm} {res res' : NcclIbResiliency}

theorem ReceiveFrame.refl (comm : NcclIbRecvComm) : ReceiveFrame comm comm :=
  ⟨rfl, rfl, rfl, rfl, rfl, rfl, rfl, fun _ => ⟨rfl, rfl⟩⟩

theorem ReceiveFrame.trans (h : ReceiveFrame comm comm') (h' : ReceiveFrame comm' comm'') :
    ReceiveFrame comm comm'' :=
  ⟨h'.1.trans h.1, h'.2.trans h.2, h'.3.trans h.3, h'.4.trans h.4, h'.5.trans h.5, h'.6.trans h.6,
    h'.7.trans h.7, fun j => ⟨(h'.8 j).1.trans (h.8 j).1, (h'.8 j).2.trans (h.8 j).2⟩⟩

theorem receiveFrame_of (h : RecvFrame comm comm') : ReceiveFrame comm comm' where
  fifoHead := h.fifoHead
  split := h.same.splitDataOnQps
  context := h.same.resiliency
  scheme := h.same.recvMatchingScheme
  recvReqs := h.recvReqs
  prepost := h.prepost
  recvWrId := h.recvWrId
  reqs := h.reqs

theorem activeTable_of (h : RecvFrame comm comm') (ht : ActiveTable sh comm.base res) :
    ActiveTable sh comm'.base res :=
  ht.same ⟨h.same.ndevs, h.same.nqps, h.same.nDataQps, h.same.qps, h.same.activeQps, rfl,
    fun _ => rfl⟩

/-- A failure or a recovery of a device moves no more than the QPs in use. -/
theorem receiveFrame_only {base : NcclIbNetCommBase} (h : OnlyActive comm.base base) :
    ReceiveFrame comm { comm with base } ∧
      ∀ j, (base.reqs j).events = (comm.base.reqs j).events := by
  unfold OnlyActive at h
  refine ⟨⟨?_, ?_, ?_, ?_, rfl, rfl, rfl, fun j => ⟨?_, ?_⟩⟩, fun j => ?_⟩ <;> rw [h]

theorem ReceiveFrame.reqQps (h : ReceiveFrame comm comm') :
    reqQps sh comm'.base = reqQps sh comm.base := by
  unfold net_ib.reqQps
  rw [h.split]

theorem ReceiveFrame.flushing (h : ReceiveFrame comm comm') :
    flushing comm' = flushing comm := by
  funext i
  unfold resiliency.flushing
  rw [(h.reqs i).1]

/-! ## A completion -/

/-- One event less for request `i` on device `d`. -/
def TakesEvent (comm comm' : NcclIbRecvComm) (i d : Nat) : Prop :=
  ∀ j k, (comm'.base.reqs j).events k =
    (comm.base.reqs j).events k - if j = i ∧ k = d then 1 else 0

/-- The counters are as before. -/
def QuietEvents (comm comm' : NcclIbRecvComm) : Prop :=
  ∀ j k, (comm'.base.reqs j).events k = (comm.base.reqs j).events k

/-- What the processing of completion `c` counts. -/
inductive Counts (comm comm' : NcclIbRecvComm) (c : RecvCqe) : Prop
  | part (a : DataPart) (i : Nat) (data : c.data = some a) (flush : c.flush = false)
      (index : i < NET_IB_MAX_REQUESTS) (type : (comm.base.reqs i).type = NCCL_NET_IB_REQ_RECV)
      (id : (comm.base.reqs i).id = a.id) (charge : chargeOf comm c = [(a, some a.id)])
      (takes : TakesEvent comm comm' i c.dev)
  | read (i : Nat) (data : c.data = none) (flush : c.flush = true) (index : i < NET_IB_MAX_REQUESTS)
      (type : flushing comm i) (wr_id : c.wc.wr_id = i + NCCL_IB_FLUSH_REQ_WR_ID_OFFSET)
      (takes : TakesEvent comm comm' i c.dev)
  | control (data : c.data = none) (flush : c.flush = false) (quiet : QuietEvents comm comm')

/-- What the processing of completion `c` does. Where it fails, nothing is counted. -/
structure Handles (sh : Shape) (s : ResRecvComm) (c : RecvCqe) (out : ResOut ResRecvComm RecvPost) :
    Prop where
  frame : ReceiveFrame s.comm out.comm.comm
  table : ActiveTable sh out.comm.comm.base out.comm.res ∨ out.ret = .error .badPointer
  counts : out.ret = .ok () → Counts s.comm out.comm.comm c
  quiet : out.ret ≠ .ok () → QuietEvents s.comm out.comm.comm

end

section
variable {sh : Shape} {x : ReceiveState} {c : RecvCqe}

/-- The part of a completion finds its receive. -/
theorem ReceiveGood.arrival (h : ReceiveGood sh x) (env : FailoverEnv) {a : DataPart}
    (hc : c ∈ x.pend) (hok : ArrivalOk sh a c) (hflush : c.flush = false) :
    Handles sh x.s c (recvCompletion env x.s c.dev c) := by
  obtain ⟨i, hi, htype, hid, hfound⟩ :=
    h.owner (List.mem_filterMap.mpr ⟨c, hc, hok.data⟩)
  have hretrieve : recvRetrieve x.s.comm c.wc = .ok (some i) := by
    unfold recvRetrieve
    have hslot : c.wc.imm_data % NET_IB_MAX_REQUESTS = slotOf a.id := by
      rw [hok.imm]
      unfold slotOf NET_IB_MAX_REQUESTS
      omega
    rw [hok.success, hok.opcode, h.byId, hslot, hfound]
    simp
  have hcharge : chargeOf x.s.comm c = [(a, some a.id)] := by
    unfold chargeOf receiveOf
    rw [hok.data, hretrieve]
    simp [htype, hid]
  have hdummy : c.wc.wr_id ≠ NCCL_IB_SPEED_UPDATE_WR_ID := by
    rw [hok.wr_id]
    decide
  have hprocess : recvEventProcess env.net x.s.comm c.wc c.dev =
      recvData x.s.comm i c.wc c.dev := by
    unfold recvEventProcess
    rw [if_neg hdummy, hretrieve, hok.opcode]
  obtain ⟨hframe, hevents⟩ := recordSize_same x.s.comm i c.wc
  unfold recvCompletion
  simp only
  rw [if_pos hok.status, hprocess]
  unfold recvData
  simp only
  rw [if_neg (by rw [htype]; simp), if_neg (by rw [htype]; simp)]
  rcases repost_cases (recordSize x.s.comm i c.wc) i c.dev c.wc with
    ⟨e, hrepost⟩ | ⟨comm', posts, hrepost, hframe', hreqs', -, -⟩
  · rw [hrepost]
    exact
      { frame := receiveFrame_of hframe
        table := .inl (activeTable_of hframe h.table)
        counts := fun hc => by cases hc
        quiet := fun _ j k => by simp only [hevents] }
  · rw [hrepost]
    obtain ⟨hframe'', htake⟩ := chargeRecv_same comm' i c.dev
    have hall := hframe.trans (hframe'.trans hframe'')
    refine
      { frame := receiveFrame_of hall
        table := .inl (activeTable_of hall h.table)
        counts := fun _ => .part a i hok.data hflush hi htype hid hcharge fun j k => ?_
        quiet := fun hc => absurd rfl hc }
    simp only [htake, hreqs', hevents]

/-- The request of a read that waits. -/
theorem ReceiveGood.read_request (h : ReceiveGood sh x) (hc : c ∈ x.pend)
    (hflush : c.flush = true) : ReadOk sh (flushing x.s.comm) c := by
  have hok := h.books.expected c (List.mem_append_right _ hc)
  unfold Expected at hok
  rwa [if_pos hflush] at hok

/-- The counter of a read that waits is one. -/
theorem ReceiveGood.read_event (h : ReceiveGood sh x) (hc : c ∈ x.pend) (hflush : c.flush = true)
    {i : Nat} (hi : i < NET_IB_MAX_REQUESTS) (hflushing : flushing x.s.comm i)
    (hwr : c.wc.wr_id = i + NCCL_IB_FLUSH_REQ_WR_ID_OFFSET) :
    (x.s.comm.base.reqs i).events c.dev = 1 := by
  obtain ⟨hevents, hone⟩ := h.flushes i hi hflushing c.dev
  have hpos : 0 < x.queued.countP (readOf i c.dev) := by
    refine List.countP_pos_iff.mpr ⟨c, List.mem_append_right _ hc, ?_⟩
    unfold readOf
    rw [hflush]
    simp [hwr]
  rw [hevents]
  omega

/-- The read of a flush that has succeeded. -/
theorem ReceiveGood.readProcessed (h : ReceiveGood sh x) (env : FailoverEnv) (hc : c ∈ x.pend)
    (hflush : c.flush = true) (hstatus : c.status = .IBV_WC_SUCCESS) :
    Handles sh x.s c (recvCompletion env x.s c.dev c) := by
  have hok := h.read_request hc hflush
  obtain ⟨i, hi, hflushing, hwr⟩ := hok.request
  have hi' : i < 256 := hi
  have hindex : (c.wc.wr_id + (2 ^ 64 - NCCL_IB_FLUSH_REQ_WR_ID_OFFSET)) % 2 ^ 64 % 2 ^ 32 = i := by
    rw [hwr, NCCL_IB_FLUSH_REQ_WR_ID_OFFSET]
    omega
  have hne : c.wc.wr_id ≠ NCCL_IB_SPEED_UPDATE_WR_ID := by
    rw [hwr, NCCL_IB_FLUSH_REQ_WR_ID_OFFSET, NCCL_IB_SPEED_UPDATE_WR_ID]
    omega
  have hretrieve : recvRetrieve x.s.comm c.wc = .ok (some i) := by
    unfold recvRetrieve
    rw [hok.success, hok.opcode, hindex]
    simp [ncclIbRequestRetrieveAsIndex, Nat.not_le_of_lt hi]
  have hprocess : recvEventProcess env.net x.s.comm c.wc c.dev =
      ⟨chargeRecv x.s.comm i c.dev, [], .ok ()⟩ := by
    unfold recvEventProcess
    rw [if_neg hne, hretrieve, hok.opcode]
  obtain ⟨hframe, htake⟩ := chargeRecv_same x.s.comm i c.dev
  unfold recvCompletion
  simp only
  rw [if_pos hstatus, hprocess]
  exact
    { frame := receiveFrame_of hframe
      table := .inl (activeTable_of hframe h.table)
      counts := fun _ => .read i hok.data hflush hi hflushing hwr htake
      quiet := fun hc => absurd rfl hc }

/-- A completion that has arrived with success and is of no part and no read. -/
theorem ReceiveGood.controlProcessed (h : ReceiveGood sh x) (env : FailoverEnv)
    (hok : Control sh c) (hstatus : c.status = .IBV_WC_SUCCESS) :
    Handles sh x.s c (recvCompletion env x.s c.dev c) := by
  obtain ⟨hsuccess, hkind⟩ := hok.success hstatus
  have hquiet : QuietEvents x.s.comm x.s.comm := fun _ _ => rfl
  unfold recvCompletion
  simp only
  rw [if_pos hstatus]
  unfold recvEventProcess
  split
  · have hframe : ReceiveFrame x.s.comm { x.s.comm with postedSpeedUpdate := false } :=
      ⟨rfl, rfl, rfl, rfl, rfl, rfl, rfl, fun _ => ⟨rfl, rfl⟩⟩
    exact ⟨hframe, .inl h.table, fun _ => .control hok.data hok.flush fun _ _ => rfl,
      fun hc => absurd rfl hc⟩
  rename_i hspeed
  obtain ⟨hlt, hop⟩ := hkind.resolve_left hspeed
  have hretrieve : recvRetrieve x.s.comm c.wc = .ok (x.s.comm.recvReqs c.wc.wr_id) := by
    unfold recvRetrieve
    rw [hsuccess, hop]
    simp [Nat.not_le_of_lt hlt]
  rw [hretrieve, hop]
  cases x.s.comm.recvReqs c.wc.wr_id with
  | none =>
    exact ⟨ReceiveFrame.refl _, .inl h.table, fun hc => (by cases hc), fun _ => hquiet⟩
  | some i =>
    simp only
    split
    · obtain ⟨hframe, hreqs, -⟩ := speedUpdate_same env.net x.s.comm
      exact ⟨receiveFrame_of hframe, .inl (activeTable_of hframe h.table),
        fun _ => .control hok.data hok.flush fun j k => (by rw [hreqs]), fun hc => absurd rfl hc⟩
    · exact ⟨ReceiveFrame.refl _, .inl h.table,
        fun _ => .control hok.data hok.flush hquiet, fun hc => absurd rfl hc⟩

/-- A completion with an error, once its device is taken out of use. -/
theorem errorReceiver_cases (h : ReceiveGood sh x) {comm : NcclIbRecvComm}
    (hframe : ReceiveFrame x.s.comm comm) (hc : c ∈ x.pend)
    (hok : c.flush = true ∨ Control sh c ∧ SlotHolds x.s.comm c)
    (hstatus : c.status ≠ .IBV_WC_SUCCESS) (hspeed : c.wc.wr_id ≠ NCCL_IB_SPEED_UPDATE_WR_ID)
    {out : ResOut NcclIbRecvComm RecvPost}
    (hout : ncclIbResiliencyHandleCompletionErrorReceiver comm c.status c.wc.wr_id c.dev = out) :
    out.comm = comm ∧ (out.ret = .ok () → c.flush = false) ∨
      ∃ i < NET_IB_MAX_REQUESTS, c.flush = true ∧ flushing x.s.comm i ∧
        c.wc.wr_id = i + NCCL_IB_FLUSH_REQ_WR_ID_OFFSET ∧
        out = ⟨comm.withReqs (Function.update comm.base.reqs i { comm.base.reqs i with
          events := Function.update (comm.base.reqs i).events c.dev 0 }), [], .ok ()⟩ := by
  subst hout
  rcases hok with hflush | ⟨hcontrol, hslot⟩
  · right
    obtain ⟨i, hi, hflushing, hwr⟩ := (h.read_request hc hflush).request
    refine ⟨i, hi, hflush, hflushing, hwr, ?_⟩
    have hi' : i < 256 := hi
    have hdummy : c.wc.wr_id ≠ NCCL_IB_RECV_WR_ID_DUMMY := by
      rw [hwr, NCCL_IB_FLUSH_REQ_WR_ID_OFFSET, NCCL_IB_RECV_WR_ID_DUMMY]
      omega
    have hrange : NCCL_IB_FLUSH_REQ_WR_ID_OFFSET ≤ c.wc.wr_id ∧
        c.wc.wr_id < NCCL_IB_FLUSH_REQ_WR_ID_OFFSET + NET_IB_MAX_REQUESTS := by
      rw [hwr]
      omega
    have hindex : c.wc.wr_id - NCCL_IB_FLUSH_REQ_WR_ID_OFFSET = i := by
      rw [hwr]
      omega
    have htype : (comm.base.reqs i).type = NCCL_NET_IB_REQ_FLUSH :=
      (hframe.reqs i).1.trans hflushing
    unfold ncclIbResiliencyHandleCompletionErrorReceiver
    simp only
    rw [if_neg hdummy, if_neg (not_not_intro (.inr hrange)), if_pos hrange, hindex]
    simp only [htype]
  · left
    unfold ncclIbResiliencyHandleCompletionErrorReceiver
    simp only
    split
    · exact ⟨rfl, fun _ => hcontrol.flush⟩
    rename_i hdummy
    have hlt : c.wc.wr_id < NET_IB_MAX_REQUESTS :=
      ((hcontrol.error hstatus).resolve_left hspeed).resolve_left hdummy
    have hnot : ¬ (NCCL_IB_FLUSH_REQ_WR_ID_OFFSET ≤ c.wc.wr_id ∧
        c.wc.wr_id < NCCL_IB_FLUSH_REQ_WR_ID_OFFSET + NET_IB_MAX_REQUESTS) := by
      unfold NCCL_IB_FLUSH_REQ_WR_ID_OFFSET
      unfold NET_IB_MAX_REQUESTS at hlt
      omega
    rw [if_neg (not_not_intro (.inl hlt)), if_neg hnot]
    split
    · exact ⟨rfl, fun _ => hcontrol.flush⟩
    · rename_i i hfound
      rw [hframe.recvReqs] at hfound
      have htype : (comm.base.reqs i).type ≠ NCCL_NET_IB_REQ_FLUSH := by
        rw [(hframe.reqs i).1]
        exact hslot hstatus hlt i hfound
      split
      · rename_i hflush
        exact absurd hflush htype
      · split
        · exact ⟨rfl, fun _ => hcontrol.flush⟩
        · exact ⟨rfl, fun _ => hcontrol.flush⟩
      · exact ⟨rfl, fun _ => hcontrol.flush⟩
      · exact ⟨rfl, fun _ => hcontrol.flush⟩

/-- A completion with an error. -/
theorem ReceiveGood.failed (h : ReceiveGood sh x) (env : FailoverEnv) (hc : c ∈ x.pend)
    (hok : c.flush = true ∨ Control sh c ∧ SlotHolds x.s.comm c)
    (hstatus : c.status ≠ .IBV_WC_SUCCESS) :
    Handles sh x.s c (recvCompletion env x.s c.dev c) := by
  have hdev : c.dev < x.s.res.ndevs := by
    rw [h.res_ndevs]
    exact (h.books.expected c (List.mem_append_right _ hc)).dev
  have hdata : c.flush = false → c.data = none := by
    intro hflush
    rcases hok with hok | hok
    · exact absurd hok (by simp [hflush])
    · exact hok.1.data
  unfold recvCompletion
  rw [if_neg hstatus]
  by_cases hspeed : c.wc.wr_id = NCCL_IB_SPEED_UPDATE_WR_ID
  · rw [if_pos hspeed]
    have hflush : c.flush = false := by
      by_contra hflush
      obtain ⟨i, hi, -, hwr⟩ := (h.read_request hc (by simpa using hflush)).request
      rw [hspeed] at hwr
      unfold NCCL_IB_SPEED_UPDATE_WR_ID NCCL_IB_FLUSH_REQ_WR_ID_OFFSET at hwr
      unfold NET_IB_MAX_REQUESTS at hi
      omega
    have hframe : ReceiveFrame x.s.comm { x.s.comm with postedSpeedUpdate := false } :=
      ⟨rfl, rfl, rfl, rfl, rfl, rfl, rfl, fun _ => ⟨rfl, rfl⟩⟩
    exact ⟨hframe, .inl h.table, fun _ => .control (hdata hflush) hflush fun _ _ => rfl,
      fun hc => absurd rfl hc⟩
  rw [if_neg hspeed]
  have htable := @recvError_table sh env.res x.s c.status c.wc.wr_id c.dev h.table hdev
  generalize hout : recvCompletionError env.res x.s c.status c.wc.wr_id c.dev = out at htable ⊢
  unfold recvCompletionError at hout
  split at hout
  · subst hout
    exact ⟨ReceiveFrame.refl _, htable, fun hc => (by cases hc), fun _ _ _ => rfl⟩
  split at hout
  · rename_i base res e hfail
    obtain ⟨hframe, hevents⟩ := receiveFrame_only (deviceFailure_only hfail).1
    subst hout
    exact ⟨hframe, htable, fun hc => (by cases hc), fun _ j k => by simp only [hevents]⟩
  rename_i base res hfail
  obtain ⟨hframe, hevents⟩ := receiveFrame_only (deviceFailure_only hfail).1
  generalize hrecv : ncclIbResiliencyHandleCompletionErrorReceiver { x.s.comm with base }
    c.status c.wc.wr_id c.dev = recv at hout
  subst hout
  rcases errorReceiver_cases h hframe hc hok hstatus hspeed hrecv with
    ⟨hcomm, hflush⟩ | ⟨i, hi, hflush, hflushing, hwr, rfl⟩
  · have hquiet : QuietEvents x.s.comm recv.comm := by
      intro j k
      rw [hcomm, hevents]
    have hsame : ReceiveFrame x.s.comm recv.comm := by
      rw [hcomm]
      exact hframe
    exact ⟨hsame, htable,
      fun hret => .control (hdata (hflush hret)) (hflush hret) hquiet, fun _ => hquiet⟩
  · -- The flush gives up the read that it waits for on this device.
    have hevent := h.read_event hc hflush hi hflushing hwr
    have htakes : TakesEvent x.s.comm ({ x.s.comm with base }.withReqs (Function.update base.reqs i
        { base.reqs i with events := Function.update (base.reqs i).events c.dev 0 })) i c.dev := by
      intro j k
      unfold NcclIbRecvComm.withReqs
      by_cases hj : j = i
      · subst hj
        by_cases hk : k = c.dev
        · subst hk
          simp [hevent]
        · simp [hk, hevents]
      · simp [hj, hevents]
    have hread : c.data = none := (h.read_request hc hflush).data
    exact
      { frame := hframe.trans (receiveFrame_of (recvFrame_update _ rfl rfl))
        table := htable
        counts := fun _ => .read i hread hflush hi hflushing hwr htakes
        quiet := fun hret => absurd rfl hret }

/-- What the code does with any completion that it has polled. -/
theorem ReceiveGood.handles (h : ReceiveGood sh x) (env : FailoverEnv) (hc : c ∈ x.pend)
    (hslot : SlotHolds x.s.comm c) : Handles sh x.s c (recvCompletion env x.s c.dev c) := by
  have hok := h.books.expected c (List.mem_append_right _ hc)
  by_cases hflush : c.flush = true
  · by_cases hstatus : c.status = .IBV_WC_SUCCESS
    · exact h.readProcessed env hc hflush hstatus
    · exact h.failed env hc (.inl hflush) hstatus
  · unfold Expected at hok
    rw [if_neg hflush] at hok
    rcases hok with ⟨a, ha⟩ | hcontrol
    · exact h.arrival env hc ha (by simpa using hflush)
    by_cases hstatus : c.status = .IBV_WC_SUCCESS
    · exact h.controlProcessed env hcontrol hstatus
    · exact h.failed env hc (.inr ⟨hcontrol, hslot⟩) hstatus

end

end net_ib.resiliency
