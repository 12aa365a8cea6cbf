-- Preposted receives all carry the dummy work-request id, so a comm that preposts can
-- find a request only by the id in the data (common.cc, p2p.cc). The two decisions
-- are taken from the same parameters with different tests: preposting is for every
-- value of the failover parameter but 0, and matching by id only for 1.
import MrcPlugin.RecvQueue
import MrcPlugin.ActiveQps

namespace net_ib

open p2p recovery resiliency runs

/-! ## The index -/

namespace p2p

/-- The index that `ncclIbRequestRetrieveFromCompletion` has for `recvReqs`, if it gets
that far. -/
def recvReqsIndex (comm : NcclIbRecvComm) (wc : IbvWc) : Option Nat :=
  if !wc.success then none
  else if wc.opcode = IBV_WC_RECV_RDMA_WITH_IMM ∧ comm.base.recvMatchingScheme = BY_ID then
    some (wc.imm_data % NET_IB_MAX_REQUESTS)
  else if wc.opcode = IBV_WC_RDMA_READ then none
  else some wc.wr_id

/-- The lookup reads past the end of `recvReqs` exactly when the index is too large. -/
theorem recvRetrieve_index {comm : NcclIbRecvComm} {wc : IbvWc} {k : Nat}
    (h : recvReqsIndex comm wc = some k) :
    recvRetrieve comm wc =
      if k < NET_IB_MAX_REQUESTS then .ok (comm.recvReqs k) else .error .badPointer := by
  unfold recvReqsIndex at h
  unfold recvRetrieve
  split at h
  · cases h
  rename_i hok
  rw [if_neg hok]
  split at h
  · rename_i hdata
    cases h
    rw [if_pos hdata, if_pos (Nat.mod_lt _ (by decide))]
  rename_i hdata
  rw [if_neg hdata]
  split at h
  · cases h
  rename_i hread
  cases h
  rw [if_neg hread]
  by_cases hlt : wc.wr_id < NET_IB_MAX_REQUESTS
  · rw [if_neg (Nat.not_le_of_lt hlt), if_pos hlt]
  · rw [if_pos (Nat.le_of_not_lt hlt), if_neg hlt]

/-- The index of the completion that the next piece of `ncclIbTest` processes. A speed
update is not looked up. -/
def RecvState.nextIndex (s : RecvState) : Option Nat :=
  (inHand s.call).head?.bind (fun c =>
    if c.wc.wr_id = NCCL_IB_SPEED_UPDATE_WR_ID then none else recvReqsIndex s.comm c.wc)

end p2p

/-! ## The runs -/

/-- A receive comm and its resiliency context, which is there when `resiliency` of the
comm is set. -/
structure MatchRun where
  rq : RqRun
  res : NcclIbResiliency

/-- What happens to it: a step of the comm, the completion of a work request with an
error, or the end of a recovery. -/
inductive MatchAct
  | rq (act : RqAct)
  | error (env : ResEnv) (status : WcStatus) (wr_id d : Nat)
  | thread (d : Nat) (st : DevState)
  | recovery (d : Nat)

/-- The request that a completion with error is for. -/
def errorCause (comm : NcclIbRecvComm) (wr_id : Nat) : Cause :=
  .cts (comm.base.reqs ((comm.recvReqs wr_id).getD 0)).id

def MatchRun.next (sh : Shape) : MatchAct → MatchRun → Option MatchRun
  | .rq act, x => (x.rq.next sh act).map (fun rq => { x with rq })
  | .error env status wr_id d, x =>
    let s := x.rq.s
    if s.comm.base.resiliency then
      let out := recvCompletionError env ⟨s.comm, x.res⟩ status wr_id d
      match out.ret with
      | .error .badPointer => none
      | _ =>
        some { rq := { x.rq with
                s := { s.posted (errorCause s.comm wr_id) none out.posts with
                  comm := out.comm.comm } }
               res := out.comm.res }
    else none
  | .thread d st, x => some { x with res := x.res.setState d st }
  | .recovery d, x =>
    let (base, res, _) := progressDev x.rq.s.comm.base x.res d
    some { rq := { x.rq with s := { x.rq.s with comm := { x.rq.s.comm with base } } }, res }

/-- What `ncclIbRecvCommInit` has set and the handshake leaves. -/
structure Initialised (p : IbParams) (comm : NcclIbRecvComm) : Prop where
  prepost : comm.prepostReceiveWorkRequests =
    (ncclIbRecvCommInit p comm).prepostReceiveWorkRequests
  recvWrId : comm.recvWrId = (ncclIbRecvCommInit p comm).recvWrId
  scheme : comm.base.recvMatchingScheme = (ncclIbRecvCommInit p comm).base.recvMatchingScheme
  resiliency : comm.base.resiliency = (ncclIbRecvCommInit p comm).base.resiliency
  splitDataOnQps : comm.base.splitDataOnQps = (ncclIbRecvCommInit p comm).base.splitDataOnQps

/-- The runs of a comm that preposts `n` receives on each QP, with parameters `p`. -/
def matchSystem (p : IbParams) (sh : Shape) (n : Nat) : System MatchRun where
  init := fun x => x.rq.Init sh n ∧ Initialised p x.rq.s.comm
  step := fun x y => ∃ act, x.next sh act = some y

/-! ## The property and the parameters -/

/-- A comm that preposts matches by id, and no run has an index past the end. -/
def PrepostMatchesById (p : IbParams) : Prop :=
  ∀ comm, (ncclIbRecvCommInit p comm).prepostReceiveWorkRequests = true →
    (ncclIbRecvCommInit p comm).base.recvMatchingScheme = BY_ID ∧
    ∀ sh n x, Reachable (matchSystem p sh n) x →
      ∀ k, x.rq.s.nextIndex = some k → k < NET_IB_MAX_REQUESTS

/-- A parameter asks for the match by id, or none asks for preposting. -/
def SameDecision (p : IbParams) : Prop :=
  p.prepostReceiveWorkRequests = 1 ∨ i32 p.oooRq ≠ 0 ∨ i32 p.resiliencyPortFailover = 1 ∨
    i32 p.receiverSideMatchingScheme = BY_ID ∨
    (p.resiliencyPortFailover = 0 ∧
      (p.prepostReceiveWorkRequests = 0 ∨ p.prepostReceiveWorkRequests = -2))

theorem init_prepost (p : IbParams) (comm : NcclIbRecvComm) :
    (ncclIbRecvCommInit p comm).prepostReceiveWorkRequests = true ↔
      p.resiliencyPortFailover ≠ 0 ∨ i32 p.oooRq ≠ 0 ∨
        (p.prepostReceiveWorkRequests ≠ -2 ∧ p.prepostReceiveWorkRequests ≠ 0) := by
  simp [ncclIbRecvCommInit, ncclIbBaseCommInit, ncclIbResiliencyInit, or_assoc]

theorem init_scheme (p : IbParams) (comm : NcclIbRecvComm) :
    (ncclIbRecvCommInit p comm).base.recvMatchingScheme = BY_ID ↔
      i32 p.oooRq ≠ 0 ∨ i32 p.resiliencyPortFailover = 1 ∨ p.prepostReceiveWorkRequests = 1 ∨
        i32 p.receiverSideMatchingScheme = BY_ID := by
  simp only [ncclIbRecvCommInit, ncclIbBaseCommInit]
  split
  · rename_i h
    exact ⟨fun _ => by tauto, fun _ => rfl⟩
  · rename_i h
    split
    · rename_i hscheme
      simp only [hscheme]
      refine ⟨fun hc => absurd hc (by decide), fun hc => ?_⟩
      have : (-2 : Int) ≠ BY_ID := by decide
      tauto
    · tauto

/-- With the decision the same, a comm that preposts matches by id. -/
theorem SameDecision.scheme {p : IbParams} (h : SameDecision p) (comm : NcclIbRecvComm)
    (hpre : (ncclIbRecvCommInit p comm).prepostReceiveWorkRequests = true) :
    (ncclIbRecvCommInit p comm).base.recvMatchingScheme = BY_ID := by
  rw [init_prepost] at hpre
  rw [init_scheme]
  unfold SameDecision at h
  omega

/-- The other way round. -/
theorem sameDecision_of_scheme {p : IbParams} (comm : NcclIbRecvComm)
    (h : (ncclIbRecvCommInit p comm).prepostReceiveWorkRequests = true →
      (ncclIbRecvCommInit p comm).base.recvMatchingScheme = BY_ID) : SameDecision p := by
  rw [init_prepost, init_scheme] at h
  unfold SameDecision
  omega

/-! ## The invariant -/

namespace p2p

/-- A completion whose index is in bounds, when data is matched by id. -/
def IndexInBounds (wc : IbvWc) : Prop :=
  wc.opcode = IBV_WC_RECV_RDMA_WITH_IMM ∨ wc.opcode = IBV_WC_RDMA_READ ∨
    wc.wr_id = NCCL_IB_SPEED_UPDATE_WR_ID ∨ wc.wr_id < NET_IB_MAX_REQUESTS

theorem IndexInBounds.lt {comm : NcclIbRecvComm} {wc : IbvWc} {k : Nat} (h : IndexInBounds wc)
    (hscheme : comm.base.recvMatchingScheme = BY_ID)
    (hspeed : wc.wr_id ≠ NCCL_IB_SPEED_UPDATE_WR_ID) (hk : recvReqsIndex comm wc = some k) :
    k < NET_IB_MAX_REQUESTS := by
  unfold recvReqsIndex at hk
  split at hk
  · cases hk
  split at hk
  · cases hk
    exact Nat.mod_lt _ (by decide)
  rename_i hdata
  split at hk
  · cases hk
  rename_i hread
  cases hk
  rcases h with hop | hop | hid | hlt
  · exact absurd ⟨hop, hscheme⟩ hdata
  · exact absurd hop hread
  · exact absurd hid hspeed
  · exact hlt

/-- The writes of a post have the id of a slot or that of a speed update. -/
def SlotIds (posts : List RecvPost) : Prop :=
  ∀ p, .send p ∈ posts → ∀ wr ∈ p.wrs,
    wr.wr_id = NCCL_IB_SPEED_UPDATE_WR_ID ∨ wr.wr_id < NET_IB_MAX_REQUESTS

theorem SlotIds.cqes {posts : List RecvPost} (h : SlotIds posts) (base : NcclIbNetCommBase)
    (cause : Cause) : ∀ c ∈ posts.flatMap (postCqes base cause), IndexInBounds c.wc := by
  intro c hc
  obtain ⟨post, hpost, hcp⟩ := List.mem_flatMap.mp hc
  cases post with
  | send p =>
    obtain ⟨wr, hwr, rfl⟩ := List.mem_map.mp hcp
    exact .inr (.inr (h p hpost wr (List.mem_filter.mp hwr).1))
  | recv q wr_id => cases hcp
  | flush d wr =>
    rw [List.mem_singleton.mp hcp]
    exact .inr (.inl rfl)

theorem slotIds_nil : SlotIds [] := fun _ h => by cases h

/-- A receive comm that preposts and matches by id. -/
structure MatchGood (s : RecvState) : Prop where
  scheme : s.comm.base.recvMatchingScheme = BY_ID
  prepost : s.comm.prepostReceiveWorkRequests = true
  sq : ∀ c ∈ s.sq, IndexInBounds c.wc
  data : ∀ c ∈ s.data, c.wc.opcode = IBV_WC_RECV_RDMA_WITH_IMM
  arrived : ∀ c ∈ s.cq ++ inHand s.call, IndexInBounds c.wc

/-! ## What is posted -/

theorem postFifo_slotIds {comm : NcclIbRecvComm} {req : NcclIbRequest} {slot : Nat} {cts : SendPost}
    (h : ncclIbPostFifo comm req slot = .ok cts) (hslot : slot < NET_IB_MAX_REQUESTS) :
    SlotIds [.send cts] := by
  unfold ncclIbPostFifo at h
  cases hqp : ncclIbRecvCommGetQpForCts comm.base req.id with
  | error e =>
    rw [hqp] at h
    cases h
  | ok q =>
    rw [hqp] at h
    cases h
    intro p hp wr hwr
    cases List.mem_singleton.mp hp
    rw [List.mem_singleton.mp hwr]
    right
    simp only
    split
    · exact hslot
    · decide

theorem slotIds_recvs {recvs : List RecvPost} (hrecvs : ∀ p, .send p ∉ recvs) {posts : List RecvPost}
    (h : SlotIds posts) : SlotIds (recvs ++ posts) := by
  intro p hp
  rcases List.mem_append.mp hp with hp | hp
  · exact absurd hp (hrecvs p)
  · exact h p hp

theorem irecv_slotIds (env : NetEnv) (comm : NcclIbRecvComm) (bufs : List RecvBuffer) :
    SlotIds (ncclIbIrecv env comm bufs).posts := by
  unfold ncclIbIrecv
  simp only
  split
  · apply slotIds_nil
  split
  · apply slotIds_nil
  split
  · apply slotIds_nil
  split
  · apply slotIds_nil
  rename_i qps _
  split
  · apply slotIds_nil
  have hrecvs : ∀ (slot : Nat) (p : SendPost), RecvPost.send p ∉
      if comm.prepostReceiveWorkRequests then [] else qps.map (fun q => RecvPost.recv q.1 slot) := by
    intro slot p hp
    split at hp
    · cases hp
    · obtain ⟨q, _, hq⟩ := List.mem_map.mp hp
      cases hq
  split
  · intro p hp
    exact absurd hp (hrecvs _ p)
  · rename_i hcts
    exact slotIds_recvs (hrecvs _) (postFifo_slotIds hcts (slotOf_lt _))

theorem iflush_slotIds (comm : NcclIbRecvComm) (bufs : List FlushBuffer) :
    SlotIds (ncclIbIflush comm bufs).posts := by
  unfold ncclIbIflush
  split
  · apply slotIds_nil
  · apply slotIds_nil
  simp only
  split
  · apply slotIds_nil
  · intro p hp
    obtain ⟨d, _, hd⟩ := List.mem_map.mp hp
    cases hd

theorem speedUpdate_slotIds (env : NetEnv) (comm : NcclIbRecvComm) :
    SlotIds (ncclIbPostSpeedUpdateToRemote env comm).2 := by
  unfold ncclIbPostSpeedUpdateToRemote
  simp only
  split
  · apply slotIds_nil
  split
  · apply slotIds_nil
  · intro p hp wr hwr
    cases List.mem_singleton.mp hp
    rw [List.mem_singleton.mp hwr]
    exact .inl rfl

theorem recvEvent_slotIds (env : NetEnv) (comm : NcclIbRecvComm) (wc : IbvWc) (dev : Nat) :
    SlotIds (recvEventProcess env comm wc dev).posts := by
  unfold recvEventProcess
  split
  · apply slotIds_nil
  split
  · apply slotIds_nil
  · apply slotIds_nil
  rename_i i _
  split
  · unfold recvData
    simp only
    split
    · apply slotIds_nil
    split
    · apply slotIds_nil
    have hrepost : SlotIds (repost (recordSize comm i wc) i wc dev).posts := by
      rcases repost_cases (recordSize comm i wc) i dev wc with ⟨e, he⟩ | ⟨_, _, he, _, _, _, hall⟩
      · rw [he]
        apply slotIds_nil
      · rw [he]
        intro p hp
        obtain ⟨q, hq⟩ := hall _ hp
        cases hq
    split <;> exact hrepost
  · apply slotIds_nil
  · split
    · apply speedUpdate_slotIds
    · apply slotIds_nil
  · apply slotIds_nil

theorem recvTest_slotIds (env : NetEnv) (comm : NcclIbRecvComm) (cq : List Cqe) (call : TestCall)
    (n : Nat) : SlotIds (recvTest env comm cq call n).posts := by
  by_cases hidle : inHand (some call) = []
  · rw [recvTest_idle hidle]
    apply slotIds_nil
  obtain ⟨r, pc⟩ := call
  cases pc with
  | top => exact absurd rfl hidle
  | device i k => exact absurd rfl hidle
  | completions i k w wcs =>
    cases wcs with
    | nil => exact absurd rfl hidle
    | cons c wcs =>
      change SlotIds (testCompletion env comm cq i k w c wcs).posts
      rw [testCompletion_posts]
      split
      · apply recvEvent_slotIds
      · apply slotIds_nil

end p2p

theorem recvError_slotIds (env : ResEnv) (s : ResRecvComm) (status : WcStatus) (wr_id d : Nat) :
    SlotIds (recvCompletionError env s status wr_id d).posts := by
  unfold recvCompletionError
  split
  · apply slotIds_nil
  split
  · apply slotIds_nil
  unfold ncclIbResiliencyHandleCompletionErrorReceiver
  simp only
  split
  · apply slotIds_nil
  split
  · apply slotIds_nil
  split
  · apply slotIds_nil
  split
  · apply slotIds_nil
  · split
    · apply slotIds_nil
    · rename_i hcts
      exact postFifo_slotIds hcts (slotOf_lt _)
  · apply slotIds_nil
  · apply slotIds_nil

/-! ## One step -/

namespace p2p

open queues

section
variable {s t : RecvState}

/-- The posts of a step reach the provider. -/
theorem MatchGood.posted (h : MatchGood s) {comm : NcclIbRecvComm} (cause : Cause) (id : Option Nat)
    {posts : List RecvPost} (hscheme : comm.base.recvMatchingScheme = s.comm.base.recvMatchingScheme)
    (hpre : comm.prepostReceiveWorkRequests = true) (hids : SlotIds posts) :
    MatchGood { s.posted cause id posts with comm } :=
  { h with
    scheme := hscheme.trans h.scheme
    prepost := hpre
    sq := fun c hc => by
      rcases List.mem_append.mp hc with hc | hc
      · exact h.sq c hc
      · exact hids.cqes _ _ c hc }

theorem MatchGood.afterCall (h : MatchGood s) {cause posted : Cause} {id : Option Nat}
    {out : RecvOut}
    (hscheme : out.comm.base.recvMatchingScheme = s.comm.base.recvMatchingScheme)
    (hpre : out.comm.prepostReceiveWorkRequests = true) (hids : SlotIds out.posts)
    (hafter : s.afterCall cause posted id out = some t) : MatchGood t := by
  have hmoved := h.posted posted id hscheme hpre hids
  unfold RecvState.afterCall at hafter
  simp only at hafter
  split at hafter
  · cases hafter
    exact hmoved
  · cases hafter
  · cases hafter
    exact hmoved
  · cases hafter
    exact { hmoved with }

/-- The steps other than a piece of `ncclIbTest`. -/
theorem MatchGood.next (h : MatchGood s) {act : RecvAct} (hnext : s.next act = some t)
    (hact : ∀ env n, act ≠ .test env n) : MatchGood t := by
  cases act with
  | test env n => exact absurd rfl (hact env n)
  | irecv env bufs =>
    simp only [RecvState.next] at hnext
    split at hnext
    · cases hnext
    obtain ⟨-, hsame, hpre, -⟩ := irecv_noRecv h.prepost env bufs
    exact h.afterCall hsame.recvMatchingScheme hpre (irecv_slotIds env s.comm bufs) hnext
  | iflush bufs =>
    have hsteady := next_steady hnext (fun _ _ hc => by cases hc)
    simp only [RecvState.next] at hnext
    split at hnext
    · cases hnext
    split at hnext
    · cases hnext
    rename_i t' hafter
    cases hnext
    have hcomm : t'.comm = (ncclIbIflush s.comm bufs).comm := by
      unfold RecvState.afterCall at hafter
      simp only at hafter
      split at hafter
      · rw [← Option.some.inj hafter]
      · cases hafter
      · rw [← Option.some.inj hafter]
      · rw [← Option.some.inj hafter]
    rw [hcomm] at hsteady
    have hgood := h.afterCall hsteady.same.recvMatchingScheme (hsteady.prepost.trans h.prepost)
      (iflush_slotIds s.comm bufs) hafter
    exact { hgood with }
  | testBegin r =>
    simp only [RecvState.next] at hnext
    split at hnext
    · rename_i hidle
      cases hnext
      have harrived := h.arrived
      rw [hidle.1] at harrived
      exact { h with arrived := harrived }
    · cases hnext
  | complete q flush =>
    simp only [RecvState.next] at hnext
    split at hnext
    · cases hnext
    rename_i c sq hpop
    cases hnext
    have hperm := popFirst_perm hpop
    refine { h with sq := fun c' hc' => ?_, arrived := fun c' hc' => ?_ }
    · exact h.sq c' (hperm.mem_iff.mpr (List.mem_cons_of_mem _ hc'))
    · rcases List.mem_append.mp hc' with hc' | hc'
      · rcases List.mem_append.mp hc' with hc' | hc'
        · exact h.arrived c' (List.mem_append_left _ hc')
        · rw [List.mem_singleton.mp hc']
          exact h.sq c (hperm.mem_iff.mpr (List.mem_cons_self ..))
      · exact h.arrived c' (List.mem_append_right _ hc')
  | deliver q =>
    simp only [RecvState.next] at hnext
    split at hnext
    · rename_i c data e rq hdata hrq
      cases hnext
      have hperm := popFirst_perm hdata
      refine { h with data := fun c' hc' => ?_, arrived := fun c' hc' => ?_ }
      · exact h.data c' (hperm.mem_iff.mpr (List.mem_cons_of_mem _ hc'))
      · rcases List.mem_append.mp hc' with hc' | hc'
        · rcases List.mem_append.mp hc' with hc' | hc'
          · exact h.arrived c' (List.mem_append_left _ hc')
          · rw [List.mem_singleton.mp hc']
            exact .inl (h.data c (hperm.mem_iff.mpr (List.mem_cons_self ..)))
        · exact h.arrived c' (List.mem_append_right _ hc')
    · cases hnext
  | record slot sizes =>
    cases hnext
    exact { h with }

/-- A piece of `ncclIbTest`: it moves completions, and posts none with another id. -/
theorem MatchGood.test (h : MatchGood s) {call : TestCall} (hcall : s.call = some call)
    {env : NetEnv} {n : Nat}
    (hafter : s.afterTest call (recvTest env s.comm s.cq call n) = some t) : MatchGood t := by
  have hframe := recvTest_frame env s.comm s.cq call n
  have hpending := afterTest_pending hcall (recvTest_conserves env s.comm s.cq call n) hafter
  obtain ⟨-, hsq, hdata, hcq, hcomm, -⟩ := afterTest_fields hafter
  refine ⟨?_, ?_, ?_, hdata ▸ h.data, fun c hc => h.arrived c (hpending.subset ?_)⟩
  · rw [hcomm]
    exact hframe.same.recvMatchingScheme.trans h.scheme
  · rw [hcomm]
    exact hframe.prepost.trans h.prepost
  · intro c hc
    rw [hsq] at hc
    rcases List.mem_append.mp hc with hc | hc
    · exact h.sq c hc
    · exact (recvTest_slotIds env s.comm s.cq call n).cqes _ _ c hc
  · exact List.mem_append_left _ (List.mem_append_left _ hc)

end

theorem rqNext_act {act : RecvAct} (hact : ∀ env n, act ≠ .test env n) (sh : Shape) (x : RqRun) :
    x.next sh (.act act) = (x.s.next act).map (fun t => { x with s := t }) := by
  cases act with
  | test env n => exact absurd rfl (hact env n)
  | _ => rfl

/-- A step of the comm. -/
theorem matchGood_rq {sh : Shape} {act : RqAct} {x y : RqRun} (h : MatchGood x.s)
    (hnext : x.next sh act = some y) : MatchGood y.s := by
  cases act with
  | act act =>
    by_cases htest : ∃ env n, act = .test env n
    · obtain ⟨env, n, rfl⟩ := htest
      simp only [RqRun.next] at hnext
      split at hnext
      · cases hnext
      rename_i call hcall
      split at hnext
      · cases hnext
      rename_i t hafter
      cases hnext
      exact h.test hcall hafter
    · have hact : ∀ env n, act ≠ .test env n := fun env n he => htest ⟨env, n, he⟩
      rw [rqNext_act hact] at hnext
      obtain ⟨t, ht, rfl⟩ := Option.map_eq_some_iff.mp hnext
      exact h.next ht hact
  | arrives q imm_data byte_len =>
    simp only [RqRun.next] at hnext
    split at hnext
    · cases hnext
      refine { h with data := fun c hc => ?_ }
      rcases List.mem_append.mp hc with hc | hc
      · exact h.data c hc
      · rw [List.mem_singleton.mp hc]
    · cases hnext

end p2p

theorem matchGood_base {s : RecvState} (h : MatchGood s) {base : NcclIbNetCommBase}
    (hbase : OnlyActive s.comm.base base) :
    MatchGood { s with comm := { s.comm with base } } := by
  refine { h with scheme := ?_ }
  rw [hbase]
  exact h.scheme

/-- A failure moves the QPs in use. The comm sends its CTS messages again. -/
theorem matchGood_error {s : RecvState} (h : MatchGood s) (env : ResEnv) (res : NcclIbResiliency)
    (status : WcStatus) (wr_id d : Nat) (cause : Cause) :
    let out := recvCompletionError env ⟨s.comm, res⟩ status wr_id d
    MatchGood { s.posted cause none out.posts with comm := out.comm.comm } := by
  intro out
  have hcomm : out.comm.comm.base.recvMatchingScheme = s.comm.base.recvMatchingScheme ∧
      out.comm.comm.prepostReceiveWorkRequests = s.comm.prepostReceiveWorkRequests := by
    simp only [out]
    unfold recvCompletionError
    split
    · exact ⟨rfl, rfl⟩
    split
    · rename_i hfail
      have hbase := (deviceFailure_only hfail).1
      rw [hbase]
      exact ⟨rfl, rfl⟩
    · rename_i base _ hfail
      have hbase : base.recvMatchingScheme = s.comm.base.recvMatchingScheme := by
        rw [(deviceFailure_only hfail).1]
      unfold ncclIbResiliencyHandleCompletionErrorReceiver
      simp only
      split
      · exact ⟨hbase, rfl⟩
      split
      · exact ⟨hbase, rfl⟩
      split
      · exact ⟨hbase, rfl⟩
      split
      · exact ⟨hbase, rfl⟩
      · split <;> exact ⟨hbase, rfl⟩
      · exact ⟨hbase, rfl⟩
      · exact ⟨hbase, rfl⟩
  exact h.posted cause none hcomm.1 (hcomm.2.trans h.prepost) (recvError_slotIds env _ status wr_id d)

/-- Every step of a run keeps the invariant. -/
theorem matchGood_next {sh : Shape} {act : MatchAct} {x y : MatchRun} (h : MatchGood x.rq.s)
    (hnext : x.next sh act = some y) : MatchGood y.rq.s := by
  cases act with
  | rq act =>
    obtain ⟨rq, hrq, rfl⟩ := Option.map_eq_some_iff.mp hnext
    exact matchGood_rq h hrq
  | error env status wr_id d =>
    simp only [MatchRun.next] at hnext
    split at hnext
    · split at hnext
      · cases hnext
      · cases hnext
        exact matchGood_error h env x.res status wr_id d _
    · cases hnext
  | thread d st =>
    cases hnext
    exact h
  | recovery d =>
    rcases hprog : progressDev x.rq.s.comm.base x.res d with ⟨base, res, ret⟩
    simp only [MatchRun.next, hprog] at hnext
    cases hnext
    exact matchGood_base h (progressDev_only hprog).1

/-! ## The laws -/

/-- With the match by id, no run has an index past the end. -/
theorem index_in_bounds {p : IbParams} {sh : Shape} {n : Nat} {x : MatchRun}
    (hscheme : ∀ comm, (ncclIbRecvCommInit p comm).prepostReceiveWorkRequests = true →
      (ncclIbRecvCommInit p comm).base.recvMatchingScheme = BY_ID)
    (hr : Reachable (matchSystem p sh n) x) :
    ∀ k, x.rq.s.nextIndex = some k → k < NET_IB_MAX_REQUESTS := by
  have hgood : MatchGood x.rq.s := by
    refine hr.invariant (P := fun x => MatchGood x.rq.s) ?_ ?_
    · rintro x ⟨hinit, hparams⟩
      refine ⟨hparams.scheme.trans (hscheme _ ?_), hinit.prepost, ?_, ?_, ?_⟩
      · exact hparams.prepost.symm.trans hinit.prepost
      · rw [hinit.sq]
        simp
      · rw [hinit.data]
        simp
      · rw [hinit.cq, hinit.call]
        simp [inHand]
    · rintro x y - hx ⟨act, hact⟩
      exact matchGood_next hx hact
  intro k hk
  unfold RecvState.nextIndex at hk
  obtain ⟨c, hc, hindex⟩ := Option.bind_eq_some_iff.mp hk
  split at hindex
  · cases hindex
  rename_i hspeed
  have hmem : c ∈ x.rq.s.cq ++ inHand x.rq.s.call :=
    List.mem_append_right _ (List.mem_of_mem_head? hc)
  exact (hgood.arrived c hmem).lt hgood.scheme hspeed hindex

/-- A comm that preposts matches by id, and never looks past the end of `recvReqs`,
exactly when a parameter that asks for preposting is one that asks for the match by id. -/
theorem a_preposting_comm_matches_by_id_iff (p : IbParams) :
    PrepostMatchesById p ↔ SameDecision p := by
  constructor
  · intro h
    exact sameDecision_of_scheme (freshRecv Shape.one true) (fun hpre => (h _ hpre).1)
  · intro h comm hpre
    exact ⟨h.scheme comm hpre, fun sh n x hr => index_in_bounds h.scheme hr⟩

/-- The failover parameter at 2 and preposting at 0. -/
def failoverTwo : IbParams :=
  { IbParams.defaults with prepostReceiveWorkRequests := 0, resiliencyPortFailover := 2 }

/-- A comm of one QP with these parameters. -/
def startMatch : MatchRun where
  rq := { startRq with
    s := { startRq.s with
      comm := { startRq.s.comm with
        base := { startRq.s.comm.base with recvMatchingScheme := BY_INDEX } } } }
  res :=
    { recoveryEnabled := false, devs := fun _ => {}, ndevs := 1, probingQps := fun d => ⟨d, d, d, 0⟩
      inProgress := false, outstandingRequests := 0, outstandingRecovery := 0 }

theorem init_startMatch : startMatch.rq.Init Shape.one 256 ∧
    Initialised failoverTwo startMatch.rq.s.comm :=
  ⟨{ init_startRq with striped := { init_startRq.striped with } },
    ⟨by decide, by decide, by decide, by decide, by decide⟩⟩

/-- A receive, and the arrival of its data. -/
def dataArrives : List MatchAct :=
  let test := fun n => MatchAct.rq (.act (.test plainEnv n))
  [.rq (.act (.irecv plainEnv [⟨0, 8, 0, fun _ => 0⟩])), .rq (.arrives 0 0 8),
    .rq (.act (.deliver 0)), .rq (.act (.testBegin 0)), test 0, test 1]

/-- The comm preposts and matches by index, and the first data that arrives makes it
look up the dummy id. -/
theorem the_dummy_id_is_looked_up :
    ¬ PrepostMatchesById failoverTwo ∧
      ∃ x, Reachable (matchSystem failoverTwo Shape.one 256) x ∧
        x.rq.s.nextIndex = some (2 ^ 64 - 1) := by
  have hrun : (follow (MatchRun.next Shape.one) dataArrives startMatch).map
      (fun x => x.rq.s.nextIndex) = some (some (2 ^ 64 - 1)) := by
    decide +kernel
  obtain ⟨x, hx, hindex⟩ := Option.map_eq_some_iff.mp hrun
  have hsteps : ∀ act x y, MatchRun.next Shape.one act x = some y →
      (matchSystem failoverTwo Shape.one 256).step x y := fun act _ _ hnext => ⟨act, hnext⟩
  have hr : Reachable (matchSystem failoverTwo Shape.one 256) x :=
    (Reachable.init init_startMatch).follow hsteps hx
  refine ⟨fun h => ?_, x, hr, hindex⟩
  have hlt := (h startMatch.rq.s.comm (by decide)).2 Shape.one 256 x hr _ hindex
  exact absurd hlt (by decide)

end net_ib
