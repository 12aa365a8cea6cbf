-- The receive queues of a comm that preposts (p2p.cc, connect.cc), with a
-- resiliency context or without. The completion of a receive posts one again on
-- its QP, unless its processing ends before that. No work request fails here: a
-- QP that fails is reset.
import MrcPlugin.CommInit
import MrcPlugin.RecvFrames
import MrcPlugin.RecvQps
import MrcPlugin.Resiliency

namespace net_ib.p2p

open queues runs resiliency

/-! ## The runs -/

/-- `ncclIbRequestIsComplete`. A context has the devices of its comm. -/
def recvIsComplete (base : NcclIbNetCommBase) (req : NcclIbRequest) : Bool :=
  ncclIbRequestIsComplete req ||
    (base.resiliency && ncclIbResiliencyRequestIsComplete base.ndevs req.events)

/-- One piece of `ncclIbTest` on a receive comm, whose context has no failure to handle. -/
def recvTest (env : NetEnv) (comm : NcclIbRecvComm) (cq : List Cqe) (call : TestCall) (n : Nat) :
    TestOut NcclIbRecvComm :=
  match call.pc with
  | .top =>
    match ncclIbStatsCheckFatalCount env comm.base.fatalErrorCount with
    | .error e => ⟨comm, [], cq, .ret (.error e)⟩
    | .ok () =>
      if recvIsComplete comm.base (comm.base.reqs call.r) then
        let (comm, sizes) := recvRequestComplete comm call.r
        ⟨comm, [], cq, .ret (.ok (some sizes))⟩
      else ⟨comm, [], cq, .go (.device 0 0)⟩
  | _ => ncclIbTest env comm cq call n

/-- Without a context it is the piece of before. -/
theorem recvTest_eq {comm : NcclIbRecvComm} (h : comm.base.resiliency = false) (env : NetEnv)
    (cq : List Cqe) (call : TestCall) (n : Nat) :
    recvTest env comm cq call n = ncclIbTest env comm cq call n := by
  obtain ⟨r, pc⟩ := call
  cases pc with
  | top =>
    unfold recvTest recvIsComplete
    rw [h]
    simp only [Bool.false_and, Bool.or_false]
    rfl
  | device i k => rfl
  | completions i k w wcs => rfl

/-- A receive comm, and the completions that a call of `ncclIbTest` has polled and
left behind when it failed at one before them. -/
structure RqRun where
  s : RecvState
  left : List Cqe

/-- What happens to a receive comm: one of its own steps, or data of the peer
arrives on a QP. The data is any, so also that of a send that was posted again. -/
inductive RqAct
  | act (act : RecvAct)
  | arrives (q imm_data byte_len : Nat)

def RqRun.next (sh : Shape) : RqAct → RqRun → Option RqRun
  | .act (.test env n), x =>
    match x.s.call with
    | none => none
    | some call =>
      match x.s.afterTest call (recvTest env x.s.comm x.s.cq call n) with
      | none => none
      | some t => some ⟨t, x.left ++ if t.call.isNone then (inHand (some call)).tail else []⟩
  | .act act, x => (x.s.next act).map (fun t => { x with s := t })
  | .arrives q imm_data byte_len, x =>
    if q < sh.nqps then
      let qp := x.s.comm.base.qps q
      some { x with s := { x.s with data := x.s.data ++
        [{ wc := ⟨true, 0, IBV_WC_RECV_RDMA_WITH_IMM, imm_data, byte_len, qp.qpn⟩
           qp := q
           dev := qp.devIndex
           flush := false
           cause := .data imm_data }] } }
    else none

/-- A receive comm of shape `sh` that has preposted `n` receives on each QP, the
number that `ncclIbPostReceiveWorkRequestsOnQp` posts. -/
structure RqRun.Init (sh : Shape) (n : Nat) (x : RqRun) : Prop where
  striped : Striped sh x.s.comm.base
  distinct : DistinctQpNums sh x.s.comm.base
  prepost : x.s.comm.prepostReceiveWorkRequests = true
  recvWrId : x.s.comm.recvWrId = NCCL_IB_RECV_WR_ID_DUMMY
  size : dataRqSize x.s.comm.base = .ok n
  posted : ∀ q < sh.nqps, x.s.rq.countP (fun e => e.qp = q) = n
  rq : ∀ e ∈ x.s.rq, e.wr_id = NCCL_IB_RECV_WR_ID_DUMMY
  call : x.s.call = none
  sq : x.s.sq = []
  data : x.s.data = []
  cq : x.s.cq = []
  left : x.left = []

/-- The runs whose steps all meet `guard`. -/
def rqSystem (sh : Shape) (n : Nat) (guard : RqAct → RqRun → Prop) : System RqRun where
  init := RqRun.Init sh n
  step := fun x y => ∃ act, guard act x ∧ x.next sh act = some y

/-! ## The property and the guard -/

/-- The completion of a receive of QP `q`. -/
def isReceiveOf (q : Nat) (c : Cqe) : Bool :=
  c.wc.opcode = IBV_WC_RECV_RDMA_WITH_IMM && c.qp = q

/-- The receives of QP `q` that are posted, and those that have a completion that
is not processed yet. -/
def RqRun.receives (x : RqRun) (q : Nat) : Nat :=
  x.s.rq.countP (fun e => e.qp = q) +
    (x.s.cq ++ inHand x.s.call ++ x.left).countP (isReceiveOf q)

/-- Request `i` takes data: it is a receive, or with a resiliency context any
request in use. -/
def OpenForData (comm : NcclIbRecvComm) (i : Nat) : Prop :=
  if comm.base.resiliency then (comm.base.reqs i).type ≠ NCCL_NET_IB_REQ_UNUSED
  else (comm.base.reqs i).type = NCCL_NET_IB_REQ_RECV

/-- The completion finds a request that takes its data. -/
def FindsOpenRequest (comm : NcclIbRecvComm) (wc : IbvWc) : Prop :=
  ∃ i, recvRetrieve comm wc = .ok (some i) ∧ OpenForData comm i

instance (comm : NcclIbRecvComm) (i : Nat) : Decidable (OpenForData comm i) :=
  inferInstanceAs (Decidable (if comm.base.resiliency then
    (comm.base.reqs i).type ≠ NCCL_NET_IB_REQ_UNUSED
  else (comm.base.reqs i).type = NCCL_NET_IB_REQ_RECV))

instance (comm : NcclIbRecvComm) (wc : IbvWc) : Decidable (FindsOpenRequest comm wc) :=
  match h : recvRetrieve comm wc with
  | .ok (some i) => decidable_of_iff (OpenForData comm i) (by simp [FindsOpenRequest, h])
  | .ok none => isFalse (by simp [FindsOpenRequest, h])
  | .error _ => isFalse (by simp [FindsOpenRequest, h])

/-- The completion that a piece of `ncclIbTest` processes next finds an open
request, if it is the completion of a receive. -/
def NextFindsRequest (s : RecvState) : Prop :=
  ∀ c ∈ (inHand s.call).head?,
    c.wc.opcode = IBV_WC_RECV_RDMA_WITH_IMM → FindsOpenRequest s.comm c.wc

/-- The guard is about the pieces of `ncclIbTest`. -/
def ReceiveFindsRequest : RqAct → RqRun → Prop
  | .act (.test _ _), x => NextFindsRequest x.s
  | _, _ => True

instance (s : RecvState) : Decidable (NextFindsRequest s) :=
  inferInstanceAs (Decidable (∀ c ∈ (inHand s.call).head?,
    c.wc.opcode = IBV_WC_RECV_RDMA_WITH_IMM → FindsOpenRequest s.comm c.wc))

instance (act : RqAct) (x : RqRun) : Decidable (ReceiveFindsRequest act x) :=
  match act with
  | .act (.test _ _) => inferInstanceAs (Decidable (NextFindsRequest x.s))
  | .act (.irecv ..) | .act (.iflush ..) | .act (.testBegin ..) | .act (.complete ..)
  | .act (.deliver ..) | .act (.record ..) | .arrives .. => inferInstanceAs (Decidable True)

/-! ## What the posts are -/

theorem postCqes_opcode {base : NcclIbNetCommBase} {cause : Cause} {posts : List RecvPost} :
    ∀ c ∈ posts.flatMap (postCqes base cause), c.wc.opcode ≠ IBV_WC_RECV_RDMA_WITH_IMM := by
  intro c hmem
  obtain ⟨p, _, hcp⟩ := List.mem_flatMap.mp hmem
  cases p with
  | send p =>
    obtain ⟨wr, _, rfl⟩ := List.mem_map.mp hcp
    simp
  | recv q wr => cases hcp
  | flush d wr =>
    rw [List.mem_singleton.mp hcp]
    simp

/-- No receive is posted. -/
def NoRecv (posts : List RecvPost) : Prop := ∀ q wr_id, .recv q wr_id ∉ posts

theorem NoRecv.none {posts : List RecvPost} (h : NoRecv posts) (id : Option Nat) :
    posts.flatMap (postRecvs id) = [] := by
  apply List.flatMap_eq_nil_iff.mpr
  intro p hp
  cases p with
  | recv q wr_id => exact absurd hp (h q wr_id)
  | send p => rfl
  | flush d wr => rfl

theorem noRecv_nil : NoRecv [] := fun _ _ h => by cases h

/-- A comm that preposts posts only its CTS message in `ncclIbIrecv`. -/
theorem irecv_noRecv {comm : NcclIbRecvComm} (hpre : comm.prepostReceiveWorkRequests = true)
    (env : NetEnv) (bufs : List RecvBuffer) :
    NoRecv (ncclIbIrecv env comm bufs).posts ∧
      SameBase comm.base (ncclIbIrecv env comm bufs).comm.base ∧
      (ncclIbIrecv env comm bufs).comm.prepostReceiveWorkRequests = true ∧
      (ncclIbIrecv env comm bufs).comm.recvWrId = comm.recvWrId := by
  have hstay : NoRecv [] ∧ SameBase comm.base comm.base ∧
      comm.prepostReceiveWorkRequests = true ∧ comm.recvWrId = comm.recvWrId :=
    ⟨noRecv_nil, SameBase.refl _, hpre, rfl⟩
  unfold ncclIbIrecv
  simp only
  split
  · exact hstay
  split
  · exact hstay
  split
  · exact hstay
  split
  · exact hstay
  split
  · exact hstay
  rename_i base i hget
  obtain ⟨-, -, rfl⟩ := getRequest_cases hget
  rw [hpre]
  split
  · exact ⟨noRecv_nil, ⟨rfl, rfl, rfl, rfl, rfl, rfl, rfl, rfl, rfl, rfl⟩, rfl, rfl⟩
  · refine ⟨fun q wr_id h => ?_, ⟨rfl, rfl, rfl, rfl, rfl, rfl, rfl, rfl, rfl, rfl⟩, rfl, rfl⟩
    simp at h

theorem iflush_noRecv (comm : NcclIbRecvComm) (bufs : List FlushBuffer) :
    NoRecv (ncclIbIflush comm bufs).posts := by
  unfold ncclIbIflush
  split
  · exact noRecv_nil
  · exact noRecv_nil
  simp only
  split
  · exact noRecv_nil
  · intro q wr_id h
    obtain ⟨d, _, hd⟩ := List.mem_map.mp h
    cases hd

theorem speedUpdate_noRecv (env : NetEnv) (comm : NcclIbRecvComm) :
    NoRecv (ncclIbPostSpeedUpdateToRemote env comm).2 := by
  unfold ncclIbPostSpeedUpdateToRemote
  simp only
  split
  · exact noRecv_nil
  split
  · exact noRecv_nil
  · intro q wr_id h
    simp at h

/-! ## The processing of a completion -/

section
variable {comm : NcclIbRecvComm}

/-- A completion of anything else posts no receive. -/
theorem otherEvent_noRecv {wc : IbvWc} (hop : wc.opcode ≠ IBV_WC_RECV_RDMA_WITH_IMM) (env : NetEnv)
    (dev : Nat) : NoRecv (recvEventProcess env comm wc dev).posts := by
  unfold recvEventProcess
  split
  · exact noRecv_nil
  split
  · exact noRecv_nil
  · exact noRecv_nil
  split
  · rename_i h
    exact absurd h hop
  · exact noRecv_nil
  · split
    · exact speedUpdate_noRecv env comm
    · exact noRecv_nil
  · exact noRecv_nil

/-- Data of a request that is not open is dropped. -/
theorem recvData_closed {i : Nat} (h : ¬ OpenForData comm i) (wc : IbvWc) (dev : Nat) :
    (recvData comm i wc dev).posts = [] := by
  unfold OpenForData at h
  unfold recvData
  simp only
  cases hres : comm.base.resiliency with
  | true =>
    rw [hres, if_pos rfl] at h
    rw [if_pos ⟨not_not.mp h, rfl⟩]
  | false =>
    rw [hres, if_neg (by simp)] at h
    rw [if_neg (by simp), if_pos ⟨h, rfl⟩]

/-- Data of an open request gives its QP a receive again. -/
theorem recvData_open {sh : Shape} {i q : Nat} {wc : IbvWc} (h : OpenForData comm i)
    (hpre : comm.prepostReceiveWorkRequests = true) (hfound : LookupComplete sh comm.base)
    (hq : q < sh.nqps) (hnum : wc.qp_num = (comm.base.qps q).qpn) :
    let out := recvData comm i wc (comm.base.qps q).devIndex
    out.ret = .ok () ∧ out.posts = [.recv q comm.recvWrId] := by
  obtain ⟨hqps, hnqps, hndevs, hprepost, hwr, _⟩ := recordSize_frame comm i wc
  have hlookup : ncclIbCommBaseGetQpByQpNum (recordSize comm i wc).base
      (comm.base.qps q).devIndex wc.qp_num = .ok q := by
    rw [lookup_congr hqps hnqps hndevs, hnum]
    exact hfound q hq
  obtain ⟨hret, hposts, _⟩ := repost_found (i := i) (hprepost.trans hpre) hlookup
  unfold OpenForData at h
  unfold recvData
  simp only
  cases hres : comm.base.resiliency with
  | true =>
    rw [hres, if_pos rfl] at h
    rw [if_neg (fun hc => h hc.1), if_neg (by simp), hret]
    exact ⟨rfl, hposts.trans (by rw [hwr])⟩
  | false =>
    rw [hres, if_neg (by simp)] at h
    rw [if_neg (by simp), if_neg (fun hc => hc.1 h), hret]
    exact ⟨rfl, hposts.trans (by rw [hwr])⟩

/-- The completion of a receive that finds its request open posts a receive on its
QP. Every other one ends before that. -/
theorem receive_posts {sh : Shape} (hpre : comm.prepostReceiveWorkRequests = true)
    (hfound : LookupComplete sh comm.base) {q : Nat} (hq : q < sh.nqps) {wc : IbvWc}
    (hop : wc.opcode = IBV_WC_RECV_RDMA_WITH_IMM) (hid : wc.wr_id = NCCL_IB_RECV_WR_ID_DUMMY)
    (hnum : wc.qp_num = (comm.base.qps q).qpn) (env : NetEnv) :
    let out := recvEventProcess env comm wc (comm.base.qps q).devIndex
    (FindsOpenRequest comm wc → out.ret = .ok () ∧ out.posts = [.recv q comm.recvWrId]) ∧
      (¬ FindsOpenRequest comm wc → out.posts = []) := by
  have hne : wc.wr_id ≠ NCCL_IB_SPEED_UPDATE_WR_ID := by
    rw [hid]
    decide
  unfold recvEventProcess FindsOpenRequest
  simp only
  rw [if_neg hne]
  cases hreq : recvRetrieve comm wc with
  | error e =>
    refine ⟨?_, fun _ => rfl⟩
    rintro ⟨i, hi, _⟩
    cases hi
  | ok o =>
    cases o with
    | none =>
      refine ⟨?_, fun _ => rfl⟩
      rintro ⟨i, hi, _⟩
      cases hi
    | some i =>
      simp only [hop]
      constructor
      · rintro ⟨i', hi, hopen⟩
        cases hi
        exact recvData_open hopen hpre hfound hq hnum
      · intro hno
        exact recvData_closed (fun hopen => hno ⟨i, rfl, hopen⟩) wc _

end

/-! ## The invariant -/

/-- Data as it arrives on one of the QPs. -/
structure FromPeer (sh : Shape) (b : NcclIbNetCommBase) (c : Cqe) : Prop where
  qp : c.qp < sh.nqps
  dev : c.dev = (b.qps c.qp).devIndex
  qp_num : c.wc.qp_num = (b.qps c.qp).qpn
  success : c.wc.success = true
  opcode : c.wc.opcode = IBV_WC_RECV_RDMA_WITH_IMM

/-- What holds of a comm that preposts in every run, whether its receives are all
there or not. `b` is the base at the start. -/
structure RqGood (sh : Shape) (b : NcclIbNetCommBase) (s : RecvState) : Prop where
  same : SameBase b s.comm.base
  prepost : s.comm.prepostReceiveWorkRequests = true
  recvWrId : s.comm.recvWrId = NCCL_IB_RECV_WR_ID_DUMMY
  rq : ∀ e ∈ s.rq, e.wr_id = NCCL_IB_RECV_WR_ID_DUMMY
  sq : ∀ c ∈ s.sq, c.wc.opcode ≠ IBV_WC_RECV_RDMA_WITH_IMM
  data : ∀ c ∈ s.data, FromPeer sh b c
  arrived : ∀ c ∈ s.cq ++ inHand s.call, c.wc.opcode = IBV_WC_RECV_RDMA_WITH_IMM →
    FromPeer sh b c ∧ c.wc.wr_id = NCCL_IB_RECV_WR_ID_DUMMY
  polled : ∀ r i k w wcs, s.call = some ⟨r, .completions i k w wcs⟩ → ∀ c ∈ wcs, c.dev = i

section
variable {sh : Shape} {b : NcclIbNetCommBase} {s t : RecvState}

/-- The lookup of the start is the lookup of now. -/
theorem SameBase.lookupComplete {b' : NcclIbNetCommBase} (hb : SameBase b b')
    (h : LookupComplete sh b) : LookupComplete sh b' := by
  intro q hq
  rw [lookup_congr hb.qps hb.nqps hb.ndevs, hb.qps]
  exact h q hq

/-! ## The calls -/

/-- A call of `ncclIbIrecv` or `ncclIbIflush` that posts no receive. -/
theorem RqGood.afterCall (h : RqGood sh b s) {cause posted : Cause} {id : Option Nat} {out : RecvOut}
    (hsame : SameBase s.comm.base out.comm.base)
    (hpre : out.comm.prepostReceiveWorkRequests = true)
    (hwr : out.comm.recvWrId = s.comm.recvWrId) (hno : NoRecv out.posts)
    (hafter : s.afterCall cause posted id out = some t) :
    RqGood sh b t ∧ t.rq = s.rq ∧ t.cq = s.cq ∧ t.call = s.call := by
  have hmoved : RqGood sh b { s.posted posted id out.posts with comm := out.comm } :=
    { h with
      same := h.same.trans hsame
      prepost := hpre
      recvWrId := hwr.trans h.recvWrId
      rq := by
        simp only [RecvState.posted, hno.none, List.append_nil]
        exact h.rq
      sq := fun c hc => by
        rcases List.mem_append.mp hc with hc | hc
        · exact h.sq c hc
        · exact postCqes_opcode c hc }
  have hrq : (s.posted posted id out.posts).rq = s.rq := by
    simp only [RecvState.posted, hno.none, List.append_nil]
  unfold RecvState.afterCall at hafter
  simp only at hafter
  split at hafter
  · cases hafter
    exact ⟨hmoved, hrq, rfl, rfl⟩
  · cases hafter
  · cases hafter
    exact ⟨hmoved, hrq, rfl, rfl⟩
  · cases hafter
    exact ⟨{ hmoved with }, hrq, rfl, rfl⟩

/-- What the steps other than a piece of `ncclIbTest` keep. -/
structure KeepsReceives (s t : RecvState) : Prop where
  call : inHand t.call = inHand s.call
  receives : ∀ q, t.rq.countP (fun e => e.qp = q) + t.cq.countP (isReceiveOf q) =
    s.rq.countP (fun e => e.qp = q) + s.cq.countP (isReceiveOf q)

theorem RqGood.next (h : RqGood sh b s) {act : RecvAct} (hnext : s.next act = some t)
    (hact : ∀ env n, act ≠ .test env n) : RqGood sh b t ∧ KeepsReceives s t := by
  cases act with
  | test env n => exact absurd rfl (hact env n)
  | irecv env bufs =>
    simp only [RecvState.next] at hnext
    split at hnext
    · cases hnext
    obtain ⟨hno, hsame, hpre, hwr⟩ := irecv_noRecv h.prepost env bufs
    obtain ⟨hgood, hrq, hcq, hcall⟩ := h.afterCall hsame hpre hwr hno hnext
    exact ⟨hgood, by rw [hcall], fun q => by rw [hrq, hcq]⟩
  | iflush bufs =>
    have hsteady := next_steady hnext (fun _ _ hc => by cases hc)
    simp only [RecvState.next] at hnext
    split at hnext
    · cases hnext
    split at hnext
    · cases hnext
    rename_i t' hafter
    cases hnext
    have hcomm : t'.comm = (ncclIbIflush s.comm bufs).comm := by
      unfold RecvState.afterCall at hafter
      simp only at hafter
      split at hafter
      · rw [← Option.some.inj hafter]
      · cases hafter
      · rw [← Option.some.inj hafter]
      · rw [← Option.some.inj hafter]
    rw [hcomm] at hsteady
    obtain ⟨hgood, hrq, hcq, hcall⟩ := h.afterCall hsteady.same (hsteady.prepost.trans h.prepost)
      hsteady.recvWrId (iflush_noRecv s.comm bufs) hafter
    exact ⟨{ hgood with }, by rw [hcall], fun q => by rw [hrq, hcq]⟩
  | testBegin r =>
    simp only [RecvState.next] at hnext
    split at hnext
    · rename_i hidle
      cases hnext
      have harrived := h.arrived
      rw [hidle.1] at harrived
      refine ⟨{ h with arrived := harrived, polled := ?_ }, by rw [hidle.1]; rfl, fun q => rfl⟩
      intro r i k w wcs hcall
      cases hcall
    · cases hnext
  | complete q flush =>
    simp only [RecvState.next] at hnext
    split at hnext
    · cases hnext
    rename_i c sq hpop
    cases hnext
    have hperm := popFirst_perm hpop
    have hop := h.sq c (hperm.mem_iff.mpr (List.mem_cons_self ..))
    refine ⟨{ h with sq := ?_, arrived := ?_ }, rfl, fun q => ?_⟩
    · intro c' hc'
      exact h.sq c' (hperm.mem_iff.mpr (List.mem_cons_of_mem _ hc'))
    · intro c' hc' hop'
      rcases List.mem_append.mp hc' with hc' | hc'
      · rcases List.mem_append.mp hc' with hc' | hc'
        · exact h.arrived c' (List.mem_append_left _ hc') hop'
        · rw [List.mem_singleton.mp hc'] at hop'
          exact absurd hop' hop
      · exact h.arrived c' (List.mem_append_right _ hc') hop'
    · have hnot : isReceiveOf q c = false := by simp [isReceiveOf, hop]
      simp [List.countP_append, hnot]
  | deliver q =>
    simp only [RecvState.next] at hnext
    split at hnext
    · rename_i c data e rq hdata hrq
      cases hnext
      have hdperm := popFirst_perm hdata
      have hrperm := popFirst_perm hrq
      have hc := h.data c (hdperm.mem_iff.mpr (List.mem_cons_self ..))
      have hqp : c.qp = q := of_decide_eq_true (popFirst_split hdata).1
      have heq : e.qp = q := of_decide_eq_true (popFirst_split hrq).1
      refine ⟨{ h with data := ?_, rq := ?_, arrived := ?_ }, rfl, fun q' => ?_⟩
      · intro e' he'
        exact h.rq e' (hrperm.mem_iff.mpr (List.mem_cons_of_mem _ he'))
      · intro c' hc'
        exact h.data c' (hdperm.mem_iff.mpr (List.mem_cons_of_mem _ hc'))
      · intro c' hc' hop'
        rcases List.mem_append.mp hc' with hc' | hc'
        · rcases List.mem_append.mp hc' with hc' | hc'
          · exact h.arrived c' (List.mem_append_left _ hc') hop'
          · rw [List.mem_singleton.mp hc']
            -- The completion takes its number from the receive that it used up.
            exact ⟨⟨hc.qp, hc.dev, hc.qp_num, hc.success, hc.opcode⟩,
              h.rq e (hrperm.mem_iff.mpr (List.mem_cons_self ..))⟩
        · exact h.arrived c' (List.mem_append_right _ hc') hop'
      · rw [hrperm.countP_eq]
        by_cases hthis : q = q'
        · subst hthis
          simp [List.countP_append, isReceiveOf, hc.opcode, hqp, heq]
          omega
        · simp [List.countP_append, isReceiveOf, hqp, heq, hthis]
    · cases hnext
  | record slot sizes =>
    cases hnext
    exact ⟨{ h with same := h.same.trans ⟨rfl, rfl, rfl, rfl, rfl, rfl, rfl, rfl, rfl, rfl⟩ },
      rfl, fun q => rfl⟩

/-! ## A piece of ncclIbTest -/

theorem recvTest_conserves (env : NetEnv) (comm : NcclIbRecvComm) (cq : List Cqe) (call : TestCall)
    (n : Nat) : Conserves call cq (recvTest env comm cq call n) := by
  obtain ⟨r, pc⟩ := call
  cases pc with
  | top =>
    unfold recvTest
    simp only
    split
    · exact rfl
    split
    · exact ⟨rfl, rfl⟩
    · exact List.Perm.of_eq (List.append_nil _)
  | device i k => exact ncclIbTest_conserves env comm cq ⟨r, .device i k⟩ n
  | completions i k w wcs => exact ncclIbTest_conserves env comm cq ⟨r, .completions i k w wcs⟩ n

theorem recvTest_frame (env : NetEnv) (comm : NcclIbRecvComm) (cq : List Cqe) (call : TestCall)
    (n : Nat) : Steady comm (recvTest env comm cq call n).comm := by
  obtain ⟨r, pc⟩ := call
  cases pc with
  | top =>
    unfold recvTest
    simp only
    split
    · exact Steady.refl _
    split
    · exact ⟨⟨rfl, rfl, rfl, rfl, rfl, rfl, rfl, rfl, rfl, rfl⟩, rfl, rfl, rfl⟩
    · exact Steady.refl _
  | device i k => exact recvTest_steady env comm cq ⟨r, .device i k⟩ n
  | completions i k w wcs => exact recvTest_steady env comm cq ⟨r, .completions i k w wcs⟩ n

/-- The completions of a call were polled from the device that it stands at. -/
def PolledFrom : TestPc → Prop
  | .completions i _ _ wcs => ∀ c ∈ wcs, c.dev = i
  | _ => True

theorem recvTest_polled {env : NetEnv} {comm : NcclIbRecvComm} {cq : List Cqe} {call : TestCall}
    {n : Nat} {pc : TestPc} (h : PolledFrom call.pc)
    (hgo : (recvTest env comm cq call n).next = .go pc) : PolledFrom pc := by
  obtain ⟨r, pc0⟩ := call
  cases pc0 with
  | top =>
    unfold recvTest at hgo
    simp only at hgo
    split at hgo
    · cases hgo
    split at hgo
    · cases hgo
    · cases hgo
      trivial
  | device i k =>
    unfold recvTest ncclIbTest testDevice at hgo
    simp only at hgo
    split at hgo
    · split at hgo
      · cases hgo
        trivial
      · cases hgo
    split at hgo
    · cases hgo
      trivial
    · cases hgo
      intro c hc
      have hfit := popUpTo_fits _ cq _ c hc
      simp only [Bool.and_eq_true, decide_eq_true_eq] at hfit
      exact hfit.1
  | completions i k w wcs =>
    cases wcs with
    | nil =>
      unfold recvTest ncclIbTest at hgo
      simp only at hgo
      split at hgo
      · cases hgo
        trivial
      split at hgo
      · cases hgo
      · cases hgo
        trivial
    | cons c wcs =>
      unfold recvTest ncclIbTest testCompletion at hgo
      simp only at hgo
      split at hgo
      · cases hgo
      · cases hgo
        exact fun c' hc' => h c' (List.mem_cons_of_mem _ hc')

/-- A piece that processes no completion posts nothing. -/
theorem recvTest_idle {env : NetEnv} {comm : NcclIbRecvComm} {cq : List Cqe} {call : TestCall}
    {n : Nat} (h : inHand (some call) = []) : (recvTest env comm cq call n).posts = [] := by
  obtain ⟨r, pc⟩ := call
  cases pc with
  | top =>
    unfold recvTest
    simp only
    split
    · rfl
    split <;> rfl
  | device i k =>
    unfold recvTest ncclIbTest testDevice
    simp only
    split
    · rfl
    split <;> rfl
  | completions i k w wcs =>
    cases h
    unfold recvTest ncclIbTest
    simp only
    split
    · rfl
    split <;> rfl

/-- A piece that processes a completion posts what its processing posts. -/
theorem testCompletion_posts (env : NetEnv) (comm : NcclIbRecvComm) (cq : List Cqe) (i k w : Nat)
    (c : Cqe) (wcs : List Cqe) :
    (testCompletion env comm cq i k w c wcs).posts =
      if c.wc.success then (recvEventProcess env comm c.wc i).posts else [] := by
  unfold testCompletion
  simp only
  cases c.wc.success with
  | true =>
    simp only [if_true]
    split <;> rfl
  | false =>
    have hposts : (if c.wc.wr_id = NCCL_IB_SPEED_UPDATE_WR_ID then NetComm.speedUpdateFailed comm
        else ⟨comm, [], .error (.ret ncclRemoteError)⟩).posts = [] := by
      split <;> rfl
    simp only [Bool.false_eq_true, if_false]
    split <;> exact hposts

/-- A receive that is posted again has the number of all of them. -/
theorem recvEvent_recvs {env : NetEnv} {comm : NcclIbRecvComm} {wc : IbvWc} {dev q wr_id : Nat}
    (h : .recv q wr_id ∈ (recvEventProcess env comm wc dev).posts) : wr_id = comm.recvWrId := by
  by_cases hop : wc.opcode = IBV_WC_RECV_RDMA_WITH_IMM
  · unfold recvEventProcess at h
    split at h
    · cases h
    split at h
    · cases h
    · cases h
    rename_i i _
    rw [hop] at h
    simp only at h
    unfold recvData at h
    simp only at h
    split at h
    · cases h
    split at h
    · cases h
    have hmem : .recv q wr_id ∈ (repost (recordSize comm i wc) i wc dev).posts := by
      split at h <;> exact h
    rcases repost_cases (recordSize comm i wc) i dev wc with ⟨e, he⟩ | ⟨_, _, he, _, _, _, hall⟩
    · rw [he] at hmem
      cases hmem
    · rw [he] at hmem
      obtain ⟨q', hq'⟩ := hall _ hmem
      cases hq'
      exact (recordSize_frame comm i wc).2.2.2.2.1
  · exact absurd h (otherEvent_noRecv hop env dev q wr_id)

theorem recvTest_recvs (env : NetEnv) (comm : NcclIbRecvComm) (cq : List Cqe) (call : TestCall)
    (n : Nat) : ∀ e ∈ (recvTest env comm cq call n).posts.flatMap (postRecvs none),
      e.wr_id = comm.recvWrId := by
  intro e he
  obtain ⟨p, hp, hep⟩ := List.mem_flatMap.mp he
  cases p with
  | send p => cases hep
  | flush d wr => cases hep
  | recv q wr_id =>
    rw [List.mem_singleton.mp hep]
    by_cases hidle : inHand (some call) = []
    · rw [recvTest_idle hidle] at hp
      cases hp
    obtain ⟨r, pc⟩ := call
    cases pc with
    | top => exact absurd rfl hidle
    | device i k => exact absurd rfl hidle
    | completions i k w wcs =>
      cases wcs with
      | nil => exact absurd rfl hidle
      | cons c wcs =>
        rw [show (recvTest env comm cq ⟨r, .completions i k w (c :: wcs)⟩ n).posts = _ from
          testCompletion_posts env comm cq i k w c wcs] at hp
        split at hp
        · exact recvEvent_recvs hp
        · cases hp

/-- The receives that a piece posts on a QP are the completions of receives that it
processes there, when they find their requests. Otherwise one is missing. -/
theorem RqGood.test_posts (h : RqGood sh b s) (hfound : LookupComplete sh b) {call : TestCall}
    (hcall : s.call = some call) (env : NetEnv) (n : Nat) :
    let recvs := (recvTest env s.comm s.cq call n).posts.flatMap (postRecvs none)
    (NextFindsRequest s → ∀ q, recvs.countP (fun e => e.qp = q) =
      (handled call.pc).countP (isReceiveOf q)) ∧
    (¬ NextFindsRequest s → ∃ q < sh.nqps,
      recvs = [] ∧ (handled call.pc).countP (isReceiveOf q) = 1) := by
  have hidle : inHand (some call) = [] → handled call.pc = [] →
      let recvs := (recvTest env s.comm s.cq call n).posts.flatMap (postRecvs none)
      (NextFindsRequest s → ∀ q, recvs.countP (fun e => e.qp = q) =
        (handled call.pc).countP (isReceiveOf q)) ∧
      (¬ NextFindsRequest s → ∃ q < sh.nqps,
        recvs = [] ∧ (handled call.pc).countP (isReceiveOf q) = 1) := by
    intro hhand hhandled
    rw [recvTest_idle hhand, hhandled]
    refine ⟨fun _ q => rfl, fun hno => absurd ?_ hno⟩
    intro c hc
    rw [hcall, hhand] at hc
    cases hc
  obtain ⟨r, pc⟩ := call
  cases pc with
  | top => exact hidle rfl rfl
  | device i k => exact hidle rfl rfl
  | completions i k w wcs =>
    cases wcs with
    | nil => exact hidle rfl rfl
    | cons c wcs =>
      clear hidle
      have hposts : (recvTest env s.comm s.cq ⟨r, .completions i k w (c :: wcs)⟩ n).posts =
          if c.wc.success then (recvEventProcess env s.comm c.wc i).posts else [] :=
        testCompletion_posts env s.comm s.cq i k w c wcs
      have hguard : NextFindsRequest s ↔
          (c.wc.opcode = IBV_WC_RECV_RDMA_WITH_IMM → FindsOpenRequest s.comm c.wc) := by
        unfold NextFindsRequest
        rw [hcall]
        exact ⟨fun hg => hg c rfl, fun hg c' hc' => by cases hc'; exact hg⟩
      rw [hposts, hguard]
      simp only [handled]
      by_cases hop : c.wc.opcode = IBV_WC_RECV_RDMA_WITH_IMM
      · have hmem : c ∈ s.cq ++ inHand s.call := by
          rw [hcall]
          exact List.mem_append_right _ (List.mem_cons_self ..)
        obtain ⟨hpeer, hid⟩ := h.arrived c hmem hop
        have hdev : i = (s.comm.base.qps c.qp).devIndex := by
          rw [h.same.qps, ← hpeer.dev, h.polled r i k w _ hcall c (List.mem_cons_self ..)]
        obtain ⟨hopen, hclosed⟩ := receive_posts h.prepost (h.same.lookupComplete hfound) hpeer.qp
          hop hid (by rw [h.same.qps]; exact hpeer.qp_num) env
        rw [if_pos hpeer.success, hdev]
        constructor
        · intro hg q
          rw [(hopen (hg hop)).2]
          by_cases hq : c.qp = q
          · simp [postRecvs, isReceiveOf, hop, hq]
          · simp [postRecvs, isReceiveOf, hq]
        · intro hno
          refine ⟨c.qp, hpeer.qp, ?_, by simp [isReceiveOf, hop]⟩
          rw [hclosed (fun hf => hno (fun _ => hf))]
          rfl
      · constructor
        · intro _ q
          have hnone : isReceiveOf q c = false := by simp [isReceiveOf, hop]
          have hno : NoRecv (if c.wc.success then (recvEventProcess env s.comm c.wc i).posts
              else []) := by
            split
            · exact otherEvent_noRecv hop env i
            · exact noRecv_nil
          simp [hno.none, hnone]
        · exact fun hno => absurd (fun hc => absurd hc hop) hno

/-- What a piece does to the state. -/
theorem afterTest_fields {call : TestCall} {out : TestOut NcclIbRecvComm}
    (hafter : s.afterTest call out = some t) :
    t.rq = s.rq ++ out.posts.flatMap (postRecvs none) ∧
      t.sq = s.sq ++ out.posts.flatMap (postCqes s.comm.base .speed) ∧
      t.data = s.data ∧ t.cq = out.cq ∧ t.comm = out.comm ∧
      t.call = (match out.next with
        | .go pc => some ⟨call.r, pc⟩
        | .ret _ => none) := by
  unfold RecvState.afterTest at hafter
  simp only at hafter
  split at hafter
  · rename_i pc hgo
    cases hafter
    exact ⟨rfl, rfl, rfl, rfl, rfl, by rw [hgo]⟩
  · rename_i e hret
    cases hafter
    exact ⟨rfl, rfl, rfl, rfl, rfl, by rw [hret]⟩
  · cases hafter
  · rename_i hret
    cases hafter
    exact ⟨rfl, rfl, rfl, rfl, rfl, by rw [hret]⟩
  · rename_i sizes hret
    cases hafter
    exact ⟨rfl, rfl, rfl, rfl, rfl, by rw [hret]⟩

/-- A piece loses no completion: the one that it processes, the ones that it leaves
behind and all others are those of before. -/
theorem afterTest_pending {call : TestCall} {out : TestOut NcclIbRecvComm}
    (hcall : s.call = some call) (hcons : Conserves call s.cq out)
    (hafter : s.afterTest call out = some t) :
    (t.cq ++ inHand t.call ++ (if t.call.isNone then (inHand (some call)).tail else []) ++
      handled call.pc).Perm (s.cq ++ inHand s.call) := by
  obtain ⟨-, -, -, hcq, -, hto⟩ := afterTest_fields hafter
  have hsplit : (inHand (some call)).tail ++ handled call.pc |>.Perm (inHand (some call)) := by
    obtain ⟨r, pc⟩ := call
    cases pc with
    | top => exact List.Perm.refl _
    | device i k => exact List.Perm.refl _
    | completions i k w wcs =>
      cases wcs with
      | nil => exact List.Perm.refl _
      | cons c wcs => exact List.perm_append_comm
  unfold Conserves at hcons
  rw [hcq, hto, hcall]
  cases hnext : out.next with
  | go pc =>
    rw [hnext] at hcons
    simpa using hcons
  | ret res =>
    rw [hnext] at hcons
    simp only [inHand, Option.isNone_none, if_true, List.append_nil, List.append_assoc]
    cases res with
    | error e =>
      rw [show out.cq = s.cq from hcons]
      exact List.Perm.append_left _ hsplit
    | ok o =>
      rw [show out.cq = s.cq from hcons.1]
      exact List.Perm.append_left _ hsplit

/-- A piece of `ncclIbTest` keeps the invariant. -/
theorem RqGood.test (h : RqGood sh b s) {call : TestCall} (hcall : s.call = some call) {env : NetEnv}
    {n : Nat} (hafter : s.afterTest call (recvTest env s.comm s.cq call n) = some t) :
    RqGood sh b t := by
  obtain ⟨hrq, hsq, hdata, hcq, hcomm, hto⟩ := afterTest_fields hafter
  have hsteady := recvTest_frame env s.comm s.cq call n
  have hpending := afterTest_pending hcall (recvTest_conserves env s.comm s.cq call n) hafter
  rw [← hcomm] at hsteady
  refine
    { same := h.same.trans hsteady.same
      prepost := hsteady.prepost.trans h.prepost
      recvWrId := hsteady.recvWrId.trans h.recvWrId
      rq := ?_
      sq := ?_
      data := by
        rw [hdata]
        exact h.data
      arrived := ?_
      polled := ?_ }
  · rw [hrq]
    intro e he
    rcases List.mem_append.mp he with he | he
    · exact h.rq e he
    · exact (recvTest_recvs env s.comm s.cq call n e he).trans h.recvWrId
  · rw [hsq]
    intro c hc
    rcases List.mem_append.mp hc with hc | hc
    · exact h.sq c hc
    · exact postCqes_opcode c hc
  · intro c hc
    exact h.arrived c (hpending.mem_iff.mp (List.mem_append_left _ (List.mem_append_left _ hc)))
  · intro r i k w wcs hnew
    have hfrom : PolledFrom call.pc := by
      obtain ⟨r', pc⟩ := call
      cases pc with
      | top => trivial
      | device i k => trivial
      | completions i k w wcs => exact h.polled r' i k w wcs hcall
    rw [hto] at hnew
    split at hnew
    · rename_i pc hgo
      cases hnew
      exact recvTest_polled hfrom hgo
    · cases hnew

/-! ## The runs keep the receives -/

/-- A step keeps the invariant. It keeps the receives of every QP when it meets the
guard, and loses one when it does not. -/
theorem RqGood.step {x y : RqRun} (h : RqGood sh b x.s) (hfound : LookupComplete sh b) {act : RqAct}
    (hnext : x.next sh act = some y) :
    RqGood sh b y.s ∧
      (ReceiveFindsRequest act x → ∀ q, y.receives q = x.receives q) ∧
      (¬ ReceiveFindsRequest act x → ∃ q < sh.nqps, y.receives q + 1 = x.receives q) := by
  cases act with
  | arrives q imm_data byte_len =>
    simp only [RqRun.next] at hnext
    split at hnext
    · rename_i hq
      cases hnext
      refine ⟨{ h with data := ?_ }, fun _ _ => rfl, fun hno => absurd trivial hno⟩
      intro c hc
      rcases List.mem_append.mp hc with hc | hc
      · exact h.data c hc
      · rw [List.mem_singleton.mp hc]
        exact ⟨hq, by rw [h.same.qps], by rw [h.same.qps], rfl, rfl⟩
    · cases hnext
  | act act =>
    by_cases hact : ∀ env n, act ≠ .test env n
    · have hplain : (x.s.next act).map (fun t => { x with s := t }) = some y := by
        cases act with
        | test env n => exact absurd rfl (hact env n)
        | _ => exact hnext
      have hguard : ReceiveFindsRequest (.act act) x := by
        cases act with
        | test env n => exact absurd rfl (hact env n)
        | _ => trivial
      obtain ⟨t, ht, rfl⟩ := Option.map_eq_some_iff.mp hplain
      obtain ⟨hgood, hkeeps⟩ := h.next ht hact
      refine ⟨hgood, fun _ q => ?_, fun hno => absurd hguard hno⟩
      have hreceives := hkeeps.receives q
      simp only [RqRun.receives, List.countP_append, hkeeps.call]
      omega
    · simp only [not_forall, not_not] at hact
      obtain ⟨env, n, rfl⟩ := hact
      simp only [RqRun.next] at hnext
      split at hnext
      · cases hnext
      rename_i call hcall
      split at hnext
      · cases hnext
      rename_i t hafter
      cases hnext
      obtain ⟨hrq, _⟩ := afterTest_fields hafter
      have hpending := afterTest_pending hcall (recvTest_conserves env x.s.comm x.s.cq call n) hafter
      obtain ⟨hopen, hclosed⟩ := h.test_posts hfound hcall env n
      have hcount : ∀ q,
          (t.cq ++ inHand t.call ++ (x.left ++ if t.call.isNone then (inHand (some call)).tail
            else [])).countP (isReceiveOf q) + (handled call.pc).countP (isReceiveOf q) =
          (x.s.cq ++ inHand x.s.call ++ x.left).countP (isReceiveOf q) := by
        intro q
        have := hpending.countP_eq (isReceiveOf q)
        simp only [List.countP_append] at this ⊢
        omega
      refine ⟨h.test hcall hafter, fun hg q => ?_, fun hno => ?_⟩
      · have hposts := hopen hg q
        have := hcount q
        simp only [RqRun.receives, hrq]
        rw [List.countP_append]
        omega
      · obtain ⟨q, hq, hnone, hone⟩ := hclosed hno
        have := hcount q
        refine ⟨q, hq, ?_⟩
        simp only [RqRun.receives, hrq, hnone, List.append_nil]
        omega

theorem rqGood_reachable {n : Nat} {x : RqRun} (hdvd : sh.ndevs ∣ sh.nqps)
    (hr : Reachable (rqSystem sh n ReceiveFindsRequest) x) :
    ∃ b, LookupComplete sh b ∧ RqGood sh b x.s ∧ ∀ q < sh.nqps, x.receives q = n := by
  refine hr.invariant (P := fun x => ∃ b, LookupComplete sh b ∧ RqGood sh b x.s ∧
    ∀ q < sh.nqps, x.receives q = n) (fun x hinit => ?_) ?_
  · refine ⟨x.s.comm.base, lookup_complete_of_dvd hinit.striped hinit.distinct hdvd, ?_, ?_⟩
    · exact
        { same := SameBase.refl _
          prepost := hinit.prepost
          recvWrId := hinit.recvWrId
          rq := hinit.rq
          sq := by rw [hinit.sq]; simp
          data := by rw [hinit.data]; simp
          arrived := by rw [hinit.cq, hinit.call]; simp [inHand]
          polled := by rw [hinit.call]; simp }
    · intro q hq
      unfold RqRun.receives
      rw [hinit.cq, hinit.call, hinit.left, hinit.posted q hq]
      rfl
  · rintro x y _ ⟨b, hfound, hgood, hcount⟩ ⟨act, hguard, hnext⟩
    obtain ⟨hgood', hkeeps, _⟩ := hgood.step hfound hnext
    exact ⟨b, hfound, hgood', fun q hq => (hkeeps hguard q).trans (hcount q hq)⟩

end

/-! ## The law -/

/-- While every completion of a receive finds its request open, the receives of each
QP stay as many as were preposted. The first one that does not find it takes one
away for good. -/
theorem receives_stay_while_their_requests_are_open (sh : Shape) (n : Nat) (x : RqRun)
    (hdvd : sh.ndevs ∣ sh.nqps) (hr : Reachable (rqSystem sh n ReceiveFindsRequest) x) :
    (∀ q < sh.nqps, x.receives q = n) ∧ ∀ act y, x.next sh act = some y →
      ((∀ q < sh.nqps, y.receives q = n) ↔ ReceiveFindsRequest act x) := by
  obtain ⟨b, hfound, hgood, hcount⟩ := rqGood_reachable hdvd hr
  refine ⟨hcount, fun act y hnext => ⟨fun hall => ?_, fun hguard q hq => ?_⟩⟩
  · by_contra hno
    obtain ⟨q, hq, hlost⟩ := (hgood.step hfound hnext).2.2 hno
    have := hall q hq
    have := hcount q hq
    omega
  · rw [(hgood.step hfound hnext).2.1 hguard q, hcount q hq]

/-- A comm of one QP with a resiliency context, and its 256 preposted receives. -/
def startRq : RqRun where
  s := { startRecv Shape.one with
    comm := { freshRecv Shape.one true with
      base := { freshBase Shape.one false with resiliency := true } }
    rq := List.replicate 256 ⟨0, NCCL_IB_RECV_WR_ID_DUMMY, none⟩ }
  left := []

theorem init_startRq : RqRun.Init Shape.one 256 startRq where
  striped := { striped_freshBase Shape.one false with }
  distinct := distinctQpNums_freshBase Shape.one false
  prepost := rfl
  recvWrId := rfl
  size := by decide
  posted := fun q hq => by
    obtain rfl : q = 0 := Nat.lt_one_iff.mp hq
    exact List.countP_replicate
  rq := fun e he => by rw [List.eq_of_mem_replicate he]
  call := rfl
  sq := rfl
  data := rfl
  cq := rfl
  left := rfl

/-- Two receives. The data of both arrives, and both are tested until they are done. -/
def twoDone : List RqAct :=
  let test := fun n => RqAct.act (.test plainEnv n)
  let irecv := RqAct.act (.irecv plainEnv [⟨0, 8, 0, fun _ => 0⟩])
  let tests := [test 0, test 1, test 0, test 0, test 0, test 0]
  [irecv, irecv, .arrives 0 0 8, .arrives 0 1 8, .act (.deliver 0), .act (.testBegin 0)] ++ tests ++
    [.act (.deliver 0), .act (.testBegin 1)] ++ tests

/-- Both receives were used by the data and posted again. -/
theorem two_done_receives_are_there : ∃ x, Reachable (rqSystem Shape.one 256 ReceiveFindsRequest) x ∧
    x.s.reported = [.data 0, .data 1] ∧ x.receives 0 = 256 := by
  have hrun : (follow (fun act x => if ReceiveFindsRequest act x then x.next Shape.one act else none)
      twoDone startRq).map (fun x => x.s.reported) = some [.data 0, .data 1] := by
    decide +kernel
  obtain ⟨x, hx, hreported⟩ := Option.map_eq_some_iff.mp hrun
  have hsteps : ∀ act x y, (if ReceiveFindsRequest act x then x.next Shape.one act else none) =
      some y → (rqSystem Shape.one 256 ReceiveFindsRequest).step x y := by
    intro act x y hnext
    split at hnext
    · rename_i hguard
      exact ⟨act, hguard, hnext⟩
    · cases hnext
  have hstart : Reachable (rqSystem Shape.one 256 ReceiveFindsRequest) startRq :=
    Reachable.init init_startRq
  have hr := hstart.follow hsteps hx
  exact ⟨x, hr, hreported,
    (receives_stay_while_their_requests_are_open Shape.one 256 x (by decide) hr).1 0 (by decide)⟩

/-- Two receives. The data of the first arrives, the first is done, and its data
arrives once more, as that of a send that was posted again. -/
def lateDuplicate : List RqAct :=
  let test := fun n => RqAct.act (.test plainEnv n)
  let irecv := RqAct.act (.irecv plainEnv [⟨0, 8, 0, fun _ => 0⟩])
  [irecv, irecv,
    .arrives 0 0 8, .act (.deliver 0), .act (.testBegin 0), test 0, test 1, test 0, test 0, test 0,
    test 0,
    .arrives 0 0 8, .act (.deliver 0), .act (.testBegin 1), test 0, test 1, test 0]

/-- The duplicate finds no open request, and QP 0 has 255 receives from then on. -/
theorem a_late_duplicate_takes_a_receive_away :
    ¬ ∀ (sh : Shape) (n : Nat) (x : RqRun), sh.ndevs ∣ sh.nqps →
      Reachable (rqSystem sh n (fun _ _ => True)) x → ∀ q < sh.nqps, x.receives q = n := by
  intro h
  have hrun : (follow (RqRun.next Shape.one) lateDuplicate startRq).map
      (fun x => x.receives 0) = some 255 := by
    decide +kernel
  obtain ⟨x, hx, hcount⟩ := Option.map_eq_some_iff.mp hrun
  have hstart : Reachable (rqSystem Shape.one 256 (fun _ _ => True)) startRq :=
    Reachable.init init_startRq
  have hsteps : ∀ act x y, RqRun.next Shape.one act x = some y →
      (rqSystem Shape.one 256 (fun _ _ => True)).step x y :=
    fun act _ _ hnext => ⟨act, trivial, hnext⟩
  have hr := hstart.follow hsteps hx
  have := h Shape.one 256 x (by decide) hr 0 (by decide)
  omega

end net_ib.p2p
