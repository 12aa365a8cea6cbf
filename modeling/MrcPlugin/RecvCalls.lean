-- What one call of ncclIbIrecv or ncclIbIflush can do, and that it keeps the
-- invariant of a receive comm. A group may only take a slot whose earlier group
-- is reported done.
import MrcPlugin.RecvSteps

namespace net_ib.p2p

open queues counts

/-! ## A request is opened -/

/-- A call opens request `i` for `k`. -/
structure Opens (sh : Shape) (b0 : NcclIbNetCommBase) (s t : RecvState) (k : Cause) (i : Nat) :
    Prop where
  index : i < NET_IB_MAX_REQUESTS
  unused : (s.comm.base.reqs i).type = NCCL_NET_IB_REQ_UNUSED
  fresh : ¬ s.issued k
  issued : ∀ k', t.issued k' ↔ s.issued k' ∨ k' = k
  counted : k.counted = true
  reqs : ∀ j, j ≠ i → t.comm.base.reqs j = s.comm.base.reqs j
  type : (t.comm.base.reqs i).type = k.reqType
  events : ∀ d, (t.comm.base.reqs i).events d = totalFor sh b0 k d
  reqFor : t.reqFor = Function.update s.reqFor i k
  reported : t.reported = s.reported
  processed : t.processed = s.processed
  lost : t.lost = s.lost
  newSlot : ∀ id, k = .data id →
    t.comm.recvReqs (slotOf id) = some i ∧ (t.comm.base.reqs i).id = id
  slots : ∀ id < s.comm.base.fifoHead, .data id ∉ s.reported →
    t.comm.recvReqs (slotOf id) = s.comm.recvReqs (slotOf id)

theorem Cause.reqType_ne {k : Cause} (hk : k.counted = true) :
    k.reqType ≠ NCCL_NET_IB_REQ_UNUSED := by
  cases k with
  | data id => simp [Cause.reqType]
  | flush n => simp [Cause.reqType]
  | cts id => cases hk
  | speed => cases hk

section
variable {sh : Shape} {b0 : NcclIbNetCommBase} {pre : Bool} {s t : RecvState} {k : Cause} {i : Nat}

theorem RecvState.issued.counted {k : Cause} (h : s.issued k) : k.counted = true := by
  cases k with
  | data id => rfl
  | flush n => rfl
  | cts id => exact h.elim
  | speed => exact h.elim

theorem Opens.new (ht : Opens sh b0 s t k i) : t.reqFor i = k := by
  rw [ht.reqFor, Function.update_self]

theorem Opens.old (ht : Opens sh b0 s t k i) {j : Nat} (hj : j ≠ i) : t.reqFor j = s.reqFor j := by
  rw [ht.reqFor, Function.update_of_ne hj]

/-- A request in use is another one. -/
theorem Opens.ne (ht : Opens sh b0 s t k i) {j : Nat}
    (hj : (s.comm.base.reqs j).type ≠ NCCL_NET_IB_REQ_UNUSED) : j ≠ i := by
  rintro rfl
  exact hj ht.unused

theorem Opens.not_reported (h : RecvGood sh b0 pre s) (ht : Opens sh b0 s t k i) :
    k ∉ s.reported := fun hrep =>
  ht.fresh (h.issued_of_started (h.reported k hrep).2.1)

theorem Opens.live (h : RecvGood sh b0 pre s) (ht : Opens sh b0 s t k i) :
    ∀ j < NET_IB_MAX_REQUESTS, (t.comm.base.reqs j).type ≠ NCCL_NET_IB_REQ_UNUSED →
      t.issued (t.reqFor j) ∧ t.reqFor j ∉ t.reported ∧
        (t.comm.base.reqs j).type = (t.reqFor j).reqType ∧
        ∀ id, t.reqFor j = .data id →
          t.comm.recvReqs (slotOf id) = some j ∧ (t.comm.base.reqs j).id = id := by
  intro j hj hl
  by_cases hji : j = i
  · subst hji
    rw [ht.new, ht.reported]
    exact ⟨(ht.issued k).mpr (.inr rfl), ht.not_reported h, ht.type, ht.newSlot⟩
  · rw [ht.reqs j hji] at hl
    obtain ⟨h1, h2, h3, h4⟩ := h.live j hj hl
    rw [ht.old hji, ht.reported, ht.reqs j hji]
    refine ⟨(ht.issued _).mpr (.inl h1), h2, h3, fun id hid => ?_⟩
    rw [hid] at h1 h2
    rw [ht.slots id h1 h2]
    exact h4 id hid

theorem Opens.known (h : RecvGood sh b0 pre s) (ht : Opens sh b0 s t k i) :
    ∀ k', t.issued k' → k' ∉ t.reported →
      ∃ j < NET_IB_MAX_REQUESTS, (t.comm.base.reqs j).type = k'.reqType ∧ t.reqFor j = k' := by
  intro k' hk' hrep
  rw [ht.reported] at hrep
  rcases (ht.issued k').mp hk' with hs | rfl
  · obtain ⟨j, hj, htype, hfor⟩ := h.known k' hs hrep
    have hji : j ≠ i := ht.ne (htype ▸ Cause.reqType_ne hs.counted)
    exact ⟨j, hj, (congrArg _ (ht.reqs j hji)).trans htype, (ht.old hji).trans hfor⟩
  · exact ⟨i, ht.index, ht.type, ht.new⟩

theorem Opens.one_req (h : RecvGood sh b0 pre s) (ht : Opens sh b0 s t k i) :
    ∀ j < NET_IB_MAX_REQUESTS, ∀ j' < NET_IB_MAX_REQUESTS,
      (t.comm.base.reqs j).type ≠ NCCL_NET_IB_REQ_UNUSED →
      (t.comm.base.reqs j').type ≠ NCCL_NET_IB_REQ_UNUSED → t.reqFor j = t.reqFor j' → j = j' := by
  intro j hj j' hj' hl hl' he
  have hfresh : ∀ l < NET_IB_MAX_REQUESTS, l ≠ i →
      (t.comm.base.reqs l).type ≠ NCCL_NET_IB_REQ_UNUSED → t.reqFor l ≠ k := by
    intro l hl hli hlive hfor
    rw [ht.reqs l hli] at hlive
    rw [ht.old hli] at hfor
    exact ht.fresh (hfor ▸ (h.live l hl hlive).1)
  by_cases hji : j = i <;> by_cases hji' : j' = i
  · rw [hji, hji']
  · rw [hji, ht.new] at he
    exact absurd he.symm (hfresh j' hj' hji' hl')
  · rw [hji', ht.new] at he
    exact absurd he (hfresh j hj hji hl)
  · rw [ht.reqs j hji] at hl
    rw [ht.reqs j' hji'] at hl'
    rw [ht.old hji, ht.old hji'] at he
    exact h.one_req j hj j' hj' hl hl' he

/-- Nothing of the new call is anywhere yet. -/
theorem Opens.untouched (h : RecvGood sh b0 pre s) (ht : Opens sh b0 s t k i) (d : Nat) :
    s.pend.countP (causedBy k d) = 0 ∧ s.processed.countP (causedBy k d) = 0 ∧
      s.lost.countP (causedBy k d) = 0 := by
  have hcons := h.conserved k ht.counted d
  rw [if_neg (fun hs => ht.fresh (h.issued_of_started hs))] at hcons
  omega

theorem Opens.open_events (h : RecvGood sh b0 pre s) (ht : Opens sh b0 s t k i) :
    ∀ j < NET_IB_MAX_REQUESTS, (t.comm.base.reqs j).type ≠ NCCL_NET_IB_REQ_UNUSED →
      ∀ d, (t.comm.base.reqs j).events d =
        (totalFor sh b0 (t.reqFor j) d : Int) - t.processed.countP (causedBy (t.reqFor j) d) := by
  intro j hj hl d
  rw [ht.processed]
  by_cases hji : j = i
  · subst hji
    rw [ht.events, ht.new, (ht.untouched h d).2.1]
    omega
  · rw [ht.reqs j hji] at hl
    rw [ht.reqs j hji, ht.old hji]
    exact h.events j hj hl d

/-- The completions that were there before still find their requests. -/
theorem Opens.keep (ht : Opens sh b0 s t k i)
    (hfifo : s.comm.base.fifoHead ≤ t.comm.base.fifoHead) {c : Cqe} (hc : CqeOk sh b0 pre s c) :
    CqeOk sh b0 pre t c := by
  refine hc.keep hfifo (fun n _ j _ htype hfor => ?_)
  have hji : j ≠ i := ht.ne (by rw [htype]; simp)
  exact ⟨(congrArg _ (ht.reqs j hji)).trans htype, (ht.old hji).trans hfor⟩

end

/-! ## ncclIbIrecv -/

/-- A call of `ncclIbIrecv` that returns request `i`: what it does to the comm. -/
structure IrecvDoes (sh : Shape) (b0 : NcclIbNetCommBase) (comm : NcclIbRecvComm)
    (bufs : List RecvBuffer) (i : Nat) (comm' : NcclIbRecvComm) : Prop where
  index : i < NET_IB_MAX_REQUESTS
  unused : (comm.base.reqs i).type = NCCL_NET_IB_REQ_UNUSED
  length_le : bufs.length ≤ NCCL_NET_IB_MAX_RECVS
  same : SameBase comm.base comm'.base
  fifoHead : comm'.base.fifoHead = comm.base.fifoHead + 1
  reqs : ∀ j, j ≠ i → comm'.base.reqs j = comm.base.reqs j
  type : (comm'.base.reqs i).type = NCCL_NET_IB_REQ_RECV
  id : (comm'.base.reqs i).id = comm.base.fifoHead
  events : ∀ d, (comm'.base.reqs i).events d = totalFor sh b0 (.data comm.base.fifoHead) d
  recvReqs : comm'.recvReqs =
    Function.update comm.recvReqs (slotOf comm.base.fifoHead) (some i)
  prepost : comm'.prepostReceiveWorkRequests = comm.prepostReceiveWorkRequests
  recvWrId : comm.prepostReceiveWorkRequests = true → comm'.recvWrId = comm.recvWrId
  elems : comm'.remCtsFifo.elems = Function.update comm.remCtsFifo.elems
    (slotOf comm.base.fifoHead) (fillElems comm.base.ndevs comm.base.fifoHead
      (comm.remCtsFifo.elems (slotOf comm.base.fifoHead)) bufs)
  addr : comm'.remCtsFifo.addr = comm.remCtsFifo.addr
  elemsAddr : comm'.remCtsFifo.elemsAddr = comm.remCtsFifo.elemsAddr

/-- The bytes of one slot of the CTS FIFO. -/
def rowBytes : Nat := NCCL_NET_IB_MAX_RECVS * sizeofSendFifo

/-- What a call of `ncclIbIrecv` for `n` buffers posts: the receives of the group,
unless they are preposted, and one CTS message of its `n` elements. -/
def IrecvPosts (sh : Shape) (b0 : NcclIbNetCommBase) (comm : NcclIbRecvComm) (n : Nat)
    (posts : List RecvPost) : Prop :=
  ∃ p wr, posts = (if comm.prepostReceiveWorkRequests then []
      else (qpsOf sh b0 comm.base.fifoHead).map (fun q =>
        RecvPost.recv q.1 (slotOf comm.base.fifoHead))) ++ [.send ⟨p, [wr]⟩] ∧
    (wr.signaled = true → wr.wr_id = slotOf comm.base.fifoHead) ∧
    wr.remote_addr = (comm.remCtsFifo.addr + slotOf comm.base.fifoHead * rowBytes) % 2 ^ 64 ∧
    wr.sge.addr = (comm.remCtsFifo.elemsAddr + slotOf comm.base.fifoHead * rowBytes) % 2 ^ 64 ∧
    wr.sge.length = n * sizeofSendFifo

section
variable {sh : Shape} {b0 : NcclIbNetCommBase} {comm : NcclIbRecvComm}

/-- The CTS message has a QP. -/
theorem postFifo_cases {req : NcclIbRequest} {slot : Nat} {res : Except Stop SendPost}
    (h : ncclIbPostFifo comm req slot = res) (hb : PlainBase sh comm.base) :
    ∃ p wr, res = .ok ⟨p, [wr]⟩ ∧ (wr.signaled = true → wr.wr_id = slot) ∧
      wr.remote_addr = (comm.remCtsFifo.addr + slot * rowBytes) % 2 ^ 64 ∧
      wr.sge.addr = (comm.remCtsFifo.elemsAddr + slot * rowBytes) % 2 ^ 64 ∧
      wr.sge.length = req.nreqs * sizeofSendFifo := by
  subst h
  have hdev : req.id % 2 ^ 32 % comm.base.ndevs < sh.ndevs := by
    rw [hb.striped.ndevs]
    exact Nat.mod_lt _ sh.ndevs_pos
  have hlt : req.id % 2 ^ 32 % comm.base.ndevs < sh.nqps :=
    Nat.lt_of_lt_of_le hdev (Nat.le_trans sh.ndevs_le_nDataQps sh.nDataQps_le_nqps)
  have hqp : ncclIbRecvCommGetQpForCts comm.base req.id =
      .ok (req.id % 2 ^ 32 % comm.base.ndevs) := by
    have hget : ncclIbCommBaseGetQpByIndex comm.base (req.id % 2 ^ 32 % comm.base.ndevs) 0 =
        .ok (some (req.id % 2 ^ 32 % comm.base.ndevs)) := by
      unfold ncclIbCommBaseGetQpByIndex
      rw [if_neg (Nat.not_le_of_lt (hb.striped.ndevs ▸ hdev)), Nat.mul_zero, Nat.zero_add,
        hb.active _ hlt]
    unfold ncclIbRecvCommGetQpForCts
    simp only
    rw [hget]
    rfl
  unfold ncclIbPostFifo
  rw [hqp]
  refine ⟨_, _, rfl, ?_, by rw [rowBytes, ← Nat.mul_assoc], by rw [rowBytes, ← Nat.mul_assoc], rfl⟩
  intro hsig
  have hsig : slot = (comm.base.qps (req.id % 2 ^ 32 % comm.base.ndevs)).devIndex ∨
      comm.base.resiliency = true := of_decide_eq_true hsig
  simp only
  rw [if_pos hsig]

theorem irecv_cases (hb : PlainBase sh b0) (hsame : SameBase b0 comm.base) (env : NetEnv)
    (bufs : List RecvBuffer) :
    (ncclIbIrecv env comm bufs).comm = comm ∧ (ncclIbIrecv env comm bufs).posts = [] ∧
        (∀ i, (ncclIbIrecv env comm bufs).ret ≠ .ok (some i)) ∨
      ∃ i, (ncclIbIrecv env comm bufs).ret = .ok (some i) ∧
        IrecvDoes sh b0 comm bufs i (ncclIbIrecv env comm bufs).comm ∧
        IrecvPosts sh b0 comm bufs.length (ncclIbIrecv env comm bufs).posts := by
  have hplain := hb.same hsame
  unfold ncclIbIrecv
  simp only
  split
  · exact .inl ⟨rfl, rfl, fun i hc => by cases hc⟩
  split
  · exact .inl ⟨rfl, rfl, fun i hc => by cases hc⟩
  rename_i hlen
  split
  · exact .inl ⟨rfl, rfl, fun i hc => by cases hc⟩
  rw [requestQps_eq hplain.striped hplain.isSome]
  simp only
  split
  · exact .inl ⟨rfl, rfl, fun i hc => by cases hc⟩
  rename_i base i hget
  obtain ⟨hi, hunused, hbase⟩ := getRequest_cases hget
  have hsame' : SameBase comm.base base := by
    rw [hbase]
    exact ⟨rfl, rfl, rfl, rfl, rfl, rfl, rfl, rfl, rfl, rfl⟩
  have hfifo : base.fifoHead = comm.base.fifoHead := by rw [hbase]
  have hreqs : base.reqs = Function.update comm.base.reqs i (clearCounters (comm.base.reqs i)) := by
    rw [hbase]
  clear hbase hget
  right
  split
  · rename_i e he
    obtain ⟨p, wr, hok, _⟩ := postFifo_cases he
      (hplain.same (hsame'.trans ⟨rfl, rfl, rfl, rfl, rfl, rfl, rfl, rfl, rfl, rfl⟩))
    cases hok
  rename_i cts hcts
  obtain ⟨p, wr, hok, hsig, hremote, hlocal, hlen⟩ := postFifo_cases hcts
    (hplain.same (hsame'.trans ⟨rfl, rfl, rfl, rfl, rfl, rfl, rfl, rfl, rfl, rfl⟩))
  cases hok
  clear hcts
  rw [hfifo] at hsig hremote hlocal ⊢
  have hnreqs : ∀ old devs, (recvRequest base old bufs.length devs).nreqs = bufs.length :=
    fun _ _ => (addEvents _ _).2.2.2.2.1
  refine ⟨i, rfl, ?_, ⟨p, wr, by rw [hsame.qpsOf], hsig, hremote, hlocal, by rw [hlen, hnreqs]⟩⟩
  exact
    { index := hi
      unused := hunused
      length_le := by omega
      same := hsame'.trans ⟨rfl, rfl, rfl, rfl, rfl, rfl, rfl, rfl, rfl, rfl⟩
      fifoHead := rfl
      reqs := fun j hj => by
        simp only [Function.update_of_ne hj, hreqs]
      type := by
        simp only [Function.update_self]
        exact (addEvents _ _).2.2.1
      id := by
        simp only [Function.update_self]
        exact (addEvents _ _).2.2.2.1.trans hfifo
      events := fun d => by
        simp only [Function.update_self]
        unfold recvRequest
        rw [(addEvents _ _).1 d]
        -- One completion on the device for each QP of the group that lies on it.
        simp only [hreqs, Function.update_self, clearCounters, totalFor, Int.zero_add]
        rw [hsame.qpsOf, hsame'.qps, hsame.qps, List.count_eq_countP, List.countP_map]
        congr 2
      recvReqs := rfl
      prepost := rfl
      recvWrId := fun hpre => by simp [hpre]
      elems := by rw [hsame'.ndevs]
      addr := rfl
      elemsAddr := rfl }

end

/-- The state after a call of `ncclIbIrecv` that returned request `i`. -/
structure Receives (sh : Shape) (b0 : NcclIbNetCommBase) (s t : RecvState) (bufs : List RecvBuffer)
    (i : Nat) (cqes : List Cqe) (recvs : List RecvWr) : Prop where
  does : IrecvDoes sh b0 s.comm bufs i t.comm
  sq : t.sq = s.sq ++ cqes
  rq : t.rq = s.rq ++ recvs
  data : t.data = s.data
  cq : t.cq = s.cq
  reqFor : t.reqFor = Function.update s.reqFor i (.data s.comm.base.fifoHead)
  peerHead : t.peerHead = s.peerHead
  flushes : t.flushes = s.flushes
  reported : t.reported = s.reported
  processed : t.processed = s.processed
  lost : t.lost = s.lost
  call : t.call = s.call
  newSq : ∀ x ∈ cqes, x.cause = .cts s.comm.base.fifoHead ∧ x.wc.success = true ∧
    x.wc.opcode = IBV_WC_RDMA_WRITE ∧ x.wc.wr_id = slotOf s.comm.base.fifoHead
  newRq : recvs = if s.comm.prepostReceiveWorkRequests then []
    else (qpsOf sh b0 s.comm.base.fifoHead).map (fun q =>
      ⟨q.1, slotOf s.comm.base.fifoHead, some s.comm.base.fifoHead⟩)

section
variable {sh : Shape} {b0 : NcclIbNetCommBase} {pre : Bool} {s t : RecvState}

theorem irecv_next (h : RecvGood sh b0 pre s) {env : NetEnv} {bufs : List RecvBuffer}
    (hnext : s.next (.irecv env bufs) = some t) :
    (t = s ∧ ∀ i, (ncclIbIrecv env s.comm bufs).ret ≠ .ok (some i)) ∨
      s.call = none ∧ ∃ i cqes recvs, Receives sh b0 s t bufs i cqes recvs ∧
        (ncclIbIrecv env s.comm bufs).ret = .ok (some i) ∧
        t.comm = (ncclIbIrecv env s.comm bufs).comm ∧
        IrecvPosts sh b0 s.comm bufs.length (ncclIbIrecv env s.comm bufs).posts := by
  simp only [RecvState.next] at hnext
  split at hnext
  · cases hnext
  rename_i hcall
  have hcall : s.call = none := by simpa using hcall
  unfold RecvState.afterCall RecvState.posted at hnext
  rcases irecv_cases h.plain h.same env bufs with ⟨hcomm, hposts, hret⟩ |
    ⟨i, hret, hdoes, p, wr, hposts, hsig, hwr⟩
  · refine .inl ⟨?_, hret⟩
    simp only [hcomm, hposts, List.flatMap_nil, List.append_nil] at hnext
    split at hnext
    · exact (Option.some.inj hnext).symm
    · cases hnext
    · exact (Option.some.inj hnext).symm
    · rename_i hsome
      exact absurd hsome (hret _)
  · right
    simp only [hret] at hnext
    have ht := (Option.some.inj hnext).symm
    refine ⟨hcall, i,
      (ncclIbIrecv env s.comm bufs).posts.flatMap
        (postCqes s.comm.base (.cts s.comm.base.fifoHead)),
      (ncclIbIrecv env s.comm bufs).posts.flatMap (postRecvs (some s.comm.base.fifoHead)), ?_,
      hret, by rw [ht], p, wr, hposts, hsig, hwr⟩
    exact
      { does := by
          rw [ht]
          exact hdoes
        sq := by rw [ht]
        rq := by rw [ht]
        data := by rw [ht]
        cq := by rw [ht]
        reqFor := by rw [ht]
        peerHead := by rw [ht]
        flushes := by rw [ht]
        reported := by rw [ht]
        processed := by rw [ht]
        lost := by rw [ht]
        call := by rw [ht]
        newSq := by
          intro x hx
          obtain ⟨post, hpost, hxp⟩ := List.mem_flatMap.mp hx
          rw [hposts] at hpost
          rcases List.mem_append.mp hpost with hpost | hpost
          · split at hpost
            · cases hpost
            · obtain ⟨q, _, rfl⟩ := List.mem_map.mp hpost
              cases hxp
          · rw [List.mem_singleton.mp hpost] at hxp
            obtain ⟨wr', hwr', rfl⟩ := List.mem_map.mp hxp
            obtain ⟨hmem, hs⟩ := List.mem_filter.mp hwr'
            rw [List.mem_singleton.mp hmem] at hs ⊢
            exact ⟨rfl, rfl, rfl, hsig hs⟩
        newRq := by
          rw [hposts]
          split
          · rfl
          · rw [List.flatMap_append, List.flatMap_map, List.map_eq_flatMap]
            exact List.append_nil _ }

section
variable {bufs : List RecvBuffer} {i : Nat} {cqes : List Cqe} {recvs : List RecvWr}

/-- The completions of data and of flushes stay where they are. -/
theorem Receives.count (ht : Receives sh b0 s t bufs i cqes recvs) {k : Cause}
    (hk : k.counted = true) (d : Nat) :
    t.pend.countP (causedBy k d) = s.pend.countP (causedBy k d) := by
  have hzero : cqes.countP (causedBy k d) = 0 := by
    apply List.countP_eq_zero.mpr
    intro x hx hby
    have := (causedBy_iff.mp hby).1
    rw [(ht.newSq x hx).1] at this
    rw [← this] at hk
    cases hk
  unfold RecvState.pend
  rw [ht.data, ht.sq, ht.cq, ht.call]
  simp only [List.countP_append, hzero, Nat.add_zero]

/-- A new group takes a slot whose earlier groups are reported done. -/
theorem Receives.opens (ht : Receives sh b0 s t bufs i cqes recvs)
    (hfree : ∀ id < s.comm.base.fifoHead, slotOf id = slotOf s.comm.base.fifoHead →
      .data id ∈ s.reported) : Opens sh b0 s t (.data s.comm.base.fifoHead) i := by
  have hd := ht.does
  refine
    { index := hd.index, unused := hd.unused, fresh := Nat.lt_irrefl _
      issued := ?_, counted := rfl, reqs := hd.reqs, type := hd.type, events := hd.events
      reqFor := ht.reqFor, reported := ht.reported, processed := ht.processed, lost := ht.lost
      newSlot := ?_, slots := ?_ }
  · intro k
    unfold RecvState.issued
    rw [hd.fifoHead, ht.flushes]
    cases k with
    | data id =>
      simp
      omega
    | flush n => simp
    | cts id => simp
    | speed => simp
  · intro id hid
    cases hid
    rw [hd.recvReqs, Function.update_self]
    exact ⟨rfl, hd.id⟩
  · intro id hid hrep
    have hslot : slotOf id ≠ slotOf s.comm.base.fifoHead := fun hs => hrep (hfree id hid hs)
    rw [hd.recvReqs, Function.update_of_ne hslot]

theorem good_irecv (h : RecvGood sh b0 pre s) (ht : Receives sh b0 s t bufs i cqes recvs)
    (hcall : s.call = none)
    (hfree : ∀ id < s.comm.base.fifoHead, slotOf id = slotOf s.comm.base.fifoHead →
      .data id ∈ s.reported) : RecvGood sh b0 pre t := by
  have hd := ht.does
  have hopens := ht.opens hfree
  have hstarted : t.started = s.started := by
    funext k
    unfold RecvState.started
    rw [ht.peerHead, ht.flushes]
  have hfifo : s.comm.base.fifoHead ≤ t.comm.base.fifoHead := by
    rw [hd.fifoHead]
    exact Nat.le_succ _
  refine
    { plain := h.plain
      same := h.same.trans hd.same
      prepost := hd.prepost.trans h.prepost
      recvWrId := fun hpre => (hd.recvWrId (h.prepost.trans hpre)).trans (h.recvWrId hpre)
      peer := ht.peerHead ▸ Nat.le_trans h.peer hfifo
      live := hopens.live h, known := hopens.known h, one_req := hopens.one_req h
      slots := ?_, events := hopens.open_events h
      conserved := ?_, reported := ?_, reported_nodup := ?_, data := ?_
      cqes := ?_, rq := ?_, aligned := ?_, call_live := ?_, hand := ?_ }
  · intro id hid
    rw [hd.fifoHead] at hid
    rw [hd.recvReqs]
    by_cases hslot : slotOf id = slotOf s.comm.base.fifoHead
    · rw [hslot, Function.update_self]
      exact ⟨i, rfl⟩
    · rw [Function.update_of_ne hslot]
      have hne : id ≠ s.comm.base.fifoHead := fun he => hslot (he ▸ rfl)
      exact h.slots id (by omega)
  · intro k hk d
    rw [hstarted, ht.processed, ht.lost, ht.count hk d]
    exact h.conserved k hk d
  · intro k hk
    rw [ht.reported] at hk
    obtain ⟨h1, h2, h3⟩ := h.reported k hk
    exact ⟨h1, hstarted ▸ h2, fun d => (ht.count h1 d).trans (h3 d)⟩
  · rw [ht.reported]
    exact h.reported_nodup
  · rw [ht.data]
    exact h.data
  · intro x hx
    rw [ht.sq, ht.cq, ht.call] at hx
    by_cases hin : x ∈ cqes
    · obtain ⟨h1, h2, h3, h4⟩ := ht.newSq x hin
      unfold CqeOk
      rw [h1]
      refine ⟨h2, h3, h4, ?_⟩
      rw [hd.fifoHead]
      exact Nat.lt_succ_self _
    · refine hopens.keep hfifo (h.cqes x ?_)
      simp only [List.mem_append, hin, or_false] at hx ⊢
      exact hx
  · intro e he
    rw [ht.rq] at he
    rcases List.mem_append.mp he with he | he
    · exact h.rq e he
    · rw [ht.newRq] at he
      split at he
      · cases he
      · rename_i hpre
        obtain ⟨q, _, rfl⟩ := List.mem_map.mp he
        exact .inr ⟨_, rfl, rfl, by rw [← h.prepost]; simpa using hpre⟩
  · intro hpre q
    have hrecvs := ht.newRq
    rw [h.prepost, hpre] at hrecvs
    simp only [Bool.false_eq_true, if_false] at hrecvs
    have hpeer := h.peer
    rw [ht.rq, hrecvs, ht.data, ht.peerHead, hd.fifoHead, List.filter_append, List.map_append,
      h.aligned hpre q, Nat.succ_sub hpeer, List.range'_concat, List.flatMap_append, List.append_assoc]
    congr 2
    rw [show s.peerHead + 1 * (s.comm.base.fifoHead - s.peerHead) = s.comm.base.fifoHead by omega]
    simp [partsOn, List.filter_map, Function.comp_def]
  · intro call hc
    rw [ht.call, hcall] at hc
    cases hc
  · rw [ht.call]
    exact h.hand

end

/-! ## ncclIbIflush -/

/-- A call of `ncclIbIflush` that returned request `i`: one read on every device. -/
structure Flushes (sh : Shape) (b0 : NcclIbNetCommBase) (s t : RecvState) (i : Nat)
    (cqes : List Cqe) : Prop where
  opens : Opens sh b0 s t (.flush s.flushes) i
  same : SameBase s.comm.base t.comm.base
  fifoHead : t.comm.base.fifoHead = s.comm.base.fifoHead
  recvReqs : t.comm.recvReqs = s.comm.recvReqs
  prepost : t.comm.prepostReceiveWorkRequests = s.comm.prepostReceiveWorkRequests
  recvWrId : t.comm.recvWrId = s.comm.recvWrId
  remCtsFifo : t.comm.remCtsFifo = s.comm.remCtsFifo
  sq : t.sq = s.sq ++ cqes
  rq : t.rq = s.rq
  data : t.data = s.data
  cq : t.cq = s.cq
  peerHead : t.peerHead = s.peerHead
  flushes : t.flushes = s.flushes + 1
  call : t.call = s.call
  newSq : ∀ x ∈ cqes, x.cause = .flush s.flushes ∧ x.wc.success = true ∧
    x.wc.opcode = IBV_WC_RDMA_READ ∧ x.wc.wr_id = i + NCCL_IB_FLUSH_REQ_WR_ID_OFFSET
  perDev : ∀ d, cqes.countP (causedBy (.flush s.flushes) d) = if d < sh.ndevs then 1 else 0

/-- A change of the comm that no completion depends on. -/
theorem RecvGood.keep (h : RecvGood sh b0 pre s) {comm : NcclIbRecvComm}
    (hframe : RecvFrame s.comm comm) (hreqs : comm.base.reqs = s.comm.base.reqs) :
    RecvGood sh b0 pre { s with comm } := by
  have hissued : ({ s with comm } : RecvState).issued = s.issued :=
    issued_congr hframe.fifoHead rfl
  refine { h with
    same := h.same.trans hframe.same
    prepost := hframe.prepost.trans h.prepost
    recvWrId := fun hpre => hframe.recvWrId.trans (h.recvWrId hpre)
    peer := hframe.fifoHead ▸ h.peer
    live := ?_, known := ?_, one_req := ?_, slots := ?_, events := ?_, cqes := ?_
    aligned := ?_, call_live := ?_ }
  · simp only [hissued, hreqs, hframe.recvReqs]
    exact h.live
  · simp only [hissued, hreqs]
    exact h.known
  · simp only [hreqs]
    exact h.one_req
  · simp only [hframe.fifoHead, hframe.recvReqs]
    exact h.slots
  · simp only [hreqs]
    exact h.events
  · intro c hc
    refine (h.cqes c hc).keep (Nat.le_of_eq hframe.fifoHead.symm) (fun n _ j _ htype hfor => ?_)
    exact ⟨(hframe.reqs j).1.trans htype, hfor⟩
  · simp only [hframe.fifoHead]
    exact h.aligned
  · simp only [hreqs]
    exact h.call_live

/-- A call of `ncclIbIflush` opens no request, or it opens request `i` and posts
one read for it on every device. -/
theorem iflush_cases {comm : NcclIbRecvComm} {bufs : List FlushBuffer} {out : RecvOut}
    (h : ncclIbIflush comm bufs = out) :
    (out.posts = [] ∧ (∀ i, out.ret ≠ .ok (some i)) ∧ RecvFrame comm out.comm ∧
        out.comm.base.reqs = comm.base.reqs) ∨
      ∃ (i : Nat) (req : NcclIbRequest) (wrs : Nat → IbvSendWr),
        i < NET_IB_MAX_REQUESTS ∧ (comm.base.reqs i).type = NCCL_NET_IB_REQ_UNUSED ∧
        req.type = NCCL_NET_IB_REQ_FLUSH ∧
        (∀ d, req.events d = if d < comm.base.ndevs then 1 else 0) ∧
        (∀ d, (wrs d).wr_id = i + NCCL_IB_FLUSH_REQ_WR_ID_OFFSET) ∧
        out = ⟨{ comm.withReqs (Function.update comm.base.reqs i req) with flushQpsCreated := true },
          (List.range comm.base.ndevs).map (fun d => .flush d (wrs d)), .ok (some i)⟩ := by
  have hrefl := RecvFrame.refl comm
  unfold ncclIbIflush at h
  split at h
  · subst h
    exact .inl ⟨rfl, fun i hc => (by cases hc), hrefl, rfl⟩
  · subst h
    exact .inl ⟨rfl, fun i hc => (by cases hc), hrefl, rfl⟩
  · rename_i b _ _
    simp only at h
    split at h
    · subst h
      exact .inl ⟨rfl, fun i hc => (by cases hc), ⟨SameBase.refl _, rfl, rfl, rfl, rfl, rfl,
        fun _ => ⟨rfl, rfl⟩⟩, rfl⟩
    · rename_i base i hget
      obtain ⟨hi, hunused, hbase⟩ := getRequest_cases hget
      refine .inr ⟨i, (List.range comm.base.ndevs).foldl ncclIbAddEvent
          { clearCounters (comm.base.reqs i) with type := NCCL_NET_IB_REQ_FLUSH },
        fun d => flushWr { comm with flushQpsCreated := true } b i d, hi, hunused,
        (addEvents _ _).2.2.1, ?_, fun _ => rfl, ?_⟩
      · intro d
        rw [(addEvents _ _).1 d, List.count_range]
        simp [clearCounters]
      · rw [← h, hbase]
        simp [NcclIbRecvComm.withReqs]

theorem iflush_next (h : RecvGood sh b0 pre s) {bufs : List FlushBuffer}
    (hnext : s.next (.iflush bufs) = some t) :
    (∃ comm, RecvFrame s.comm comm ∧ comm.base.reqs = s.comm.base.reqs ∧ t = { s with comm }) ∨
      ∃ i cqes, Flushes sh b0 s t i cqes := by
  simp only [RecvState.next] at hnext
  split at hnext
  · cases hnext
  rename_i hcall
  have hplain := h.plain.same h.same
  unfold RecvState.afterCall RecvState.posted at hnext
  generalize hout : ncclIbIflush s.comm bufs = out at hnext
  rcases iflush_cases hout with ⟨hposts, hret, hframe, hreqs⟩ |
    ⟨i, req, wrs, hi, hunused, htype, hev, hwr, rfl⟩
  · refine .inl ⟨out.comm, hframe, hreqs, ?_⟩
    simp only [hposts, List.flatMap_nil, List.append_nil, if_true] at hnext
    split at hnext
    · cases hnext
    rename_i u hu
    split at hu
    · cases hu
      exact (Option.some.inj hnext).symm
    · cases hu
    · cases hu
      exact (Option.some.inj hnext).symm
    · rename_i hsome
      exact absurd hsome (hret _)
  · right
    have hne : (List.range s.comm.base.ndevs).map (fun d => RecvPost.flush d (wrs d)) ≠ [] := by
      intro hnil
      have := List.map_eq_nil_iff.mp hnil
      rw [List.range_eq_nil] at this
      rw [hplain.striped.ndevs] at this
      exact absurd this (Nat.pos_iff_ne_zero.mp sh.ndevs_pos)
    simp only [if_neg hne] at hnext
    have ht := (Option.some.inj hnext).symm
    have hrecvs : ((List.range s.comm.base.ndevs).map (fun d =>
        RecvPost.flush d (wrs d))).flatMap (postRecvs none) = [] := by
      apply List.flatMap_eq_nil_iff.mpr
      intro p hp
      obtain ⟨d, _, rfl⟩ := List.mem_map.mp hp
      rfl
    have hcqes : ((List.range s.comm.base.ndevs).map (fun d =>
        RecvPost.flush d (wrs d))).flatMap (postCqes s.comm.base (.flush s.flushes)) =
        (List.range s.comm.base.ndevs).map (fun d => ⟨⟨true, (wrs d).wr_id, IBV_WC_RDMA_READ, 0, 0, 0⟩,
          d, d, true, .flush s.flushes⟩) := by
      rw [List.flatMap_map, List.map_eq_flatMap]
      rfl
    simp only [hrecvs, List.append_nil] at ht
    have hopens : Opens sh b0 s t (.flush s.flushes) i :=
      { index := hi, unused := hunused, fresh := Nat.lt_irrefl _, counted := rfl
        issued := fun k => by
          rw [ht]
          unfold RecvState.issued
          cases k with
          | data id => simp [NcclIbRecvComm.withReqs]
          | flush n =>
            simp
            omega
          | cts id => simp
          | speed => simp
        reqs := fun j hj => by rw [ht]; simp [NcclIbRecvComm.withReqs, hj]
        type := by rw [ht]; simpa [NcclIbRecvComm.withReqs, Cause.reqType] using htype
        events := fun d => by
          rw [ht]
          simp only [NcclIbRecvComm.withReqs, Function.update_self, hev, hplain.striped.ndevs, totalFor]
          split <;> rfl
        reqFor := by rw [ht]
        reported := by rw [ht]
        processed := by rw [ht]
        lost := by rw [ht]
        newSlot := fun id hid => by cases hid
        slots := fun id _ _ => by rw [ht]; rfl }
    refine ⟨i, _,
      { opens := hopens
        same := by rw [ht]; exact ⟨rfl, rfl, rfl, rfl, rfl, rfl, rfl, rfl, rfl, rfl⟩
        fifoHead := by rw [ht]; rfl
        recvReqs := by rw [ht]; rfl
        prepost := by rw [ht]; rfl
        recvWrId := by rw [ht]; rfl
        remCtsFifo := by rw [ht]; rfl
        sq := by rw [ht, hcqes]
        rq := by rw [ht]
        data := by rw [ht]
        cq := by rw [ht]
        peerHead := by rw [ht]
        flushes := by rw [ht]
        call := by rw [ht]
        newSq := ?_
        perDev := ?_ }⟩
    · intro x hx
      obtain ⟨d, _, rfl⟩ := List.mem_map.mp hx
      exact ⟨rfl, rfl, rfl, hwr d⟩
    · intro d
      rw [List.countP_map, ← List.count_range, hplain.striped.ndevs, List.count_eq_countP]
      apply List.countP_congr
      intro x _
      simp [causedBy]

/-- A flush request waits for one read on every device. -/
theorem good_iflush (h : RecvGood sh b0 pre s) {i : Nat} {cqes : List Cqe}
    (ht : Flushes sh b0 s t i cqes) : RecvGood sh b0 pre t := by
  have hopens := ht.opens
  have hfifo : s.comm.base.fifoHead ≤ t.comm.base.fifoHead := Nat.le_of_eq ht.fifoHead.symm
  have hcount : ∀ k d, t.pend.countP (causedBy k d) =
      s.pend.countP (causedBy k d) + cqes.countP (causedBy k d) := by
    intro k d
    unfold RecvState.pend
    rw [ht.data, ht.sq, ht.cq, ht.call]
    simp only [List.countP_append]
    omega
  have hzero : ∀ k d, k ≠ .flush s.flushes → cqes.countP (causedBy k d) = 0 := by
    intro k d hk
    apply List.countP_eq_zero.mpr
    intro x hx hby
    exact hk ((causedBy_iff.mp hby).1.symm.trans (ht.newSq x hx).1)
  have hstarted : ∀ k, k ≠ .flush s.flushes → t.started k = s.started k := by
    intro k hk
    unfold RecvState.started
    rw [ht.peerHead, ht.flushes]
    cases k with
    | flush n =>
      have hn : n ≠ s.flushes := fun he => hk (he ▸ rfl)
      exact decide_eq_decide.mpr (by omega)
    | data id => rfl
    | cts id => rfl
    | speed => rfl
  refine
    { plain := h.plain
      same := h.same.trans ht.same
      prepost := ht.prepost.trans h.prepost
      recvWrId := fun hpre => ht.recvWrId.trans (h.recvWrId hpre)
      peer := by rw [ht.peerHead, ht.fifoHead]; exact h.peer
      live := hopens.live h, known := hopens.known h, one_req := hopens.one_req h
      slots := by rw [ht.fifoHead, ht.recvReqs]; exact h.slots
      events := hopens.open_events h
      conserved := ?_, reported := ?_
      reported_nodup := by rw [hopens.reported]; exact h.reported_nodup
      data := by rw [ht.data]; exact h.data
      cqes := ?_
      rq := by rw [ht.rq]; exact h.rq
      aligned := by rw [ht.rq, ht.data, ht.peerHead, ht.fifoHead]; exact h.aligned
      call_live := ?_
      hand := by rw [ht.call]; exact h.hand }
  · intro k hk d
    rw [hcount, hopens.processed, hopens.lost]
    by_cases hnew : k = .flush s.flushes
    · subst hnew
      obtain ⟨h1, h2, h3⟩ := hopens.untouched h d
      have hst : t.started (.flush s.flushes) = true := by
        unfold RecvState.started
        rw [ht.flushes]
        exact decide_eq_true (Nat.lt_succ_self _)
      rw [h1, h2, h3, ht.perDev, if_pos hst, Nat.zero_add, Nat.add_zero]
      rfl
    · rw [hzero k d hnew, hstarted k hnew, Nat.add_zero]
      exact h.conserved k hk d
  · intro k hk
    rw [hopens.reported] at hk
    have hnew : k ≠ .flush s.flushes := fun he => hopens.not_reported h (he ▸ hk)
    obtain ⟨h1, h2, h3⟩ := h.reported k hk
    refine ⟨h1, (hstarted k hnew).trans h2, fun d => ?_⟩
    rw [hcount, hzero k d hnew, h3]
  · intro x hx
    rw [ht.sq, ht.cq, ht.call] at hx
    by_cases hin : x ∈ cqes
    · obtain ⟨h1, h2, h3, h4⟩ := ht.newSq x hin
      unfold CqeOk
      rw [h1]
      exact ⟨h2, h3, i, hopens.index, h4, hopens.type, hopens.new⟩
    · refine hopens.keep hfifo (h.cqes x ?_)
      simp only [List.mem_append, hin, or_false] at hx ⊢
      exact hx
  · intro call hc
    rw [ht.call] at hc
    obtain ⟨h1, h2⟩ := h.call_live call hc
    exact ⟨h1, by rwa [hopens.reqs _ (hopens.ne h2)]⟩

end

end net_ib.p2p
