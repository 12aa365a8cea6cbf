-- What a rejected call of ncclIbIsend or ncclIbIrecv leaves behind (p2p.cc). Both
-- look up the QPs of their request before they change anything. ncclIbMultiSend
-- looks them up once more, by the first request of the group, and
-- ncclIbPostFifo then needs a QP for the CTS message that nobody has looked up.
import MrcPlugin.Irecv
import MrcPlugin.IsendSteps
import MrcPlugin.QpLookup

namespace net_ib.p2p

/-! ## The calls that get past their checks -/

/-- A call of `ncclIbIsend` that is the last match of its group: it takes entry
`r` with the new request `i`, and `ncclIbMultiSend` is next. -/
structure LastMatch (env : NetEnv) (comm : NcclIbSendComm) (a : IsendArgs) (r : Nat)
    (qps : List (Nat × Nat)) (base : NcclIbNetCommBase) (i : Nat) : Prop where
  ready : comm.base.ready = true
  alive : ncclIbStatsCheckFatalCount env comm.base.fatalErrorCount = .ok ()
  there : ∀ r < max 1 (comm.ctsFifo (slotOf comm.base.fifoHead) 0).nreqs,
    (comm.ctsFifo (slotOf comm.base.fifoHead) r).idx = comm.base.fifoHead + 1
  entry : matchEntry comm (slotOf comm.base.fifoHead)
    (comm.ctsFifo (slotOf comm.base.fifoHead) 0).nreqs a.tag = some r
  buffer : ¬ ((comm.ctsFifo (slotOf comm.base.fifoHead) r).addr = 0 ∨
    (comm.ctsFifo (slotOf comm.base.fifoHead) r).rkeys 0 = 0)
  qps_ok : requestQps comm.base comm.base.fifoHead = .ok qps
  free : ncclIbGetRequest comm.base = .ok (base, i)
  last : ((comm.ctsFifo (slotOf comm.base.fifoHead) 0).nreqs : Int) ≤
    comm.sendReqsCnt (slotOf comm.base.fifoHead) + 1

/-- The comm that `ncclIbIsend` hands to `ncclIbMultiSend`. -/
def handedOver (comm : NcclIbSendComm) (a : IsendArgs) (r : Nat) (qps : List (Nat × Nat))
    (base : NcclIbNetCommBase) (i : Nat) : NcclIbSendComm :=
  let slot := slotOf comm.base.fifoHead
  let elem := comm.ctsFifo slot r
  bindEntry { comm with base } slot r i
    (sendRequest comm (base.reqs i) a (comm.ctsFifo slot 0).nreqs r
      (if a.size > elem.size then elem.size else a.size)
      (qps.map (fun q => (comm.base.qps q.1).devIndex)))

section
variable {env : NetEnv} {comm : NcclIbSendComm} {a : IsendArgs} {r : Nat}
  {qps : List (Nat × Nat)} {base : NcclIbNetCommBase} {i : Nat}

/-- Both lookups of the QPs of one id have the same result. -/
theorem requestQps_handedOver (hfree : ncclIbGetRequest comm.base = .ok (base, i)) (id : Nat) :
    requestQps (handedOver comm a r qps base i).base id = requestQps comm.base id := by
  obtain ⟨-, -, hbase⟩ := getRequest_cases hfree
  subst hbase
  rfl

theorem handedOver_other (hfree : ncclIbGetRequest comm.base = .ok (base, i)) {j : Nat}
    (hj : j ≠ i) : (handedOver comm a r qps base i).base.reqs j = comm.base.reqs j := by
  obtain ⟨-, -, hbase⟩ := getRequest_cases hfree
  subst hbase
  show Function.update (Function.update comm.base.reqs i _) i _ j = _
  rw [Function.update_of_ne hj, Function.update_of_ne hj]

theorem handedOver_id : ((handedOver comm a r qps base i).base.reqs i).id = comm.base.fifoHead := by
  show (Function.update base.reqs i _ i).id = _
  rw [Function.update_self]
  exact (addEvents _ _).2.2.2.1

/-- What follows the checks of a matching entry. -/
theorem isendEntry_eq (hbuffer : ¬ ((comm.ctsFifo (slotOf comm.base.fifoHead) r).addr = 0 ∨
    (comm.ctsFifo (slotOf comm.base.fifoHead) r).rkeys 0 = 0))
    (hqps : requestQps comm.base comm.base.fifoHead = .ok qps)
    (hfree : ncclIbGetRequest comm.base = .ok (base, i)) :
    isendEntry env comm a (slotOf comm.base.fifoHead)
      (comm.ctsFifo (slotOf comm.base.fifoHead) 0).nreqs r =
    if comm.sendReqsCnt (slotOf comm.base.fifoHead) + 1 <
        ((comm.ctsFifo (slotOf comm.base.fifoHead) 0).nreqs : Int) then
      ⟨handedOver comm a r qps base i, [], .ok (some i)⟩
    else
      match ncclIbMultiSend env (handedOver comm a r qps base i) (slotOf comm.base.fifoHead) with
      | .error e => ⟨handedOver comm a r qps base i, [], .error e⟩
      | .ok (comm, posts) =>
        ⟨{ comm with base := { comm.base with fifoHead := comm.base.fifoHead + 1 } }, posts,
          .ok (some i)⟩ := by
  have hcnt : (handedOver comm a r qps base i).sendReqsCnt (slotOf comm.base.fifoHead) =
      comm.sendReqsCnt (slotOf comm.base.fifoHead) + 1 := Function.update_self ..
  unfold isendEntry
  rw [if_neg hbuffer, hqps, hfree, ← hcnt]
  rfl

/-- The last match of a group goes on to `ncclIbMultiSend`. -/
theorem LastMatch.isend (h : LastMatch env comm a r qps base i) : ncclIbIsend env comm a =
    match ncclIbMultiSend env (handedOver comm a r qps base i) (slotOf comm.base.fifoHead) with
    | .error e => ⟨handedOver comm a r qps base i, [], .error e⟩
    | .ok (comm, posts) =>
      ⟨{ comm with base := { comm.base with fifoHead := comm.base.fifoHead + 1 } }, posts,
        .ok (some i)⟩ := by
  have hthere : ((List.range (comm.ctsFifo (slotOf comm.base.fifoHead) 0).nreqs).any (fun r =>
      decide ((comm.ctsFifo (slotOf comm.base.fifoHead) r).idx ≠ comm.base.fifoHead + 1))) =
      false := by
    rw [List.any_eq_false]
    intro j hj
    have := h.there j (Nat.lt_of_lt_of_le (List.mem_range.mp hj) (Nat.le_max_right ..))
    simpa using this
  unfold ncclIbIsend
  rw [h.ready, h.alive]
  simp only [Bool.not_true, Bool.false_eq_true, if_false, h.there 0 (by omega), ne_eq,
    not_true_eq_false, hthere, h.entry]
  rw [isendEntry_eq h.buffer h.qps_ok h.free, if_neg (by have := h.last; omega)]

/-- Every other call that fails has changed nothing. -/
theorem isend_early {e : Stop} (hno : ∀ r qps base i, ¬ LastMatch env comm a r qps base i)
    (he : (ncclIbIsend env comm a).ret = .error e) :
    (ncclIbIsend env comm a).comm = comm ∧ (ncclIbIsend env comm a).posts = [] := by
  unfold ncclIbIsend at he ⊢
  split
  · exact ⟨rfl, rfl⟩
  rename_i hready
  rw [if_neg hready] at he
  cases halive : ncclIbStatsCheckFatalCount env comm.base.fatalErrorCount with
  | error e => exact ⟨rfl, rfl⟩
  | ok u =>
    simp only [halive] at he ⊢
    split
    · exact ⟨rfl, rfl⟩
    rename_i hidx
    rw [if_neg hidx] at he
    split
    · exact ⟨rfl, rfl⟩
    rename_i hall
    rw [if_neg hall] at he
    cases hentry : matchEntry comm (slotOf comm.base.fifoHead)
        (comm.ctsFifo (slotOf comm.base.fifoHead) 0).nreqs a.tag with
    | none => exact ⟨rfl, rfl⟩
    | some r =>
      simp only [hentry] at he ⊢
      by_cases hbuffer : (comm.ctsFifo (slotOf comm.base.fifoHead) r).addr = 0 ∨
          (comm.ctsFifo (slotOf comm.base.fifoHead) r).rkeys 0 = 0
      · unfold isendEntry
        rw [if_pos hbuffer]
        exact ⟨rfl, rfl⟩
      cases hqps : requestQps comm.base comm.base.fifoHead with
      | error e =>
        unfold isendEntry
        rw [if_neg hbuffer, hqps]
        exact ⟨rfl, rfl⟩
      | ok qps =>
        cases hfree : ncclIbGetRequest comm.base with
        | error e =>
          unfold isendEntry
          rw [if_neg hbuffer, hqps, hfree]
          exact ⟨rfl, rfl⟩
        | ok free =>
          obtain ⟨base, i⟩ := free
          rw [isendEntry_eq hbuffer hqps hfree] at he
          split at he
          · -- The group waits for more sends, so the call succeeds.
            cases he
          · rename_i hlast
            refine absurd ⟨?_, halive, ?_, hentry, hbuffer, hqps, hfree, by omega⟩ (hno r qps base i)
            · simpa using hready
            · intro j hj
              simp only [ne_eq, not_not] at hidx
              rcases Nat.lt_or_ge j (comm.ctsFifo (slotOf comm.base.fifoHead) 0).nreqs with hlt | hge
              · by_contra hne
                refine hall (List.any_eq_true.mpr ⟨j, List.mem_range.mpr hlt, ?_⟩)
                simpa using hne
              · obtain rfl : j = 0 := by omega
                exact hidx

end

/-! ## The lookups of the QPs -/

/-- Where a loop of calls succeeds, each of them does. -/
theorem mapM_succeeds {α β : Type} {f : α → Except Stop β} (l : List α) :
    ∀ ys, l.mapM f = .ok ys → ∀ x ∈ l, ∃ y, f x = .ok y := by
  induction l with
  | nil =>
    intro ys _ x hx
    cases hx
  | cons x xs ih =>
    intro ys h
    rw [List.mapM_cons] at h
    cases hx : f x with
    | error e =>
      rw [hx] at h
      cases h
    | ok y =>
      rw [hx] at h
      cases hxs : xs.mapM f with
      | error e =>
        have hbind : ((xs.mapM f).bind fun ys => Except.ok (y :: ys)) = .ok ys := h
        rw [hxs] at hbind
        cases hbind
      | ok ys' =>
        intro z hz
        rcases List.mem_cons.mp hz with rfl | hz
        · exact ⟨y, hx⟩
        · exact ih ys' hxs z hz

/-- Where a loop of calls fails, one of them fails. -/
theorem mapM_error {α β : Type} {f : α → Except Stop β} {e : Stop} (l : List α)
    (h : l.mapM f = .error e) : ∃ x ∈ l, f x = .error e := by
  induction l with
  | nil => cases h
  | cons x xs ih =>
    rw [List.mapM_cons] at h
    cases hx : f x with
    | error e' =>
      rw [hx] at h
      injection h with h
      exact ⟨x, List.mem_cons_self .., by rw [hx, h]⟩
    | ok y =>
      rw [hx] at h
      cases hxs : xs.mapM f with
      | error e' =>
        have h : (.error e' : Except Stop (List β)) = .error e := by
          rw [← h]
          show _ = (do
            let ys ← xs.mapM f
            pure (y :: ys) : Except Stop (List β))
          rw [hxs]
          rfl
        injection h with h
        obtain ⟨z, hz, hfz⟩ := ih (by rw [hxs, h])
        exact ⟨z, List.mem_cons_of_mem _ hz, hfz⟩
      | ok ys =>
        have h : (.ok (y :: ys) : Except Stop (List β)) = .error e := by
          rw [← h]
          show _ = (do
            let ys ← xs.mapM f
            pure (y :: ys) : Except Stop (List β))
          rw [hxs]
          rfl
        cases h

/-- A lookup that fails returns an internal error. -/
theorem requestQps_error {base : NcclIbNetCommBase} {id : Nat} {e : Stop}
    (h : requestQps base id = .error e) : e = .ret ncclInternalError := by
  have hn : ∀ {e : Stop}, ncclIbCommBaseGetNqpsPerRequest base = .error e →
      e = .ret ncclInternalError := by
    intro e he
    unfold ncclIbCommBaseGetNqpsPerRequest at he
    split at he <;> cases he <;> rfl
  unfold requestQps at h
  cases hnqps : ncclIbCommBaseGetNqpsPerRequest base with
  | error e' =>
    rw [hnqps] at h
    injection h with h
    rw [← h]
    exact hn hnqps
  | ok n =>
    rw [hnqps] at h
    have h : (do
        if n > NCCL_IB_MAX_QPS then throw (Stop.ret ncclInternalError)
        (List.range n).mapM (fun i => ncclIbCommBaseGetQpForRequest base id i)
          : Except Stop _) = .error e := h
    split at h
    · injection h with h
      exact h.symm
    · obtain ⟨i, -, hi⟩ := mapM_error _ h
      unfold ncclIbCommBaseGetQpForRequest at hi
      rw [hnqps] at hi
      simp only [bind, Except.bind] at hi
      split at hi
      · injection hi with hi
        exact hi.symm
      · cases hi

/-- The requests that the entries of a slot point to. -/
def groupReqs (comm : NcclIbSendComm) (slot : Nat) : Except Stop (List Nat) :=
  (List.range (comm.ctsFifo slot 0).nreqs).mapM (fun r => deref (comm.sendReqs slot r))

/-- An entry that is empty is no error that the call returns. -/
theorem groupReqs_error {comm : NcclIbSendComm} {slot : Nat} {e : Stop}
    (h : groupReqs comm slot = .error e) : e = .badPointer := by
  obtain ⟨r, -, hr⟩ := mapM_error _ h
  cases hsend : comm.sendReqs slot r with
  | none =>
    rw [hsend] at hr
    injection hr with hr
    exact hr.symm
  | some j =>
    rw [hsend] at hr
    cases hr

/-- `ncclIbMultiSend` for a group that is not too large, and that has a first request. -/
theorem multiSend_bind (env : NetEnv) {comm : NcclIbSendComm} {slot req0 : Nat}
    (hle : (comm.ctsFifo slot 0).nreqs ≤ NCCL_NET_IB_MAX_RECVS)
    (hreq0 : comm.sendReqs slot 0 = some req0) : ncclIbMultiSend env comm slot =
      (requestQps comm.base (comm.base.reqs req0).id).bind (fun qps =>
        (groupReqs comm slot).bind (fun _ => .ok (multiSendPost env comm slot qps))) := by
  unfold ncclIbMultiSend
  rw [if_neg (by omega), hreq0]
  rfl

/-- For a group that is not too large, `ncclIbMultiSend` returns an error exactly
when its own lookup fails. -/
theorem multiSend_ret_iff (env : NetEnv) (comm : NcclIbSendComm) (slot : Nat)
    (hle : (comm.ctsFifo slot 0).nreqs ≤ NCCL_NET_IB_MAX_RECVS) :
    (∃ res, ncclIbMultiSend env comm slot = .error (.ret res)) ↔
      ∃ req0, comm.sendReqs slot 0 = some req0 ∧
        ∀ qps, requestQps comm.base (comm.base.reqs req0).id ≠ .ok qps := by
  cases hreq0 : comm.sendReqs slot 0 with
  | none =>
    have hbad : ncclIbMultiSend env comm slot = .error .badPointer := by
      unfold ncclIbMultiSend
      rw [if_neg (by omega), hreq0]
      rfl
    rw [hbad]
    exact ⟨fun ⟨_, h⟩ => (by cases h), fun ⟨_, h, _⟩ => (by cases h)⟩
  | some req0 =>
    rw [multiSend_bind env hle hreq0]
    cases hqps : requestQps comm.base (comm.base.reqs req0).id with
    | error e =>
      obtain rfl := requestQps_error hqps
      refine ⟨fun _ => ⟨req0, rfl, fun qps h => ?_⟩, fun _ => ⟨ncclInternalError, rfl⟩⟩
      rw [hqps] at h
      cases h
    | ok qps =>
      refine ⟨fun ⟨res, h⟩ => ?_, fun ⟨x, hx, hno⟩ => ?_⟩
      · cases hall : groupReqs comm slot with
        | error e =>
          obtain rfl := groupReqs_error hall
          rw [hall] at h
          cases h
        | ok reqs =>
          rw [hall] at h
          cases h
      · injection hx with hx
        subst hx
        exact absurd hqps (hno qps)

/-! ## ncclIbIrecv -/

/-- A call of `ncclIbIrecv` that is past its checks: it takes the new request `i`,
and the CTS message is next. -/
structure PastChecks (env : NetEnv) (comm : NcclIbRecvComm) (bufs : List RecvBuffer)
    (qps : List (Nat × Nat)) (base : NcclIbNetCommBase) (i : Nat) : Prop where
  ready : comm.base.ready = true
  few : bufs.length ≤ NCCL_NET_IB_MAX_RECVS
  alive : ncclIbStatsCheckFatalCount env comm.base.fatalErrorCount = .ok ()
  qps_ok : requestQps comm.base comm.base.fifoHead = .ok qps
  free : ncclIbGetRequest comm.base = .ok (base, i)

/-- The QP of the CTS message of group `id`: the first one of a device. -/
def ctsQpOf (base : NcclIbNetCommBase) (id : Nat) : Option Nat :=
  base.activeQps (id % 2 ^ 32 % base.ndevs)

theorem getQpForCts_eq {base : NcclIbNetCommBase} (hdevs : 0 < base.ndevs) (id : Nat) :
    ncclIbRecvCommGetQpForCts base id =
      match ctsQpOf base id with
      | none => .error (.ret ncclInternalError)
      | some p => .ok p := by
  have hlt := Nat.mod_lt (id % 2 ^ 32) hdevs
  have hget : ncclIbCommBaseGetQpByIndex base (id % 2 ^ 32 % base.ndevs) 0 =
      .ok (ctsQpOf base id) := by
    unfold ncclIbCommBaseGetQpByIndex ctsQpOf
    rw [if_neg (by omega), Nat.mul_zero, Nat.zero_add]
  unfold ncclIbRecvCommGetQpForCts
  simp only
  rw [hget]
  cases ctsQpOf base id <;> rfl

/-- The CTS message is posted when its QP is there. -/
theorem postFifo_result {comm : NcclIbRecvComm} {req : NcclIbRequest} {slot : Nat}
    {res : Except Stop SendPost} (h : ncclIbPostFifo comm req slot = res)
    (hdevs : 0 < comm.base.ndevs) :
    (ctsQpOf comm.base req.id = none ∧ res = .error (.ret ncclInternalError)) ∨
      ∃ p cts, ctsQpOf comm.base req.id = some p ∧ res = .ok cts := by
  subst h
  unfold ncclIbPostFifo
  rw [getQpForCts_eq hdevs]
  cases ctsQpOf comm.base req.id with
  | none => exact Or.inl ⟨rfl, rfl⟩
  | some p => exact Or.inr ⟨p, _, rfl, rfl⟩

/-- What a call past its checks does: all its writes, and then the CTS message. -/
theorem PastChecks.irecv {env : NetEnv} {comm : NcclIbRecvComm} {bufs : List RecvBuffer}
    {qps : List (Nat × Nat)} {base : NcclIbNetCommBase} {i : Nat}
    (h : PastChecks env comm bufs qps base i) (hdevs : 0 < comm.base.ndevs) :
    (ctsQpOf comm.base comm.base.fifoHead = none ∧
      (ncclIbIrecv env comm bufs).ret = .error (.ret ncclInternalError) ∧
      ((ncclIbIrecv env comm bufs).comm.base.reqs i).type = NCCL_NET_IB_REQ_RECV) ∨
    ((ctsQpOf comm.base comm.base.fifoHead).isSome ∧
      ∃ j, (ncclIbIrecv env comm bufs).ret = .ok j) := by
  obtain ⟨-, -, hbase⟩ := getRequest_cases h.free
  have hndevs : 0 < base.ndevs := by rw [hbase]; exact hdevs
  have hid : ∀ old n devs, (recvRequest base old n devs).id = base.fifoHead :=
    fun _ _ _ => (addEvents _ _).2.2.2.1
  have hcts : ctsQpOf base base.fifoHead = ctsQpOf comm.base comm.base.fifoHead := by
    rw [hbase]
    rfl
  unfold ncclIbIrecv
  rw [h.ready, h.alive]
  simp only [Bool.not_true, Bool.false_eq_true, if_false, if_neg (Nat.not_lt.mpr h.few), h.qps_ok,
    h.free]
  rw [← hcts]
  clear hcts hbase
  split
  · rename_i e he
    left
    rcases postFifo_result he hndevs with ⟨hnone, hres⟩ | ⟨p, cts, -, hres⟩
    · cases hres
      rw [hid] at hnone
      exact ⟨hnone, rfl, by simp only [Function.update_self]; exact (addEvents _ _).2.2.1⟩
    · cases hres
  · rename_i cts hok
    right
    rcases postFifo_result hok hndevs with ⟨-, hres⟩ | ⟨p, cts, hsome, -⟩
    · cases hres
    · rw [hid] at hsome
      exact ⟨by rw [show ctsQpOf base base.fifoHead = some p from hsome]; rfl, _, rfl⟩

/-- Every other call that fails has changed nothing. -/
theorem irecv_early {env : NetEnv} {comm : NcclIbRecvComm} {bufs : List RecvBuffer}
    (hno : ∀ qps base i, ¬ PastChecks env comm bufs qps base i) :
    (ncclIbIrecv env comm bufs).comm = comm ∧ (ncclIbIrecv env comm bufs).posts = [] := by
  unfold ncclIbIrecv
  simp only
  split
  · exact ⟨rfl, rfl⟩
  rename_i hready
  split
  · exact ⟨rfl, rfl⟩
  rename_i hfew
  cases halive : ncclIbStatsCheckFatalCount env comm.base.fatalErrorCount with
  | error e => exact ⟨rfl, rfl⟩
  | ok u =>
    cases hqps : requestQps comm.base comm.base.fifoHead with
    | error e => exact ⟨rfl, rfl⟩
    | ok qps =>
      cases hfree : ncclIbGetRequest comm.base with
      | error e => exact ⟨rfl, rfl⟩
      | ok free =>
        obtain ⟨base, i⟩ := free
        exact absurd ⟨by simpa using hready, by omega, halive, hqps, hfree⟩ (hno qps base i)

/-! ## The laws -/

/-- A call of `ncclIbIsend` that returns an error has changed nothing and posted
nothing, but for a group that is larger than any that `ncclIbIrecv` publishes. -/
def IsendRejectsCleanly (env : NetEnv) (comm : NcclIbSendComm) (a : IsendArgs) : Prop :=
  ∀ res, (ncclIbIsend env comm a).ret = .error (.ret res) →
    (comm.ctsFifo (slotOf comm.base.fifoHead) 0).nreqs ≤ NCCL_NET_IB_MAX_RECVS →
    (ncclIbIsend env comm a).comm = comm ∧ (ncclIbIsend env comm a).posts = []

/-- The lookup of the QPs in `ncclIbMultiSend` succeeds for the last match of a group. -/
def SecondLookupSucceeds (env : NetEnv) (comm : NcclIbSendComm) (a : IsendArgs) : Prop :=
  ∀ r qps base i, LastMatch env comm a r qps base i →
    (comm.ctsFifo (slotOf comm.base.fifoHead) 0).nreqs ≤ NCCL_NET_IB_MAX_RECVS →
    ∀ req0, (handedOver comm a r qps base i).sendReqs (slotOf comm.base.fifoHead) 0 = some req0 →
      ∃ qps', requestQps (handedOver comm a r qps base i).base
        ((handedOver comm a r qps base i).base.reqs req0).id = .ok qps'

/-- A call of `ncclIbIrecv` that returns an error has changed nothing and posted nothing. -/
def IrecvRejectsCleanly (env : NetEnv) (comm : NcclIbRecvComm) (bufs : List RecvBuffer) : Prop :=
  ∀ res, (ncclIbIrecv env comm bufs).ret = .error (.ret res) →
    (ncclIbIrecv env comm bufs).comm = comm ∧ (ncclIbIrecv env comm bufs).posts = []

/-- When the call is the last match of its group and an earlier call has taken the
first entry, the request there has all its QPs. -/
def FirstHasQps (env : NetEnv) (comm : NcclIbSendComm) (a : IsendArgs) : Prop :=
  ∀ r qps base i, LastMatch env comm a r qps base i →
    (comm.ctsFifo (slotOf comm.base.fifoHead) 0).nreqs ≤ NCCL_NET_IB_MAX_RECVS →
    ∀ req0, r ≠ 0 → req0 ≠ i → comm.sendReqs (slotOf comm.base.fifoHead) 0 = some req0 →
      ∃ qps', requestQps comm.base (comm.base.reqs req0).id = .ok qps'

/-- When the call is past its checks, the QP of its CTS message is there. -/
def CtsQpThere (env : NetEnv) (comm : NcclIbRecvComm) (bufs : List RecvBuffer) : Prop :=
  ∀ qps base i, PastChecks env comm bufs qps base i →
    (ctsQpOf comm.base comm.base.fifoHead).isSome

/-- A first entry that was taken for the same group has the QPs that were looked up. -/
theorem firstHasQps_of_same_group {env : NetEnv} {comm : NcclIbSendComm} {a : IsendArgs}
    (h : ∀ req0, comm.sendReqs (slotOf comm.base.fifoHead) 0 = some req0 →
      (comm.base.reqs req0).id = comm.base.fifoHead) : FirstHasQps env comm a := by
  intro r qps base i hlast _ req0 _ _ hreq0
  exact ⟨qps, by rw [h req0 hreq0]; exact hlast.qps_ok⟩

section
variable {env : NetEnv} {comm : NcclIbSendComm} {a : IsendArgs}

theorem secondLookup_iff : SecondLookupSucceeds env comm a ↔ FirstHasQps env comm a := by
  constructor
  · intro h r qps base i hlast hle req0 hr hi hreq0
    have hkeep : (handedOver comm a r qps base i).sendReqs (slotOf comm.base.fifoHead) 0 =
        some req0 := by
      show Function.update comm.sendReqs _ (Function.update _ r _) _ 0 = _
      rw [Function.update_self, Function.update_of_ne (Ne.symm hr), hreq0]
    obtain ⟨qps', hok⟩ := h r qps base i hlast hle req0 hkeep
    rw [requestQps_handedOver hlast.free, handedOver_other hlast.free hi] at hok
    exact ⟨qps', hok⟩
  · intro h r qps base i hlast hle req0 hreq0
    rw [requestQps_handedOver hlast.free]
    by_cases hi : req0 = i
    · subst hi
      rw [handedOver_id]
      exact ⟨qps, hlast.qps_ok⟩
    · by_cases hr : r = 0
      · subst hr
        have hnew : (handedOver comm a 0 qps base i).sendReqs (slotOf comm.base.fifoHead) 0 =
            some i := by
          show Function.update comm.sendReqs _ (Function.update _ 0 _) _ 0 = _
          rw [Function.update_self, Function.update_self]
        rw [hnew] at hreq0
        injection hreq0 with hreq0
        exact absurd hreq0.symm hi
      · have hkeep : comm.sendReqs (slotOf comm.base.fifoHead) 0 = some req0 := by
          rw [← hreq0]
          show _ = Function.update comm.sendReqs _ (Function.update _ r _) _ 0
          rw [Function.update_self, Function.update_of_ne (Ne.symm hr)]
        rw [handedOver_other hlast.free hi]
        exact h r qps base i hlast hle req0 hr hi hkeep

theorem isendRejects_iff :
    IsendRejectsCleanly env comm a ↔ SecondLookupSucceeds env comm a := by
  constructor
  · intro h r qps base i hlast hle req0 hreq0
    by_contra hno
    simp only [not_exists] at hno
    obtain ⟨res, hres⟩ := (multiSend_ret_iff env (handedOver comm a r qps base i)
      (slotOf comm.base.fifoHead) hle).mpr ⟨req0, hreq0, hno⟩
    have hout := hlast.isend
    rw [hres] at hout
    have hclean := (h res (by rw [hout]) hle).1
    rw [hout] at hclean
    -- The request that the call took was unused before.
    have htype : (comm.base.reqs i).type = NCCL_NET_IB_REQ_SEND := by
      rw [← hclean]
      show (Function.update base.reqs i _ i).type = _
      rw [Function.update_self]
      exact (addEvents _ _).2.2.1
    rw [(getRequest_cases hlast.free).2.1] at htype
    cases htype
  · intro h res hret hle
    by_cases hlast : ∃ r qps base i, LastMatch env comm a r qps base i
    · obtain ⟨r, qps, base, i, hlast⟩ := hlast
      rw [hlast.isend] at hret
      cases hmulti : ncclIbMultiSend env (handedOver comm a r qps base i)
          (slotOf comm.base.fifoHead) with
      | error e =>
        rw [hmulti] at hret
        injection hret with hret
        subst hret
        obtain ⟨req0, hreq0, hno⟩ := (multiSend_ret_iff env (handedOver comm a r qps base i)
          (slotOf comm.base.fifoHead) hle).mp ⟨res, hmulti⟩
        obtain ⟨qps', hok⟩ := h r qps base i hlast hle req0 hreq0
        exact absurd hok (hno qps')
      | ok sent =>
        rw [hmulti] at hret
        cases hret
    · simp only [not_exists] at hlast
      exact isend_early hlast hret

end

theorem irecvRejects_iff {env : NetEnv} {comm : NcclIbRecvComm} {bufs : List RecvBuffer}
    (hdevs : 0 < comm.base.ndevs) :
    IrecvRejectsCleanly env comm bufs ↔ CtsQpThere env comm bufs := by
  constructor
  · intro h qps base i hpast
    rcases hpast.irecv hdevs with ⟨-, hret, htype⟩ | ⟨hsome, -⟩
    · -- The request that the call took was unused before.
      rw [(h _ hret).1, (getRequest_cases hpast.free).2.1] at htype
      cases htype
    · exact hsome
  · intro h res hret
    by_cases hpast : ∃ qps base i, PastChecks env comm bufs qps base i
    · obtain ⟨qps, base, i, hpast⟩ := hpast
      have hthere := h qps base i hpast
      rcases hpast.irecv hdevs with ⟨hnone, -⟩ | ⟨-, j, hok⟩
      · rw [hnone] at hthere
        cases hthere
      · rw [hok] at hret
        cases hret
    · simp only [not_exists] at hpast
      exact irecv_early hpast

/-- Rejected calls leave no trace, and the second lookup of the QPs succeeds,
exactly when the first request of the group has its QPs and the CTS message has
its QP. -/
theorem rejected_calls_leave_no_trace_iff (env : NetEnv) (send : NcclIbSendComm) (a : IsendArgs)
    (recv : NcclIbRecvComm) (bufs : List RecvBuffer) (hdevs : 0 < recv.base.ndevs) :
    (IsendRejectsCleanly env send a ∧ SecondLookupSucceeds env send a ∧
      IrecvRejectsCleanly env recv bufs) ↔
    (FirstHasQps env send a ∧ CtsQpThere env recv bufs) := by
  rw [isendRejects_iff, secondLookup_iff, irecvRejects_iff hdevs]
  exact ⟨fun h => ⟨h.1, h.2.2⟩, fun h => ⟨h.1, h.1, h.2⟩⟩

/-- A comm with the CTS message of a group of two, whose first send is bound. Then QP 1,
which carries a part of the group, goes. -/
def halfBoundSend : NcclIbSendComm :=
  let comm := (ncclIbIsend plainEnv { freshSend Shape.twoTwo with
    ctsFifo := fun _ r =>
      { addr := 0x2000, size := 64, rkeys := fun _ => 7, nreqs := 2, tag := r, idx := 1 } }
    ⟨0x1000, 8, 0, fun _ => 3⟩).comm
  { comm with base := { comm.base with activeQps := fun q => if q = 1 then none else some q } }

/-- A comm with an open receive of group 0. Then QP 2, which group 1 needs, goes. -/
def openedRecv : NcclIbRecvComm :=
  let comm := (ncclIbIrecv plainEnv (freshRecv Shape.twoTwo true)
    [{ data := 0x2000, size := 64, tag := 0, rkeys := fun _ => 7 }]).comm
  { comm with base := { comm.base with activeQps := fun q => if q = 2 then none else some q } }

/-- Both calls are rejected for the missing QP, the send as the last of its group. -/
theorem used_comms_reject_cleanly :
    let buf : RecvBuffer := { data := 0x3000, size := 64, tag := 0, rkeys := fun _ => 7 }
    (ncclIbIsend plainEnv halfBoundSend ⟨0x1000, 8, 1, fun _ => 3⟩).ret =
        .error (.ret ncclInternalError) ∧
      (ncclIbIrecv plainEnv openedRecv [buf]).ret = .error (.ret ncclInternalError) ∧
      IsendRejectsCleanly plainEnv halfBoundSend ⟨0x1000, 8, 1, fun _ => 3⟩ ∧
      SecondLookupSucceeds plainEnv halfBoundSend ⟨0x1000, 8, 1, fun _ => 3⟩ ∧
      IrecvRejectsCleanly plainEnv openedRecv [buf] := by
  have hfirst : FirstHasQps plainEnv halfBoundSend ⟨0x1000, 8, 1, fun _ => 3⟩ :=
    firstHasQps_of_same_group (fun req0 h => by
      obtain rfl : 0 = req0 := Option.some.inj h
      rfl)
  exact ⟨rfl, rfl, (rejected_calls_leave_no_trace_iff plainEnv halfBoundSend
    ⟨0x1000, 8, 1, fun _ => 3⟩ openedRecv [{ data := 0x3000, size := 64, tag := 0, rkeys := fun _ => 7 }]
    (by decide)).mpr ⟨hfirst, fun _ _ _ _ => rfl⟩⟩

/-- A receive comm whose next group has id 1. QP 1, the first one of device 1, is
missing; the request uses QPs 2 and 3. -/
def noCtsQp : NcclIbRecvComm :=
  { freshRecv Shape.twoTwo true with
    base := { freshBase Shape.twoTwo false with
      fifoHead := 1
      activeQps := fun q => if q = 1 then none else some q } }

/-- The call fails on the missing CTS QP after it has taken a request. -/
theorem a_missing_cts_qp_leaves_a_request_behind :
    ¬ ∀ (env : NetEnv) (send : NcclIbSendComm) (a : IsendArgs) (recv : NcclIbRecvComm)
      (bufs : List RecvBuffer), 0 < recv.base.ndevs →
      IsendRejectsCleanly env send a ∧ SecondLookupSucceeds env send a ∧
        IrecvRejectsCleanly env recv bufs := by
  intro h
  obtain ⟨-, -, hclean⟩ := h plainEnv (freshSend Shape.one) ⟨0x1000, 8, 0, fun _ => 3⟩ noCtsQp []
    (by decide)
  have hpast : PastChecks plainEnv noCtsQp [] [(2, 2), (3, 3)] _ 0 :=
    ⟨rfl, by decide, rfl, rfl, rfl⟩
  rcases hpast.irecv (by decide) with ⟨-, hret, htype⟩ | ⟨hsome, -⟩
  · rw [(hclean _ hret).1] at htype
    cases htype
  · cases hsome

end net_ib.p2p
