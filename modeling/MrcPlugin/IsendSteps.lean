-- What one call of ncclIbIsend can do, and that it keeps the invariant of a send
-- comm when no entry of the slot belongs to another group.
import MrcPlugin.SendSteps

namespace net_ib.p2p

open queues counts

/-! ## The request of a send -/

/-- The events of a request after one event for each member of a list. -/
theorem addEvents (devs : List Nat) : ∀ req : NcclIbRequest,
    (∀ d, (devs.foldl ncclIbAddEvent req).events d = req.events d + devs.count d) ∧
      (∀ d, (devs.foldl ncclIbAddEvent req).devBases d = (req.devBases d || decide (d ∈ devs))) ∧
      (devs.foldl ncclIbAddEvent req).type = req.type ∧
      (devs.foldl ncclIbAddEvent req).id = req.id ∧
      (devs.foldl ncclIbAddEvent req).nreqs = req.nreqs ∧
      (devs.foldl ncclIbAddEvent req).send = req.send ∧
      (devs.foldl ncclIbAddEvent req).recv = req.recv := by
  induction devs with
  | nil =>
    intro req
    exact ⟨fun d => by simp, fun d => by simp, rfl, rfl, rfl, rfl, rfl⟩
  | cons x xs ih =>
    intro req
    obtain ⟨h1, h2, h3⟩ := ih (ncclIbAddEvent req x)
    rw [List.foldl_cons]
    refine ⟨fun d => ?_, fun d => ?_, h3⟩
    · rw [h1, List.count_cons]
      unfold ncclIbAddEvent
      by_cases hd : d = x
      · subst hd
        simp
        omega
      · simp [hd, Ne.symm hd]
    · rw [h2]
      unfold ncclIbAddEvent
      by_cases hd : d = x
      · subst hd
        simp
      · simp [hd]

/-- A request as `ncclIbGetRequest` hands it out. -/
def clearCounters (req : NcclIbRequest) : NcclIbRequest :=
  { req with events := fun _ => 0, devBases := fun _ => false }

/-- `ncclIbGetRequest` takes an unused request and clears its counters. -/
theorem getRequest_cases {base base' : NcclIbNetCommBase} {i : Nat}
    (h : ncclIbGetRequest base = .ok (base', i)) :
    i < NET_IB_MAX_REQUESTS ∧ (base.reqs i).type = NCCL_NET_IB_REQ_UNUSED ∧
      base' = { base with reqs := Function.update base.reqs i (clearCounters (base.reqs i)) } := by
  unfold ncclIbGetRequest at h
  split at h
  · cases h
  · rename_i j hfind
    cases h
    have hmem := List.mem_of_find?_eq_some hfind
    have htype := List.find?_some hfind
    exact ⟨List.mem_range.mp hmem, of_decide_eq_true htype, rfl⟩

/-- The request that a send gets when it is matched with entry `r`. -/
def boundReq (sh : Shape) (comm : NcclIbSendComm) (a : IsendArgs) (r i : Nat) : NcclIbRequest :=
  let slot := slotOf comm.base.fifoHead
  let elem := comm.ctsFifo slot r
  sendRequest comm (clearCounters (comm.base.reqs i)) a
    (comm.ctsFifo slot 0).nreqs r (if a.size > elem.size then elem.size else a.size)
    ((qpsOf sh comm.base comm.base.fifoHead).map (fun q => (comm.base.qps q.1).devIndex))

/-- The elements of the current group are there. -/
def CtsThere (comm : NcclIbSendComm) : Prop :=
  let slot := slotOf comm.base.fifoHead
  (comm.ctsFifo slot 0).idx = comm.base.fifoHead + 1 ∧
    ∀ r < (comm.ctsFifo slot 0).nreqs, (comm.ctsFifo slot r).idx = comm.base.fifoHead + 1

/-- The comm after a group is posted. -/
def sentComm (comm : NcclIbSendComm) : NcclIbSendComm :=
  { comm with base := { comm.base with fifoHead := comm.base.fifoHead + 1 } }

/-- How a call of `ncclIbIsend` ends once request `i` has an entry: a group that
waits for more sends is left, and a full one is posted. -/
inductive IsendEnds (env : NetEnv) (comm : NcclIbSendComm) (slot nreqs i : Nat) : IsendOut → Prop
  | waits (hcnt : comm.sendReqsCnt slot < nreqs) :
    IsendEnds env comm slot nreqs i ⟨comm, [], .ok (some i)⟩
  | fails {e : Stop} (hcnt : ¬ comm.sendReqsCnt slot < nreqs)
    (hsend : ncclIbMultiSend env comm slot = .error e) :
    IsendEnds env comm slot nreqs i ⟨comm, [], .error e⟩
  | posts {comm' : NcclIbSendComm} {posts : List SendPost} (hcnt : ¬ comm.sendReqsCnt slot < nreqs)
    (hsend : ncclIbMultiSend env comm slot = .ok (comm', posts)) :
    IsendEnds env comm slot nreqs i ⟨sentComm comm', posts, .ok (some i)⟩

/-- A send that has found entry `r` and gets a request is bound to the entry. -/
theorem isendEntry_ends {sh : Shape} {comm : NcclIbSendComm} (hb : Striped sh comm.base)
    (hact : ∀ q < sh.nqps, (comm.base.activeQps q).isSome) (env : NetEnv) (a : IsendArgs)
    {r i : Nat} {base : NcclIbNetCommBase}
    (hinfo : ¬ ((comm.ctsFifo (slotOf comm.base.fifoHead) r).addr = 0 ∨
      (comm.ctsFifo (slotOf comm.base.fifoHead) r).rkeys 0 = 0))
    (hget : ncclIbGetRequest comm.base = .ok (base, i)) :
    IsendEnds env (bindEntry comm (slotOf comm.base.fifoHead) r i (boundReq sh comm a r i))
      (slotOf comm.base.fifoHead) (comm.ctsFifo (slotOf comm.base.fifoHead) 0).nreqs i
      (isendEntry env comm a (slotOf comm.base.fifoHead)
        (comm.ctsFifo (slotOf comm.base.fifoHead) 0).nreqs r) := by
  obtain ⟨_, _, hbase⟩ := getRequest_cases hget
  have hsame : bindEntry { comm with base }
      (slotOf comm.base.fifoHead) r i (boundReq sh comm a r i) =
      bindEntry comm (slotOf comm.base.fifoHead) r i (boundReq sh comm a r i) := by
    rw [hbase]
    unfold bindEntry
    simp
  have hreq : sendRequest comm (base.reqs i) a
      (comm.ctsFifo (slotOf comm.base.fifoHead) 0).nreqs r
      (if a.size > (comm.ctsFifo (slotOf comm.base.fifoHead) r).size then
        (comm.ctsFifo (slotOf comm.base.fifoHead) r).size else a.size)
      ((qpsOf sh comm.base comm.base.fifoHead).map (fun q => (comm.base.qps q.1).devIndex)) =
      boundReq sh comm a r i := by
    have hclear : base.reqs i = clearCounters (comm.base.reqs i) := by
      rw [hbase]
      exact Function.update_self ..
    rw [hclear]
    rfl
  unfold isendEntry
  rw [requestQps_eq hb hact]
  simp only [hget, hreq, hsame]
  rw [if_neg hinfo]
  split
  · rename_i hlt
    exact .waits hlt
  · rename_i hlt
    cases hsend : ncclIbMultiSend env (bindEntry comm (slotOf comm.base.fifoHead) r i
        (boundReq sh comm a r i)) (slotOf comm.base.fifoHead) with
    | error e => exact .fails hlt hsend
    | ok p => exact .posts hlt hsend

/-- A call of `ncclIbIsend` changes nothing, or it binds the send to an entry. -/
theorem isend_cases {sh : Shape} {comm : NcclIbSendComm} (hb : Striped sh comm.base)
    (hact : ∀ q < sh.nqps, (comm.base.activeQps q).isSome) (env : NetEnv) (a : IsendArgs) :
    ((ncclIbIsend env comm a).comm = comm ∧ (ncclIbIsend env comm a).posts = [] ∧
        ∀ i, (ncclIbIsend env comm a).ret ≠ .ok (some i)) ∨
      ∃ r i, CtsThere comm ∧
        matchEntry comm (slotOf comm.base.fifoHead)
          (comm.ctsFifo (slotOf comm.base.fifoHead) 0).nreqs a.tag = some r ∧
        i < NET_IB_MAX_REQUESTS ∧ (comm.base.reqs i).type = NCCL_NET_IB_REQ_UNUSED ∧
        IsendEnds env (bindEntry comm (slotOf comm.base.fifoHead) r i (boundReq sh comm a r i))
          (slotOf comm.base.fifoHead) (comm.ctsFifo (slotOf comm.base.fifoHead) 0).nreqs i
          (ncclIbIsend env comm a) := by
  unfold ncclIbIsend
  split
  · exact .inl ⟨rfl, rfl, fun i hc => by cases hc⟩
  split
  · exact .inl ⟨rfl, rfl, fun i hc => by cases hc⟩
  simp only
  split
  · exact .inl ⟨rfl, rfl, fun i hc => by cases hc⟩
  rename_i hidx
  split
  · exact .inl ⟨rfl, rfl, fun i hc => by cases hc⟩
  rename_i hall
  split
  · exact .inl ⟨rfl, rfl, fun i hc => by cases hc⟩
  rename_i r hmatch
  by_cases hinfo : (comm.ctsFifo (slotOf comm.base.fifoHead) r).addr = 0 ∨
      (comm.ctsFifo (slotOf comm.base.fifoHead) r).rkeys 0 = 0
  · unfold isendEntry
    simp only [if_pos hinfo]
    exact .inl ⟨trivial, trivial, fun i hc => by cases hc⟩
  cases hget : ncclIbGetRequest comm.base with
  | error e =>
    unfold isendEntry
    simp only [if_neg hinfo, requestQps_eq hb hact, hget]
    exact .inl ⟨trivial, trivial, fun i hc => by cases hc⟩
  | ok p =>
    obtain ⟨base, i⟩ := p
    obtain ⟨hi, hunused, _⟩ := getRequest_cases hget
    refine .inr ⟨r, i, ⟨by simpa using hidx, ?_⟩, hmatch, hi, hunused,
      isendEntry_ends hb hact env a hinfo hget⟩
    intro r' hr'
    by_contra hne
    apply hall
    rw [List.any_eq_true]
    exact ⟨r', List.mem_range.mpr hr', by simpa using hne⟩

/-! ## The elements of the current group -/

section
variable {sh : Shape} {b0 : NcclIbNetCommBase} {g : Nat → List NcclIbSendFifo} {s : SendState}

/-- An element with the id of a group is that group's. -/
theorem SendGood.cts_elem (hg : GroupsOk g) (h : SendGood sh b0 g s) {slot r k : Nat}
    (hidx : (s.comm.ctsFifo slot r).idx = k + 1) : (g k)[r]? = some (s.comm.ctsFifo slot r) := by
  rcases h.cts slot r with h0 | ⟨k', _, helem⟩
  · omega
  · have := hg.idx k' r _ helem
    have hk : k' = k := by omega
    rwa [hk] at helem

theorem SendGood.cts_nreqs (hg : GroupsOk g) (h : SendGood sh b0 g s) (hthere : CtsThere s.comm) :
    (s.comm.ctsFifo (slotOf s.comm.base.fifoHead) 0).nreqs = (g s.comm.base.fifoHead).length :=
  hg.nreqs _ _ _ (h.cts_elem hg hthere.1)

theorem matchEntry_cases {comm : NcclIbSendComm} {slot nreqs : Nat} {tag : Int} {r : Nat}
    (h : matchEntry comm slot nreqs tag = some r) :
    r < nreqs ∧ comm.sendReqs slot r = none ∧ (comm.ctsFifo slot r).tag = u32 tag := by
  have hmem := List.mem_of_find?_eq_some h
  have hfit := List.find?_some h
  simp only [decide_eq_true_eq, Option.isNone_iff_eq_none] at hfit
  exact ⟨List.mem_range.mp hmem, hfit.1, hfit.2⟩

/-- The request that a send gets is fresh. -/
theorem freshReq_bound (h : SendGood sh b0 g s)
    (hn : (s.comm.ctsFifo (slotOf s.comm.base.fifoHead) 0).nreqs = (g s.comm.base.fifoHead).length)
    (a : IsendArgs) (r i : Nat) :
    FreshReq sh b0 g s.comm.base.fifoHead (boundReq sh s.comm a r i) := by
  unfold boundReq sendRequest
  refine ⟨(addEvents _ _).2.2.1, (addEvents _ _).2.2.2.1, ?_, fun d => ?_⟩
  · exact (addEvents _ _).2.2.2.2.1.trans hn
  · rw [(addEvents _ _).1 d]
    -- One completion on the device for each QP of the group that lies on it.
    unfold groupCqes
    rw [List.countP_map, h.same.qpsOf, h.same.qps, List.count_eq_countP, List.countP_map]
    simp only [clearCounters, Int.zero_add]
    congr 2
    funext q
    simp [isFor, groupCqe, Bool.beq_eq_decide_eq]

/-! ## A full group -/

/-- When the counter has reached the size of the group, every entry is taken. -/
theorem row_full (hg : GroupsOk g) (h : SendGood sh b0 g s) (hfree : s.SlotFree)
    (hcnt : ¬ s.comm.sendReqsCnt (slotOf s.comm.base.fifoHead) < (g s.comm.base.fifoHead).length) :
    ∀ r < (g s.comm.base.fifoHead).length, (s.owner (slotOf s.comm.base.fifoHead) r).isSome := by
  have hbelow : ∀ r, s.isOpen (slotOf s.comm.base.fifoHead) r = true →
      r < (g s.comm.base.fifoHead).length := by
    intro r hr
    obtain ⟨o, ho, _⟩ := (isOpen_iff _ _).mp hr
    have := (h.owner _ _ _ ho).2.2.1
    rwa [hfree r o ho] at this
  have hcount := h.cnt (slotOf s.comm.base.fifoHead)
  rw [countP_range_of_lt (hg.length_le _) hbelow] at hcount
  intro r hr
  have hopen := all_of_countP_ge (f := s.isOpen (slotOf s.comm.base.fifoHead))
    (l := List.range (g s.comm.base.fifoHead).length) (by rw [List.length_range]; omega) r
    (List.mem_range.mpr hr)
  obtain ⟨o, ho, _⟩ := (isOpen_iff _ _).mp hopen
  rw [ho]
  rfl

/-- A group that is not too large can only fail to be posted at a missing entry. -/
theorem multiSend_error {comm : NcclIbSendComm} {slot : Nat} {env : NetEnv} {e : Stop}
    (hb : Striped sh comm.base) (hact : ∀ q < sh.nqps, (comm.base.activeQps q).isSome)
    (hle : (comm.ctsFifo slot 0).nreqs ≤ NCCL_NET_IB_MAX_RECVS)
    (h : ncclIbMultiSend env comm slot = .error e) : e = .badPointer := by
  have hloop : ∀ (l : List Nat) (e : Stop),
      l.mapM (fun r => deref (comm.sendReqs slot r)) = .error e → e = .badPointer := by
    intro l
    induction l with
    | nil => intro e he; cases he
    | cons r rs ih =>
      intro e he
      rw [List.mapM_cons] at he
      cases hr : comm.sendReqs slot r with
      | none =>
        rw [hr] at he
        cases he
        rfl
      | some i =>
        rw [hr] at he
        cases hrs : rs.mapM (fun r => deref (comm.sendReqs slot r)) with
        | error e' =>
          rw [hrs] at he
          cases he
          exact ih _ hrs
        | ok is =>
          rw [hrs] at he
          cases he
  unfold ncclIbMultiSend at h
  rw [if_neg (Nat.not_lt_of_le hle)] at h
  cases h0 : comm.sendReqs slot 0 with
  | none =>
    rw [h0] at h
    cases h
    rfl
  | some req0 =>
    rw [h0] at h
    have hqps := requestQps_eq hb hact (comm.base.reqs req0).id
    cases hall : (List.range (comm.ctsFifo slot 0).nreqs).mapM
        (fun r => deref (comm.sendReqs slot r)) with
    | error e' =>
      rw [hall] at h
      have : (do
        let qps ← requestQps comm.base (comm.base.reqs req0).id
        (Except.error e' : Except Stop (NcclIbSendComm × List SendPost))) = .error e := h
      rw [hqps] at this
      cases this
      exact hloop _ _ hall
    | ok is =>
      rw [hall] at h
      have : (do
        let qps ← requestQps comm.base (comm.base.reqs req0).id
        return multiSendPost env comm slot qps : Except Stop _) = .error e := h
      rw [hqps] at this
      cases this

/-- The posts of the current group, once it is full. -/
def groupPosts (sh : Shape) (env : NetEnv) (comm : NcclIbSendComm) : List SendPost :=
  callPosts env comm (slotOf comm.base.fifoHead) (qpsOf sh comm.base comm.base.fifoHead)

/-- A row with all its entries is posted, whatever they stand for. The requests keep
all but the record of what was sent. -/
theorem multiSend_row {comm : NcclIbSendComm} {slot : Nat} (hb : PlainBase sh comm.base)
    (hpos : 0 < (comm.ctsFifo slot 0).nreqs) (hle : (comm.ctsFifo slot 0).nreqs ≤ 8)
    (hmatched : ∀ r < (comm.ctsFifo slot 0).nreqs, (comm.sendReqs slot r).isSome) (env : NetEnv) :
    ∃ reqs, ncclIbMultiSend env comm slot = .ok (comm.withReqs reqs,
        callPosts env comm slot (qpsOf sh comm.base (reqAt comm slot 0).id)) ∧
      ∀ i, ∃ sentData, reqs i = { comm.base.reqs i with
        send := { (comm.base.reqs i).send with sentData } } := by
  have hsend := multiSend_eq env hb.striped hb.isSome hpos hle hmatched
  unfold multiSendPost at hsend
  simp only at hsend
  have hres : comm.base.resiliency = false := hb.resiliency
  rw [foldl_posted _ _ _ (fun hr => absurd (hres.symm.trans hr) (by simp))
    (fun hr => absurd (hres.symm.trans hr) (by simp))] at hsend
  exact ⟨_, hsend, fun i => foldl_reqs _ _ _ _⟩

/-- A full group is posted: one completion for each QP will come, and the
requests keep all but the record of what was sent. -/
theorem multiSend_full (hg : GroupsOk g) (h : SendGood sh b0 g s) (hfree : s.SlotFree)
    (hthere : CtsThere s.comm) (hpos : 0 < (g s.comm.base.fifoHead).length)
    (hfull : ∀ r < (g s.comm.base.fifoHead).length,
      (s.owner (slotOf s.comm.base.fifoHead) r).isSome) (env : NetEnv) :
    ∃ reqs, ncclIbMultiSend env s.comm (slotOf s.comm.base.fifoHead) =
        .ok (s.comm.withReqs reqs, groupPosts sh env s.comm) ∧
      (∀ i, ∃ sentData, reqs i = { s.comm.base.reqs i with
        send := { (s.comm.base.reqs i).send with sentData } }) ∧
      sendCqes s.comm.base s.comm.base.fifoHead (groupPosts sh env s.comm) =
        groupCqes sh b0 g s.comm.base.fifoHead ∧
      groupPosts sh env s.comm ≠ [] := by
  have hn := h.cts_nreqs hg hthere
  have hb := h.plain.same h.same
  have hentry : ∀ r < (g s.comm.base.fifoHead).length,
      ∃ i, s.comm.sendReqs (slotOf s.comm.base.fifoHead) r = some i ∧
        (s.comm.base.reqs i).id = s.comm.base.fifoHead := by
    intro r hr
    obtain ⟨o, ho⟩ := Option.isSome_iff_exists.mp (hfull r hr)
    have hoid := hfree r o ho
    obtain ⟨i, _, hsend, _, _, hid, _⟩ := h.open_req _ _ _ ho (h.current _ _ _ ho hoid)
    exact ⟨i, hsend, hid.trans hoid⟩
  have hid0 : (reqAt s.comm (slotOf s.comm.base.fifoHead) 0).id = s.comm.base.fifoHead := by
    obtain ⟨i, hsend, hid⟩ := hentry 0 hpos
    unfold reqAt
    rw [hsend]
    exact hid
  have hmatched : ∀ r < (s.comm.ctsFifo (slotOf s.comm.base.fifoHead) 0).nreqs,
      (s.comm.sendReqs (slotOf s.comm.base.fifoHead) r).isSome := by
    intro r hr
    obtain ⟨i, hi, _⟩ := hentry r (hn ▸ hr)
    rw [hi]
    rfl
  obtain ⟨reqs, hsend, hreqs⟩ := multiSend_row hb (hn ▸ hpos)
    (Nat.le_trans (Nat.le_of_eq hn) (hg.length_le _)) hmatched env
  rw [hid0] at hsend
  have hcqes : sendCqes s.comm.base s.comm.base.fifoHead (groupPosts sh env s.comm) =
      groupCqes sh b0 g s.comm.base.fifoHead := by
    unfold groupPosts callPosts
    have hchain := chain_loopPosts (qpsOf sh s.comm.base s.comm.base.fifoHead) _
      (marked_init (multiSendCall env s.comm (slotOf s.comm.base.fifoHead)
        (qpsOf sh s.comm.base s.comm.base.fifoHead)) (immDataOf s.comm.base (s.comm.base.reqs
          ((multiSendCall env s.comm (slotOf s.comm.base.fifoHead)
            (qpsOf sh s.comm.base s.comm.base.fifoHead)).reqs 0))))
    rw [sendCqes_chain hchain]
    unfold groupCqes
    rw [h.same.qpsOf]
    refine List.map_congr_left (fun q _ => ?_)
    unfold groupCqe
    rw [h.same.qps]
    simp only [multiSendCall, hn]
  refine ⟨reqs, hsend, hreqs, hcqes, ?_⟩
  intro hnil
  rw [hnil] at hcqes
  exact groupCqes_ne_nil _ hcqes.symm

/-! ## The step -/

/-- The state after the current group is posted. -/
def SendState.posted (s : SendState) (sh : Shape) (env : NetEnv) (n : Nat)
    (reqs : Nat → NcclIbRequest) : SendState :=
  let id := s.comm.base.fifoHead
  let posts := groupPosts sh env s.comm
  { s with
    comm := sentComm (s.comm.withReqs reqs)
    sq := s.sq ++ sendCqes s.comm.base id posts
    sent := s.sent ++ [⟨id, (List.range n).map (s.owner (slotOf id)), posts⟩] }

/-- What a step of `ncclIbIsend` that accepts a send does: it takes entry `r`, and
posts the group when the group is full. -/
inductive Accepts (sh : Shape) (env : NetEnv) (n : Nat) (s : SendState) : SendState → Prop
  | waits (hcnt : s.comm.sendReqsCnt (slotOf s.comm.base.fifoHead) < n) : Accepts sh env n s s
  | posts {reqs : Nat → NcclIbRequest}
    (hfull : ∀ r < n, (s.owner (slotOf s.comm.base.fifoHead) r).isSome)
    (hreqs : ∀ i, ∃ sentData, reqs i = { s.comm.base.reqs i with
      send := { (s.comm.base.reqs i).send with sentData } }) :
    Accepts sh env n s (s.posted sh env n reqs)

theorem accept_waits {a : IsendArgs} {r : Nat} (hentry : s.entry a = r) (i : Nat)
    (req : NcclIbRequest) (ret : Except Stop (Option Nat)) :
    s.accept a ⟨(s.bound a r i req).comm, [], ret⟩ i = s.bound a r i req := by
  unfold SendState.accept SendState.bound
  simp [hentry, sendCqes]

theorem accept_posts {a : IsendArgs} {r n : Nat} (hentry : s.entry a = r) (i : Nat)
    (req : NcclIbRequest) (ret : Except Stop (Option Nat)) (env : NetEnv)
    (reqs : Nat → NcclIbRequest)
    (hn : (s.comm.ctsFifo (slotOf s.comm.base.fifoHead) 0).nreqs = n)
    (hne : groupPosts sh env (s.bound a r i req).comm ≠ []) :
    s.accept a ⟨sentComm ((s.bound a r i req).comm.withReqs reqs),
      groupPosts sh env (s.bound a r i req).comm, ret⟩ i =
      (s.bound a r i req).posted sh env n reqs := by
  unfold SendState.accept SendState.posted
  simp only [hentry, hn]
  rw [if_neg hne]
  rfl

/-- A send that has found a free entry of a free slot is accepted. -/
theorem isend_accepted (hg : GroupsOk g) (h : SendGood sh b0 g s) {env : NetEnv} {a : IsendArgs}
    {r i : Nat} (hcall : s.call = none) (hfree : s.SlotFree) (hthere : CtsThere s.comm)
    (hm : matchEntry s.comm (slotOf s.comm.base.fifoHead) (g s.comm.base.fifoHead).length a.tag =
      some r)
    (hi : i < NET_IB_MAX_REQUESTS) (hu : (s.comm.base.reqs i).type = NCCL_NET_IB_REQ_UNUSED)
    (hends : IsendEnds env
      (bindEntry s.comm (slotOf s.comm.base.fifoHead) r i (boundReq sh s.comm a r i))
      (slotOf s.comm.base.fifoHead) (s.comm.ctsFifo (slotOf s.comm.base.fifoHead) 0).nreqs i
      (ncclIbIsend env s.comm a)) :
    SendGood sh b0 g (s.bound a r i (boundReq sh s.comm a r i)) ∧
      ∃ t, s.next g (.isend env a) = some t ∧ Accepts sh env (g s.comm.base.fifoHead).length
        (s.bound a r i (boundReq sh s.comm a r i)) t := by
  have hn := h.cts_nreqs hg hthere
  obtain ⟨hr, hnone, htag⟩ := matchEntry_cases hm
  have hgood := good_bind h (takes_bound a r i (boundReq sh s.comm a r i)) hcall hfree hr
    (Nat.lt_of_lt_of_le hr (hg.length_le _)) hnone hi hu (freshReq_bound h hn a r i)
  refine ⟨hgood, ?_⟩
  have hentry : s.entry a = r := by
    unfold SendState.entry
    simp only [hn, hm]
    rfl
  have hf' := (takes_bound a r i (boundReq sh s.comm a r i)).slotFree hfree
  have hsent : ∀ hfull, _ := fun hfull =>
    multiSend_full hg hgood hf' hthere (Nat.lt_of_le_of_lt (Nat.zero_le _) hr) hfull env
  have hrow := row_full hg hgood hf'
  rw [hn] at hends
  simp only [SendState.next, hcall]
  generalize hout : ncclIbIsend env s.comm a = out at hends
  cases hends with
  | waits hcnt =>
    exact ⟨_, congrArg some (accept_waits hentry i (boundReq sh s.comm a r i) (.ok (some i))),
      .waits hcnt⟩
  | fails hcnt hsend =>
    obtain ⟨reqs, hok, _⟩ := hsent (hrow hcnt)
    have : (Except.error _ : Except Stop (NcclIbSendComm × List SendPost)) = .ok _ :=
      hsend.symm.trans hok
    cases this
  | posts hcnt hsend =>
    obtain ⟨reqs, hok, hreqs, hcqes, hne⟩ := hsent (hrow hcnt)
    have heq := Except.ok.inj (hsend.symm.trans hok)
    obtain ⟨rfl, rfl⟩ := Prod.mk.inj heq
    exact ⟨_, congrArg some (accept_posts hentry i (boundReq sh s.comm a r i) (.ok (some i)) env
      reqs hn hne), .posts (hrow hcnt) hreqs⟩

theorem isend_next (hg : GroupsOk g) (h : SendGood sh b0 g s) {env : NetEnv} {a : IsendArgs}
    (hfree : ∀ r, CtsThere s.comm → matchEntry s.comm (slotOf s.comm.base.fifoHead)
      (g s.comm.base.fifoHead).length a.tag = some r → s.SlotFree)
    {t : SendState} (hnext : s.next g (.isend env a) = some t) :
    t = s ∨ ∃ r i, CtsThere s.comm ∧
      matchEntry s.comm (slotOf s.comm.base.fifoHead) (g s.comm.base.fifoHead).length a.tag =
        some r ∧ i < NET_IB_MAX_REQUESTS ∧
      (s.comm.base.reqs i).type = NCCL_NET_IB_REQ_UNUSED ∧ s.SlotFree ∧
      SendGood sh b0 g (s.bound a r i (boundReq sh s.comm a r i)) ∧
      Accepts sh env (g s.comm.base.fifoHead).length
        (s.bound a r i (boundReq sh s.comm a r i)) t := by
  have hcall : s.call = none := by
    by_contra hsome
    simp only [SendState.next] at hnext
    rw [if_pos (Option.isSome_iff_ne_none.mpr hsome)] at hnext
    cases hnext
  have hb := h.plain.same h.same
  rcases isend_cases hb.striped hb.isSome env a with
    ⟨hcomm, _, hret⟩ | ⟨r, i, hthere, hm, hi, hu, hends⟩
  · left
    simp only [SendState.next, hcomm] at hnext
    split at hnext
    · cases hnext
    split at hnext
    · exact (Option.some.inj hnext).symm
    · cases hnext
    · exact (Option.some.inj hnext).symm
    · rename_i hsome
      exact absurd hsome (hret _)
  · right
    rw [h.cts_nreqs hg hthere] at hm
    have hf := hfree r hthere hm
    obtain ⟨hgood, t', hnext', hacc⟩ := isend_accepted hg h hcall hf hthere hm hi hu hends
    rw [hnext'] at hnext
    rw [← Option.some.inj hnext]
    exact ⟨r, i, hthere, hm, hi, hu, hf, hgood, hacc⟩

/-- The post of a full group keeps the invariant. -/
theorem good_accepts (hg : GroupsOk g) (h : SendGood sh b0 g s) (hfree : s.SlotFree)
    (hthere : CtsThere s.comm) (hpos : 0 < (g s.comm.base.fifoHead).length) {env : NetEnv}
    {t : SendState} (ht : Accepts sh env (g s.comm.base.fifoHead).length s t) :
    SendGood sh b0 g t := by
  cases ht with
  | waits => exact h
  | posts hfull hreqs =>
    obtain ⟨_, _, _, hcqes, _⟩ := multiSend_full hg h hfree hthere hpos hfull env
    refine good_post h ?_ hfree hpos hfull
    exact
      { same := ⟨rfl, rfl, rfl, rfl, rfl, rfl, rfl, rfl, rfl, rfl⟩
        fifoHead := rfl
        ctsFifo := rfl
        sendReqs := rfl
        sendReqsCnt := rfl
        reqs := fun i => by
          obtain ⟨sentData, hi⟩ := hreqs i
          have : (s.posted sh env (g s.comm.base.fifoHead).length _).comm.base.reqs i = _ := hi
          rw [this]
          exact ⟨rfl, rfl, rfl, rfl⟩
        sq := congrArg (s.sq ++ ·) hcqes
        cq := rfl
        call := rfl
        owner := rfl
        serialOf := rfl
        nextSerial := rfl
        reported := rfl
        processed := rfl }

end

end net_ib.p2p
