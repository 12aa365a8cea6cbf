-- The size of a send, from the call of ncclIbIsend (p2p.cc) to the bytes on the wire
-- and the sizes that both sides report. It starts as a `size_t`, up to the maxP2pBytes
-- that ncclIbGetProperties (init.cc) names, and is kept in an `int`.
import MrcPlugin.Rejects
import MrcPlugin.SizesAgree
import MrcPlugin.SendMatch

namespace net_ib.p2p

/-- The limit on sizes that `ncclIbGetPhysProperties` sets as `maxP2pBytes`. -/
def NCCL_MAX_NET_SIZE_BYTES : Nat := 1 * 1024 * 1024 * 1024 * 1024

/-! ## A group while its sends arrive -/

/-- The sends of the current group that are bound so far, with `m r` bytes for entry `r`. -/
structure GroupOpen (comm : NcclIbSendComm) (m : Nat → Nat) : Prop where
  send : ∀ r i, comm.sendReqs (slotOf comm.base.fifoHead) r = some i →
    (comm.base.reqs i).type = NCCL_NET_IB_REQ_SEND ∧ (comm.base.reqs i).id = comm.base.fifoHead ∧
      (comm.base.reqs i).send.size = i32 (m r)
  elems : ∀ r i, comm.sendReqs (slotOf comm.base.fifoHead) r = some i →
    comm.remCmplsRecords.elems (slotOf comm.base.fifoHead) r = i32 (m r)
  unsent : comm.base.resiliency = true →
    ∀ r i, comm.sendReqs (slotOf comm.base.fifoHead) r = some i →
      ∀ q, (comm.base.reqs i).send.sentData q = false

/-- A group that no send has joined. -/
theorem groupOpen_empty {comm : NcclIbSendComm}
    (h : ∀ r, comm.sendReqs (slotOf comm.base.fifoHead) r = none) (m : Nat → Nat) :
    GroupOpen comm m := by
  refine ⟨?_, ?_, fun _ => ?_⟩
  · intro r i hi
    rw [h r] at hi
    cases hi
  · intro r i hi
    rw [h r] at hi
    cases hi
  · intro r i hi
    rw [h r] at hi
    cases hi

/-- A call of `ncclIbIsend` that accepts its send. -/
structure AcceptedSend where
  env : NetEnv
  sh : Shape
  comm : NcclIbSendComm
  striped : Striped sh comm.base
  active : ∀ q < sh.nqps, (comm.base.activeQps q).isSome
  id_lt : comm.base.fifoHead < 2 ^ 56
  /-- The bytes that each send of the group moves. -/
  m : Nat → Nat
  group : GroupOpen comm m
  a : IsendArgs
  i : Nat
  accepted : (ncclIbIsend env comm a).ret = .ok (some i)

namespace AcceptedSend

variable (x : AcceptedSend)

def slot : Nat := slotOf x.comm.base.fifoHead

def nreqs : Nat := (x.comm.ctsFifo x.slot 0).nreqs

def out : IsendOut := ncclIbIsend x.env x.comm x.a

/-- The entry that the send takes. -/
def entry : Nat := (matchEntry x.comm x.slot x.nreqs x.a.tag).getD 0

/-- The bytes that each send of the group moves: this one moves its own size or the
size of the posted receive, whichever is less. -/
def sizes : Nat → Nat :=
  Function.update x.m x.entry (min x.a.size (x.comm.ctsFifo x.slot x.entry).size)

/-- The comm with the send in its entry. -/
def bound : NcclIbSendComm :=
  bindEntry x.comm x.slot x.entry x.i (boundReq x.sh x.comm x.a x.entry x.i)

/-- The request of entry `r`. -/
def request (r : Nat) : Nat := (x.bound.sendReqs x.slot r).getD 0

theorem cases : x.entry < x.nreqs ∧ x.comm.sendReqs x.slot x.entry = none ∧
    (x.comm.base.reqs x.i).type = NCCL_NET_IB_REQ_UNUSED ∧
    IsendEnds x.env x.bound x.slot x.nreqs x.i x.out := by
  rcases isend_cases x.striped x.active x.env x.a with ⟨-, -, hno⟩ | hyes
  · exact absurd x.accepted (hno x.i)
  · obtain ⟨r, i, -, hmatch, -, hunused, hends⟩ := hyes
    obtain ⟨hr, hnone, -⟩ := matchEntry_cases hmatch
    have hentry : x.entry = r := by
      unfold entry
      rw [show matchEntry x.comm x.slot x.nreqs x.a.tag = some r from hmatch]
      rfl
    have hi : i = x.i := by
      have haccepted := x.accepted
      cases hends' : ncclIbIsend x.env x.comm x.a with
      | mk comm posts ret =>
        rw [hends'] at haccepted hends
        cases hends with
        | waits => exact Option.some.inj (Except.ok.inj haccepted)
        | fails => cases haccepted
        | posts => exact Option.some.inj (Except.ok.inj haccepted)
    subst hi
    unfold bound
    rw [hentry]
    exact ⟨hr, hnone, hunused, hends⟩

/-- The bound send has its request, and the others keep theirs. -/
theorem bound_group : GroupOpen x.bound x.sizes := by
  obtain ⟨-, -, hunused, -⟩ := x.cases
  have hreq : ∀ r i, x.bound.sendReqs x.slot r = some i →
      (r = x.entry ∧ i = x.i) ∨ (r ≠ x.entry ∧ x.comm.sendReqs x.slot r = some i ∧ i ≠ x.i) := by
    intro r i hi
    unfold bound bindEntry at hi
    simp only [Function.update_self] at hi
    by_cases hr : r = x.entry
    · rw [hr, Function.update_self] at hi
      exact .inl ⟨hr, (Option.some.inj hi).symm⟩
    · rw [Function.update_of_ne hr] at hi
      refine .inr ⟨hr, hi, ?_⟩
      rintro rfl
      have htype := (x.group.send r x.i hi).1
      rw [hunused] at htype
      cases htype
  have hself : x.bound.base.reqs x.i = boundReq x.sh x.comm x.a x.entry x.i :=
    Function.update_self ..
  have hother : ∀ i, i ≠ x.i → x.bound.base.reqs i = x.comm.base.reqs i := fun i hi =>
    Function.update_of_ne hi ..
  have hfields := addEvents ((qpsOf x.sh x.comm.base x.comm.base.fifoHead).map
    (fun q => (x.comm.base.qps q.1).devIndex))
  have hmin : (if x.a.size > (x.comm.ctsFifo x.slot x.entry).size then
      (x.comm.ctsFifo x.slot x.entry).size else x.a.size) = x.sizes x.entry := by
    unfold sizes
    rw [Function.update_self]
    split <;> omega
  have hsize : (boundReq x.sh x.comm x.a x.entry x.i).send.size = i32 (x.sizes x.entry) := by
    rw [← hmin]
    unfold boundReq sendRequest slot
    simp only
    rw [(hfields _).2.2.2.2.2.1]
  have hold : ∀ r, r ≠ x.entry → x.sizes r = x.m r := fun r hr => Function.update_of_ne hr ..
  refine ⟨?_, ?_, ?_⟩
  · intro r i hi
    rcases hreq r i hi with ⟨rfl, rfl⟩ | ⟨hr, hi, hne⟩
    · rw [hself]
      refine ⟨?_, ?_, hsize⟩
      · exact (hfields _).2.2.1
      · exact (hfields _).2.2.2.1
    · rw [hother i hne, hold r hr]
      exact x.group.send r i hi
  · intro r i hi
    show Function.update x.comm.remCmplsRecords.elems x.slot (Function.update
      (x.comm.remCmplsRecords.elems x.slot) x.entry _) x.slot r = _
    rw [Function.update_self]
    rcases hreq r i hi with ⟨rfl, rfl⟩ | ⟨hr, hi, -⟩
    · rw [Function.update_self]
      exact hsize
    · rw [Function.update_of_ne hr, hold r hr]
      exact x.group.elems r i hi
  · intro hres r i hi q
    rcases hreq r i hi with ⟨rfl, rfl⟩ | ⟨-, hi, hne⟩
    · rw [hself]
      unfold boundReq sendRequest
      simp only
      rw [(hfields _).2.2.2.2.2.1]
      simp only
      rw [if_pos (show x.comm.base.resiliency = true from hres)]
    · rw [hother i hne]
      exact x.group.unsent hres r i hi q

end AcceptedSend

/-- What a call of `ncclIbMultiSend` has found when it succeeds. -/
theorem multiSend_found {env : NetEnv} {comm comm' : NcclIbSendComm} {slot : Nat}
    {posts : List SendPost} (h : ncclIbMultiSend env comm slot = .ok (comm', posts)) :
    (comm.ctsFifo slot 0).nreqs ≤ 8 ∧
      ∀ r < (comm.ctsFifo slot 0).nreqs, (comm.sendReqs slot r).isSome := by
  have hle : ¬ (comm.ctsFifo slot 0).nreqs > NCCL_NET_IB_MAX_RECVS := by
    intro hgt
    unfold ncclIbMultiSend at h
    rw [if_pos hgt] at h
    cases h
  refine ⟨by unfold NCCL_NET_IB_MAX_RECVS at hle; omega, ?_⟩
  cases hreq0 : comm.sendReqs slot 0 with
  | none =>
    unfold ncclIbMultiSend at h
    rw [if_neg hle, hreq0] at h
    cases h
  | some req0 =>
    rw [multiSend_bind env (by omega) hreq0] at h
    cases hqps : requestQps comm.base (comm.base.reqs req0).id with
    | error e =>
      rw [hqps] at h
      cases h
    | ok qps =>
      rw [hqps] at h
      cases hall : groupReqs comm slot with
      | error e =>
        have hbind : ((groupReqs comm slot).bind fun _ =>
            Except.ok (multiSendPost env comm slot qps)) = .ok (comm', posts) := h
        rw [hall] at hbind
        cases hbind
      | ok reqs =>
        intro r hr
        obtain ⟨j, hj⟩ := mapM_succeeds _ reqs hall r (List.mem_range.mpr hr)
        by_contra hnone
        rw [Option.not_isSome_iff_eq_none] at hnone
        rw [hnone] at hj
        cases hj

namespace AcceptedSend

variable (x : AcceptedSend)

/-- The call leaves a group that waits for more sends, or it posts a bound one. -/
theorem ends : (x.out.posts = [] ∧ x.out.comm = x.bound) ∨
    ∃ comm', ncclIbMultiSend x.env x.bound x.slot = .ok (comm', x.out.posts) ∧
      x.out.comm = sentComm comm' := by
  have haccepted : x.out.ret = .ok (some x.i) := x.accepted
  obtain ⟨-, -, -, hends⟩ := x.cases
  generalize x.out = out at haccepted hends ⊢
  cases hends with
  | waits => exact .inl ⟨rfl, rfl⟩
  | fails => cases haccepted
  | @posts comm' posts _ hsend => exact .inr ⟨comm', hsend, rfl⟩

theorem reqAt_bound (r : Nat) : reqAt x.bound x.slot r = x.bound.base.reqs (x.request r) := rfl

/-- A group that can be posted is bound. -/
theorem bound_posts {comm' : NcclIbSendComm} {posts : List SendPost}
    (h : ncclIbMultiSend x.env x.bound x.slot = .ok (comm', posts)) :
    BoundGroup x.bound x.slot ∧ (reqAt x.bound x.slot 0).id = x.comm.base.fifoHead ∧
      ∀ r < x.nreqs, (reqAt x.bound x.slot r).send.size = i32 (x.sizes r) := by
  obtain ⟨hle, hmatched⟩ := multiSend_found h
  have hpos : 0 < (x.bound.ctsFifo x.slot 0).nreqs := Nat.lt_of_le_of_lt (Nat.zero_le _) x.cases.1
  have hgroup := x.bound_group
  have hentry : ∀ r < (x.bound.ctsFifo x.slot 0).nreqs,
      x.bound.sendReqs x.slot r = some (x.request r) := by
    intro r hr
    obtain ⟨i, hi⟩ := Option.isSome_iff_exists.mp (hmatched r hr)
    unfold request
    rw [hi]
    rfl
  have hid : (reqAt x.bound x.slot 0).id = x.comm.base.fifoHead :=
    (hgroup.send 0 _ (hentry 0 hpos)).2.1
  refine ⟨⟨hpos, hle, hmatched, ?_, ?_, ?_, ?_, ?_⟩, hid, ?_⟩
  · intro r hr
    exact (hgroup.send r _ (hentry r hr)).1
  · intro r hr
    rw [reqAt_bound, (hgroup.send r _ (hentry r hr)).2.2]
    exact hgroup.elems r _ (hentry r hr)
  · rw [hid]
    rfl
  · rw [hid]
    exact x.id_lt
  · intro hres
    exact hgroup.unsent hres 0 _ (hentry 0 hpos)
  · intro r hr
    exact (hgroup.send r _ (hentry r hr)).2.2

theorem bound_striped : Striped x.sh x.bound.base := { x.striped with }

/-- A send that waits for others of its group has joined it. -/
theorem waiting_group (h : x.out.posts = []) : GroupOpen x.out.comm x.sizes := by
  rcases x.ends with ⟨-, hcomm⟩ | ⟨comm', hsend, -⟩
  · rw [hcomm]
    exact x.bound_group
  · obtain ⟨hposts, -⟩ := multiSend_posts x.bound_striped x.active (x.bound_posts hsend).1 hsend
    have hlen := congrArg List.length hposts
    rw [h, callPosts_length, qpsOf_length] at hlen
    exact absurd hlen (Nat.ne_of_lt (reqQps_pos x.sh x.bound.base))

/-! ## What is moved and what is reported -/

/-- Entry `r` moves its bytes, the sender reports them, and a single receive too. -/
structure Moves (r : Nat) : Prop where
  sent : sentBytes x.out.posts r = x.sizes r
  sender : ∀ later, StillSends x.out.comm later (x.request r) →
    (sendRequestComplete x.env later (x.request r)).2 = [(x.sizes r : Int)]
  receiver : x.nreqs = 1 → ∀ renv rcomm rcomm' i arrivals,
    Receiving x.slot i 1 rcomm 0 (fun _ => 0) →
    rcomm.base.recvMatchingScheme = x.comm.base.recvMatchingScheme →
    List.Forall₂ (Brings x.bound x.slot x.comm.base.recvMatchingScheme) x.out.posts arrivals →
    GroupRun renv x.slot i 1 rcomm arrivals [] rcomm' →
    (recvRequestComplete rcomm' i).2 = [(x.sizes r : Int)]

/-- The bytes that the shares of entry `r` leave room for. -/
def room (r : Nat) : Nat :=
  sendRoom x.bound x.slot (qpsOf x.sh x.bound.base x.comm.base.fifoHead) r

/-- Entry `r` fits in an `int` and in its shares. A single receive that adds up
bytes also needs them to come with the immediate value. -/
def Fits (r : Nat) : Prop :=
  x.sizes r < 2 ^ 31 ∧ x.sizes r ≤ x.room r ∧
    (x.nreqs = 1 → x.comm.base.recvMatchingScheme = BY_INDEX ∨ x.sizes r = 0 ∨
      hasExtraWr x.env x.comm 1 (x.sizes r) = false)

end AcceptedSend

theorem fits_of_i32 {n : Nat} (h : i32 n = n) : n < 2 ^ 31 := by
  unfold i32 at h
  rw [Int.bmod_def] at h
  split at h <;> omega

/-- A comm with a receive of one buffer that is open in `slot`. -/
def openRecv (slot : Nat) (scheme : Int) : NcclIbRecvComm :=
  { freshRecv Shape.one false with
    base := { freshBase Shape.one false with
      recvMatchingScheme := scheme
      reqs := fun _ => { blankRequest with
        type := NCCL_NET_IB_REQ_RECV
        nreqs := 1
        recv := { cmplsRecords := slot, aggSize := 0 } } }
    recvReqs := fun _ => some 0 }

theorem receiving_openRecv (slot : Nat) (scheme : Int) :
    Receiving slot 0 1 (openRecv slot scheme) 0 (fun _ => 0) :=
  ⟨rfl, rfl, rfl, rfl, rfl, fun _ _ => rfl⟩

section
variable {x : AcceptedSend} {r : Nat}

theorem slot_lt (x : AcceptedSend) : x.slot < NET_IB_MAX_REQUESTS := Nat.mod_lt _ (by decide)

/-- What a posted group sends for entry `r`. -/
theorem sentBytes_bound {comm' : NcclIbSendComm}
    (h : ncclIbMultiSend x.env x.bound x.slot = .ok (comm', x.out.posts)) (hr : r < x.nreqs) :
    sentBytes x.out.posts r = min (u32 (i32 (x.sizes r))) (x.room r) := by
  obtain ⟨hg, hid, hsize⟩ := x.bound_posts h
  rw [(multiSend_posts x.bound_striped x.active hg h).1, sentBytes_callPosts x.env _
    (show r < (x.bound.ctsFifo x.slot 0).nreqs from hr), hsize r hr, hid]
  rfl

/-- What the sender reports for entry `r`. -/
theorem sender_bound {comm' later : NcclIbSendComm}
    (h : ncclIbMultiSend x.env x.bound x.slot = .ok (comm', x.out.posts))
    (hcomm : x.out.comm = sentComm comm') (hr : r < x.nreqs)
    (hlater : StillSends x.out.comm later (x.request r)) :
    (sendRequestComplete x.env later (x.request r)).2 = [i32 (x.sizes r)] := by
  obtain ⟨hg, -, hsize⟩ := x.bound_posts h
  have htype : (x.bound.base.reqs (x.request r)).type = NCCL_NET_IB_REQ_SEND := hg.type r hr
  have hkeep := (multiSend_posts x.bound_striped x.active hg h).2 (x.request r)
  have hlater' : StillSends comm' later (x.request r) := by
    rw [hcomm] at hlater
    exact hlater
  rw [sendReport x.env htype (hkeep.trans hlater')]
  exact congrArg (fun size => [size]) (hsize r hr)

/-- When a single receive reports the bytes of the send, once they fit. -/
theorem receiver_bound {comm' : NcclIbSendComm}
    (h : ncclIbMultiSend x.env x.bound x.slot = .ok (comm', x.out.posts)) (hone : x.nreqs = 1)
    (hlt : x.sizes 0 < 2 ^ 31) (hroom : x.sizes 0 ≤ x.room 0) {renv : NetEnv}
    {rcomm rcomm' : NcclIbRecvComm} {i : Nat} {arrivals : List Arrival}
    (hopen : Receiving x.slot i 1 rcomm 0 (fun _ => 0))
    (hscheme : rcomm.base.recvMatchingScheme = x.comm.base.recvMatchingScheme)
    (harr : List.Forall₂ (Brings x.bound x.slot x.comm.base.recvMatchingScheme) x.out.posts arrivals)
    (run : GroupRun renv x.slot i 1 rcomm arrivals [] rcomm') :
    (recvRequestComplete rcomm' i).2 = [(x.sizes 0 : Int)] ↔
      x.comm.base.recvMatchingScheme = BY_INDEX ∨ x.sizes 0 = 0 ∨
        hasExtraWr x.env x.comm 1 (x.sizes 0) = false := by
  obtain ⟨hg, hid, hsize⟩ := x.bound_posts h
  have hsize0 : (reqAt x.bound x.slot 0).send.size = x.sizes 0 :=
    (hsize 0 (by omega)).trans (i32_natCast hlt)
  have hreport := single_reports x.bound_striped x.active hg hone (by rw [hsize0]; omega)
    (by rw [hsize0]; omega) h hopen hscheme harr run
  rw [hsize0] at hreport
  rw [hreport]
  unfold BytesComplete
  simp only
  rw [hsize0, hid, Int.toNat_natCast]
  constructor
  · rintro (hindex | hzero | ⟨hextra, -⟩)
    · exact .inl hindex
    · exact .inr (.inl (by omega))
    · exact .inr (.inr hextra)
  · rintro (hindex | hzero | hextra)
    · exact .inl hindex
    · exact .inr (.inl (by omega))
    · exact .inr (.inr ⟨hextra, hroom⟩)

/-- A single receive can get what the group sends. -/
theorem exists_receiver {comm' : NcclIbSendComm}
    (h : ncclIbMultiSend x.env x.bound x.slot = .ok (comm', x.out.posts)) :
    ∃ arrivals rcomm',
      List.Forall₂ (Brings x.bound x.slot x.comm.base.recvMatchingScheme) x.out.posts arrivals ∧
      GroupRun x.env x.slot 0 1 (openRecv x.slot x.comm.base.recvMatchingScheme) arrivals []
        rcomm' := by
  obtain ⟨hg, -⟩ := x.bound_posts h
  rw [(multiSend_posts x.bound_striped x.active hg h).1]
  have hbrings := brings_arrivalOf x.env x.bound (slot_lt x) x.comm.base.recvMatchingScheme
    (qpsOf x.sh x.bound.base (reqAt x.bound x.slot 0).id)
  obtain ⟨rcomm', hrun⟩ := exists_groupRun x.env (slot_lt x) _ _ _ _
    (receiving_openRecv x.slot x.comm.base.recvMatchingScheme) rfl
    (fun y hy => (brings_ofGroup hg rfl hbrings y hy).1)
  exact ⟨_, rcomm', hbrings, hrun⟩

end

/-! ## The law -/

/-- An accepted send joins its group. When the group is posted, each of its sends
moves its bytes and is reported with them exactly when it fits. -/
theorem a_send_moves_its_size_iff_it_fits (x : AcceptedSend) :
    (x.out.posts = [] → GroupOpen x.out.comm x.sizes) ∧
      (x.out.posts ≠ [] → ∀ r < x.nreqs, x.Moves r ↔ x.Fits r) := by
  refine ⟨x.waiting_group, ?_⟩
  intro hposts r hr
  rcases x.ends with ⟨hempty, -⟩ | ⟨comm', hsend, hcomm⟩
  · exact absurd hempty hposts
  have hsent := sentBytes_bound hsend hr
  constructor
  · intro hmoves
    have hreport := hmoves.sender x.out.comm ⟨rfl, rfl⟩
    rw [sender_bound hsend hcomm hr ⟨rfl, rfl⟩, List.singleton_inj] at hreport
    have hlt := fits_of_i32 hreport
    have hroom : x.sizes r ≤ x.room r := by
      have := hmoves.sent
      omega
    refine ⟨hlt, hroom, fun hone => ?_⟩
    obtain rfl : r = 0 := by omega
    obtain ⟨arrivals, rcomm', harr, hrun⟩ := exists_receiver hsend
    have hopen := receiving_openRecv x.slot x.comm.base.recvMatchingScheme
    exact (receiver_bound hsend hone hlt hroom hopen rfl harr hrun).mp
      (hmoves.receiver hone _ _ _ _ _ hopen rfl harr hrun)
  · rintro ⟨hlt, hroom, hreceiver⟩
    refine ⟨?_, ?_, ?_⟩
    · rw [hsent, i32_natCast hlt, u32_of_nonneg (by omega) (by omega), Int.toNat_natCast,
        min_eq_left hroom]
    · intro later hlater
      rw [sender_bound hsend hcomm hr hlater, i32_natCast hlt]
    · intro hone renv rcomm rcomm' i arrivals hopen hscheme harr hrun
      obtain rfl : r = 0 := by omega
      exact (receiver_bound hsend hone hlt hroom hopen hscheme harr hrun).mpr (hreceiver hone)

/-- When every device has a weight from 1 to 199 and the weights make at least
100, the shares always leave room. -/
theorem room_of_weights {x : AcceptedSend} {r : Nat} (hposts : x.out.posts ≠ [])
    (hw : ∀ d < x.sh.ndevs, 1 ≤ (reqAt x.bound x.slot 0).send.weights d)
    (hw' : ∀ d < x.sh.ndevs, (reqAt x.bound x.slot 0).send.weights d ≤ 199)
    (hsum : 100 ≤ ((List.range x.sh.ndevs).map (reqAt x.bound x.slot 0).send.weights).sum)
    (hfits : ∀ r < x.nreqs, x.sizes r < 2 ^ 31) (hr : r < x.nreqs) : x.sizes r ≤ x.room r := by
  rcases x.ends with ⟨hempty, -⟩ | ⟨comm', hsend, -⟩
  · exact absurd hempty hposts
  obtain ⟨hg, hid, hsize⟩ := x.bound_posts hsend
  have hsize' : ∀ r < x.nreqs, (reqAt x.bound x.slot r).send.size = x.sizes r := fun r hr =>
    (hsize r hr).trans (i32_natCast (hfits r hr))
  have hready : ReadyGroup x.bound x.slot :=
    { hg with
      size_nonneg := fun r hr => by
        rw [hsize' r hr]
        omega
      size_lt := fun r hr => by
        have := hfits r hr
        rw [hsize' r hr]
        omega }
  have hroom := sendRoom_ge x.env x.bound_striped hready hw hw' hsum
    (show r < (x.bound.ctsFifo x.slot 0).nreqs from hr)
  rw [hsize' r hr, hid, Int.toNat_natCast] at hroom
  exact hroom

/-- A send on one device and one QP that finds its receive, both of any size. -/
def plainSend (size posted : Nat) : AcceptedSend :=
  { env := plainEnv
    sh := Shape.one
    comm := { freshSend Shape.one with
      ctsFifo := fun _ _ =>
        { addr := 0x2000, size := posted, rkeys := fun _ => 7, nreqs := 1, tag := 0, idx := 1 } }
    striped := { striped_freshBase Shape.one true with }
    active := fun _ _ => rfl
    id_lt := show 0 < 2 ^ 56 by decide
    m := fun _ => 0
    group := groupOpen_empty (fun _ => rfl) _
    a := { data := 0x1000, size, tag := 0, lkeys := fun _ => 7 }
    i := 0
    accepted := rfl }

/-- The send with tag 1 of a group of two, on two devices with two QPs each. -/
def firstOfTwo : AcceptedSend :=
  { env := plainEnv
    sh := Shape.twoTwo
    comm := { freshSend Shape.twoTwo with
      ctsFifo := fun _ r =>
        { addr := 0x2000, size := if r = 1 then 6000 else 2 ^ 20, rkeys := fun _ => 7, nreqs := 2
          tag := r, idx := 1 } }
    striped := { striped_freshBase Shape.twoTwo true with }
    active := fun _ _ => rfl
    id_lt := show 0 < 2 ^ 56 by decide
    m := fun _ => 0
    group := groupOpen_empty (fun _ => rfl) _
    a := { data := 0x9000, size := 7003, tag := 1, lkeys := fun _ => 7 }
    i := 0
    accepted := rfl }

/-- The other one, which posts the group. -/
def secondOfTwo : AcceptedSend :=
  { env := plainEnv
    sh := Shape.twoTwo
    comm := firstOfTwo.out.comm
    striped := ⟨rfl, rfl, rfl, fun _ _ => rfl, fun _ _ => rfl⟩
    active := fun _ _ => rfl
    id_lt := show 0 < 2 ^ 56 by decide
    m := firstOfTwo.sizes
    group := firstOfTwo.waiting_group rfl
    a := { data := 0x1000, size := 5001, tag := 0, lkeys := fun _ => 7 }
    i := 1
    accepted := rfl }

/-- Both sends of the group move what fits: 5001 bytes, and 6000 of 7003. -/
theorem two_sends_move_their_sizes :
    GroupOpen firstOfTwo.out.comm firstOfTwo.sizes ∧ secondOfTwo.sizes 0 = 5001 ∧
      secondOfTwo.sizes 1 = 6000 ∧ secondOfTwo.Moves 0 ∧ secondOfTwo.Moves 1 := by
  have hposts : secondOfTwo.out.posts ≠ [] := by
    have hlen : secondOfTwo.out.posts.length = 2 := rfl
    intro hnil
    rw [hnil] at hlen
    cases hlen
  have hsmall : secondOfTwo.sizes 0 = 5001 := rfl
  have hcut : secondOfTwo.sizes 1 = 6000 := rfl
  have hroom : secondOfTwo.room 0 = 5120 ∧ secondOfTwo.room 1 = 6144 := by decide +kernel
  have htwo : secondOfTwo.nreqs ≠ 1 := by decide
  have hmoves := (a_send_moves_its_size_iff_it_fits secondOfTwo).2 hposts
  exact ⟨(a_send_moves_its_size_iff_it_fits firstOfTwo).1 rfl, hsmall, hcut,
    (hmoves 0 (by decide)).mpr ⟨by omega, by omega, fun hone => absurd hone htwo⟩,
    (hmoves 1 (by decide)).mpr ⟨by omega, by omega, fun hone => absurd hone htwo⟩⟩

/-- A send of `2 ^ 31` bytes is under the limit, and the sender reports `-2 ^ 31`. -/
theorem a_send_of_two_gigabytes_is_misreported :
    ¬ ∀ x : AcceptedSend, x.a.size ≤ NCCL_MAX_NET_SIZE_BYTES → x.out.posts ≠ [] →
      ∀ r < x.nreqs, x.Moves r := by
  intro h
  have hposts : (plainSend (2 ^ 31) (2 ^ 40)).out.posts ≠ [] := by
    have hlen : (plainSend (2 ^ 31) (2 ^ 40)).out.posts.length = 1 := rfl
    intro hnil
    rw [hnil] at hlen
    cases hlen
  have hmoves := h (plainSend (2 ^ 31) (2 ^ 40)) (show 2 ^ 31 ≤ NCCL_MAX_NET_SIZE_BYTES by decide)
    hposts 0 (show 0 < 1 by decide)
  have hfits := (a_send_moves_its_size_iff_it_fits _).2 hposts 0 (show 0 < 1 by decide)
  have hsize : (plainSend (2 ^ 31) (2 ^ 40)).sizes 0 = 2 ^ 31 := rfl
  have hlt := (hfits.mp hmoves).1
  rw [hsize] at hlt
  exact absurd hlt (by decide)

end net_ib.p2p
