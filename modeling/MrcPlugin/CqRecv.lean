-- The completion queues of a receive comm (p2p.cc, connect.cc). They hold the data
-- of the receives in use, at most one CTS message for each device, and one speed
-- update.
import MrcPlugin.CqRoom
import MrcPlugin.RecvQps
import MrcPlugin.RecvQueue
import Mathlib.Data.Finset.Card

namespace net_ib.p2p

open queues counts runs

/-! ## The posts of a step -/

/-- The completions that a step of a receive comm makes: one for each signaled
work request that it posts. -/
def RecvState.newCqes (s : RecvState) : RecvAct → List Cqe
  | .irecv env bufs => (ncclIbIrecv env s.comm bufs).posts.flatMap
      (postCqes s.comm.base (.cts s.comm.base.fifoHead))
  | .iflush bufs => (ncclIbIflush s.comm bufs).posts.flatMap
      (postCqes s.comm.base (.flush s.flushes))
  | .test env n =>
    match s.call with
    | none => []
    | some call => (ncclIbTest env s.comm s.cq call n).posts.flatMap (postCqes s.comm.base .speed)
  | _ => []

/-- The completion that a step processes. -/
def RecvState.handles (s : RecvState) : RecvAct → List Cqe
  | .test _ _ =>
    match s.call with
    | none => []
    | some call => handled call.pc
  | _ => []

/-- The work requests of the comm that are signaled, and the receives that are
consumed, until they are processed. -/
def RecvState.queued (s : RecvState) : List Cqe := s.sq ++ s.cq ++ inHand s.call

section
variable {s t : RecvState} {p : Cqe → Bool}

theorem queued_afterCall {cause posted : Cause} {id : Option Nat} {out : RecvOut}
    (h : s.afterCall cause posted id out = some t) :
    t.queued.countP p ≤ s.queued.countP p +
      (out.posts.flatMap (postCqes s.comm.base posted)).countP p := by
  have hcount : ({ s with
      sq := s.sq ++ out.posts.flatMap (postCqes s.comm.base posted) } : RecvState).queued.countP p ≤
      s.queued.countP p + (out.posts.flatMap (postCqes s.comm.base posted)).countP p := by
    simp only [RecvState.queued, List.countP_append]
    omega
  unfold RecvState.afterCall at h
  simp only at h
  split at h
  · rw [← Option.some.inj h]
    exact hcount
  · cases h
  · rw [← Option.some.inj h]
    exact hcount
  · rw [← Option.some.inj h]
    exact hcount

theorem queued_afterTest {call : TestCall} {env : NetEnv} {n : Nat} (hcall : s.call = some call)
    (h : s.afterTest call (ncclIbTest env s.comm s.cq call n) = some t) :
    t.queued.countP p + (handled call.pc).countP p ≤ s.queued.countP p +
      ((ncclIbTest env s.comm s.cq call n).posts.flatMap (postCqes s.comm.base .speed)).countP p := by
  obtain ⟨-, hsq, -⟩ := afterTest_fields h
  have hpending := afterTest_pending hcall (ncclIbTest_conserves env s.comm s.cq call n) h
  have hcount := hpending.countP_eq p
  simp only [RecvState.queued, hsq, List.countP_append] at hcount ⊢
  omega

/-- A step only makes the completions of its posts, and takes away what it processes. -/
theorem queued_next {act : RecvAct} (hdata : ∀ c ∈ s.data, ∃ id, c.cause = .data id)
    (hp : ∀ c id, c.cause = .data id → p c = false) (hnext : s.next act = some t) :
    t.queued.countP p + (s.handles act).countP p ≤ s.queued.countP p + (s.newCqes act).countP p := by
  cases act with
  | irecv env bufs =>
    simp only [RecvState.next] at hnext
    split at hnext
    · cases hnext
    · exact queued_afterCall hnext
  | iflush bufs =>
    simp only [RecvState.next] at hnext
    split at hnext
    · cases hnext
    split at hnext
    · cases hnext
    · rename_i u hcall
      have hcount := queued_afterCall (p := p) hcall
      rw [← Option.some.inj hnext]
      exact hcount
  | testBegin r =>
    simp only [RecvState.next] at hnext
    split at hnext
    · rename_i hlive
      rw [← Option.some.inj hnext]
      simp [RecvState.queued, RecvState.handles, RecvState.newCqes, hlive.1, inHand]
    · cases hnext
  | test env n =>
    simp only [RecvState.next] at hnext
    split at hnext
    · cases hnext
    · rename_i call hcall
      have hcount := queued_afterTest (p := p) hcall hnext
      simpa only [RecvState.handles, RecvState.newCqes, hcall] using hcount
  | complete q flush =>
    simp only [RecvState.next] at hnext
    split at hnext
    · cases hnext
    rename_i c sq hpop
    rw [← Option.some.inj hnext]
    have hperm := (popFirst_perm hpop).countP_eq p
    simp only [RecvState.queued, RecvState.handles, RecvState.newCqes, List.countP_append,
      List.countP_cons, List.countP_nil] at hperm ⊢
    omega
  | deliver q =>
    simp only [RecvState.next] at hnext
    split at hnext
    · rename_i c data e rq hdata' hrq
      rw [← Option.some.inj hnext]
      obtain ⟨id, hcause⟩ := hdata c ((popFirst_perm hdata').mem_iff.mpr (List.mem_cons_self ..))
      have hno : p { c with wc := { c.wc with wr_id := e.wr_id } } = false := hp _ id hcause
      simp [RecvState.queued, RecvState.handles, RecvState.newCqes, hno]
    · cases hnext
  | record slot sizes =>
    rw [← Option.some.inj hnext]
    exact Nat.le_refl _

/-- A completion that is there after a step, and is none of data, was there before
or is made by the step. -/
theorem queued_new {act : RecvAct} (hdata : ∀ c ∈ s.data, ∃ id, c.cause = .data id)
    (hnext : s.next act = some t) {c : Cqe} (hc : c ∈ t.queued) (hcause : ∀ id, c.cause ≠ .data id) :
    c ∈ s.queued ∨ c ∈ s.newCqes act := by
  have hcount := queued_next (p := fun x => decide (x = c)) hdata
    (fun x id hx => decide_eq_false (fun he => hcause id (he ▸ hx))) hnext
  have hpos : 0 < t.queued.countP (fun x => decide (x = c)) :=
    List.countP_pos_iff.mpr ⟨c, hc, decide_eq_true rfl⟩
  by_contra hno
  obtain ⟨hold, hnew⟩ := not_or.mp hno
  have hzero : ∀ l : List Cqe, c ∉ l → l.countP (fun x => decide (x = c)) = 0 := by
    intro l hl
    apply List.countP_eq_zero.mpr
    intro x hx he
    exact hl (of_decide_eq_true he ▸ hx)
  rw [hzero _ hold, hzero _ hnew] at hcount
  omega

end

/-! ## What each step makes -/

section
variable {sh : Shape} {b0 : NcclIbNetCommBase} {pre : Bool} {s t : RecvState}

theorem postCqes_cause {base : NcclIbNetCommBase} {cause : Cause} {posts : List RecvPost} {c : Cqe}
    (hc : c ∈ posts.flatMap (postCqes base cause)) : c.cause = cause := by
  obtain ⟨p, _, hcp⟩ := List.mem_flatMap.mp hc
  cases p with
  | send p =>
    obtain ⟨wr, _, rfl⟩ := List.mem_map.mp hcp
    rfl
  | recv q wr => cases hcp
  | flush d wr => rw [List.mem_singleton.mp hcp]

/-- Posts with no read of a flush have the completions of their writes. -/
theorem postCqes_writes {base : NcclIbNetCommBase} {cause : Cause} {posts : List RecvPost}
    (hno : ∀ d wr, .flush d wr ∉ posts) : posts.flatMap (postCqes base cause) =
      (writesOf posts).flatMap (fun p => postCqes base cause (.send p)) := by
  induction posts with
  | nil => rfl
  | cons p posts ih =>
    have hrest := ih (fun d wr hmem => hno d wr (List.mem_cons_of_mem _ hmem))
    cases p with
    | send p =>
      have hwrites : writesOf (.send p :: posts) = p :: writesOf posts := rfl
      rw [hwrites, List.flatMap_cons, List.flatMap_cons, hrest]
    | recv q wr_id =>
      have hwrites : writesOf (.recv q wr_id :: posts) = writesOf posts := rfl
      rw [hwrites, List.flatMap_cons, ← hrest]
      rfl
    | flush d wr => exact absurd (List.mem_cons_self ..) (hno d wr)

theorem irecv_noFlush (hb : PlainBase sh s.comm.base) (env : NetEnv) (bufs : List RecvBuffer) :
    ∀ d wr, .flush d wr ∉ (ncclIbIrecv env s.comm bufs).posts := by
  intro d wr hmem
  rcases irecv_cases hb (SameBase.refl _) env bufs with ⟨-, hposts, -⟩ | ⟨i, -, -, q, wr, hposts, -⟩
  · rw [hposts] at hmem
    cases hmem
  · rw [hposts] at hmem
    split at hmem <;> simp at hmem

/-- A call of `ncclIbIrecv` makes one completion at most, for a CTS message that
goes out on the device with the number of its slot. -/
theorem irecv_newCqes (hb : PlainBase sh s.comm.base) (env : NetEnv) (bufs : List RecvBuffer) :
    (s.newCqes (.irecv env bufs)).length ≤ 1 ∧ ∀ c ∈ s.newCqes (.irecv env bufs),
      c.cause = .cts s.comm.base.fifoHead ∧ slotOf s.comm.base.fifoHead = c.dev := by
  have hnew : s.newCqes (.irecv env bufs) = (writesOf (ncclIbIrecv env s.comm bufs).posts).flatMap
      (fun p => postCqes s.comm.base (.cts s.comm.base.fifoHead) (.send p)) :=
    postCqes_writes (irecv_noFlush hb env bufs)
  rw [hnew]
  rcases irecv_cts hb env bufs with ⟨-, hnone⟩ | ⟨-, -, cts, hone, hqp, wr, hwr, hsig⟩
  · rw [hnone]
    exact ⟨Nat.zero_le _, fun c hc => by cases hc⟩
  rw [hone, List.flatMap_singleton]
  simp only [postCqes]
  rw [hwr, hqp, List.length_map]
  refine ⟨List.length_filter_le _ _, fun c hc => ?_⟩
  obtain ⟨wr', hmem, rfl⟩ := List.mem_map.mp hc
  obtain ⟨hmem, hsignaled⟩ := List.mem_filter.mp hmem
  rw [List.mem_singleton.mp hmem] at hsignaled
  have hdev : ctsIndex sh s.comm.base.fifoHead < sh.ndevs := Nat.mod_lt _ sh.ndevs_pos
  have hlt : ctsIndex sh s.comm.base.fifoHead < sh.nqps :=
    Nat.lt_of_lt_of_le hdev (Nat.le_trans sh.ndevs_le_nDataQps sh.nDataQps_le_nqps)
  refine ⟨rfl, (hsig.mp hsignaled).trans ?_⟩
  simp only
  rw [hb.striped.devIndex _ hlt, Nat.mod_eq_of_lt hdev]

/-- The completions of a flush go to the queue of the flush QPs. -/
theorem iflush_newCqes {bufs : List FlushBuffer} {c : Cqe} (hc : c ∈ s.newCqes (.iflush bufs)) :
    c.cause = .flush s.flushes ∧ c.flush = true := by
  refine ⟨postCqes_cause hc, ?_⟩
  have hc : c ∈ (ncclIbIflush s.comm bufs).posts.flatMap
      (postCqes s.comm.base (.flush s.flushes)) := hc
  rcases iflush_cases (Eq.refl (ncclIbIflush s.comm bufs)) with ⟨hposts, -⟩ |
    ⟨i, req, wrs, -, -, -, -, -, hout⟩
  · rw [hposts] at hc
    cases hc
  · rw [hout] at hc
    obtain ⟨p, hp, hcp⟩ := List.mem_flatMap.mp hc
    obtain ⟨d, -, rfl⟩ := List.mem_map.mp hp
    rw [List.mem_singleton.mp hcp]

/-! ## The speed update -/

def isSpeed (c : Cqe) : Bool := c.cause = .speed

theorem recordSize_flag (comm : NcclIbRecvComm) (i : Nat) (wc : IbvWc) :
    (recordSize comm i wc).postedSpeedUpdate = comm.postedSpeedUpdate := by
  unfold recordSize
  simp only
  split
  · rfl
  split
  · rfl
  split <;> rfl

/-- Data leaves the flag, and its posts are receives. -/
theorem recvData_flag (comm : NcclIbRecvComm) (base : NcclIbNetCommBase) (i : Nat) (wc : IbvWc)
    (dev : Nat) : (recvData comm i wc dev).comm.postedSpeedUpdate = comm.postedSpeedUpdate ∧
      (recvData comm i wc dev).posts.flatMap (postCqes base .speed) = [] := by
  have hrepost : (repost (recordSize comm i wc) i wc dev).comm.postedSpeedUpdate =
        comm.postedSpeedUpdate ∧
      (repost (recordSize comm i wc) i wc dev).posts.flatMap (postCqes base .speed) = [] := by
    unfold repost
    split
    · exact ⟨recordSize_flag comm i wc, rfl⟩
    split <;> exact ⟨recordSize_flag comm i wc, rfl⟩
  unfold recvData
  simp only
  split
  · exact ⟨rfl, rfl⟩
  split
  · exact ⟨rfl, rfl⟩
  split
  · exact hrepost
  · exact hrepost

theorem speedUpdate_flag (env : NetEnv) (comm : NcclIbRecvComm) (base : NcclIbNetCommBase) :
    let out := ncclIbPostSpeedUpdateToRemote env comm
    (out.1.postedSpeedUpdate = comm.postedSpeedUpdate ∧
      out.2.flatMap (postCqes base .speed) = []) ∨
    (comm.postedSpeedUpdate = false ∧ out.1.postedSpeedUpdate = true ∧
      (out.2.flatMap (postCqes base .speed)).length ≤ 1) := by
  simp only
  unfold ncclIbPostSpeedUpdateToRemote
  split
  · exact .inl ⟨rfl, rfl⟩
  rename_i hclear
  simp only
  split
  · exact .inl ⟨rfl, rfl⟩
  · refine .inr ⟨?_, rfl, Nat.le_refl _⟩
    by_contra hset
    exact hclear (.inr (.inr (Bool.eq_true_of_not_eq_false hset)))

/-- The completion of a speed update clears the flag. No other completion does, and
a speed update is only posted while the flag is clear. -/
theorem recvEvent_flag (env : NetEnv) (comm : NcclIbRecvComm) (base : NcclIbNetCommBase)
    (wc : IbvWc) (dev : Nat) :
    let out := recvEventProcess env comm wc dev
    let new := out.posts.flatMap (postCqes base .speed)
    (wc.wr_id = NCCL_IB_SPEED_UPDATE_WR_ID ∧ out.comm.postedSpeedUpdate = false ∧ new = []) ∨
    (wc.wr_id ≠ NCCL_IB_SPEED_UPDATE_WR_ID ∧
      out.comm.postedSpeedUpdate = comm.postedSpeedUpdate ∧ new = []) ∨
    (wc.wr_id ≠ NCCL_IB_SPEED_UPDATE_WR_ID ∧ comm.postedSpeedUpdate = false ∧
      out.comm.postedSpeedUpdate = true ∧ (env.eventBasedLb = true ∧ env.eventBasedLbRemote = true) ∧
        new.length ≤ 1) := by
  simp only
  unfold recvEventProcess
  split
  · rename_i hwr
    exact .inl ⟨hwr, rfl, rfl⟩
  rename_i hwr
  refine .inr ?_
  split
  · exact .inl ⟨hwr, rfl, rfl⟩
  · exact .inl ⟨hwr, rfl, rfl⟩
  rename_i i hret
  split
  · exact .inl ⟨hwr, recvData_flag comm base i wc dev⟩
  · exact .inl ⟨hwr, rfl, rfl⟩
  · split
    · rename_i hon
      rcases speedUpdate_flag env comm base with ⟨hflag, hnone⟩ | ⟨hclear, hset, hone⟩
      · exact .inl ⟨hwr, hflag, hnone⟩
      · exact .inr ⟨hwr, hclear, hset, hon.2, hone⟩
    · exact .inl ⟨hwr, rfl, rfl⟩
  · exact .inl ⟨hwr, rfl, rfl⟩

/-- Only a speed update has the number of one. -/
theorem CqeOk.speed_of {c : Cqe} (h : CqeOk sh b0 pre s c)
    (hwr : c.wc.wr_id = NCCL_IB_SPEED_UPDATE_WR_ID) : c.cause = .speed := by
  unfold CqeOk at h
  unfold NCCL_IB_SPEED_UPDATE_WR_ID at hwr
  cases hc : c.cause with
  | data id =>
    rw [hc] at h
    have hlt := slotOf_lt id
    rcases h.2 with hslot | ⟨-, hdummy⟩
    · omega
    · unfold NCCL_IB_RECV_WR_ID_DUMMY at hdummy
      omega
  | cts id =>
    rw [hc] at h
    have hlt := slotOf_lt id
    obtain ⟨-, -, hslot, -⟩ := h
    omega
  | flush n =>
    rw [hc] at h
    obtain ⟨-, -, i, hi, hoff, -⟩ := h
    unfold NET_IB_MAX_REQUESTS at hi
    unfold NCCL_IB_FLUSH_REQ_WR_ID_OFFSET at hoff
    omega
  | speed => rfl

/-- A piece of `ncclIbTest` and the flag. -/
theorem test_flag (h : RecvGood sh b0 pre s) {call : TestCall} (hcall : s.call = some call)
    (env : NetEnv) (n : Nat) :
    let out := ncclIbTest env s.comm s.cq call n
    let new := out.posts.flatMap (postCqes s.comm.base .speed)
    (0 < (handled call.pc).countP isSpeed ∧ out.comm.postedSpeedUpdate = false ∧ new = []) ∨
    (out.comm.postedSpeedUpdate = s.comm.postedSpeedUpdate ∧ new = []) ∨
    (s.comm.postedSpeedUpdate = false ∧ out.comm.postedSpeedUpdate = true ∧
      (env.eventBasedLb = true ∧ env.eventBasedLbRemote = true) ∧ new.length ≤ 1) := by
  simp only
  obtain ⟨r, pc⟩ := call
  unfold ncclIbTest
  cases pc with
  | top =>
    refine .inr (.inl ?_)
    unfold testTop
    simp only
    split
    · exact ⟨rfl, rfl⟩
    split <;> exact ⟨rfl, rfl⟩
  | device i k =>
    refine .inr (.inl ?_)
    unfold testDevice
    simp only
    split
    · exact ⟨rfl, rfl⟩
    split <;> exact ⟨rfl, rfl⟩
  | completions i k w wcs =>
    cases wcs with
    | nil =>
      refine .inr (.inl ?_)
      simp only
      split
      · exact ⟨rfl, rfl⟩
      split <;> exact ⟨rfl, rfl⟩
    | cons c wcs =>
      have hmem : c ∈ s.sq ++ s.cq ++ inHand s.call := by
        rw [hcall]
        exact List.mem_append_right _ (List.mem_cons_self ..)
      have hok := h.cqes c hmem
      have hout : (testCompletion env s.comm s.cq i k w c wcs).comm =
            (recvEventProcess env s.comm c.wc i).comm ∧
          (testCompletion env s.comm s.cq i k w c wcs).posts =
            (recvEventProcess env s.comm c.wc i).posts := by
        unfold testCompletion
        simp only [hok.success, if_true]
        split <;> exact ⟨rfl, rfl⟩
      simp only
      rw [hout.1, hout.2]
      rcases recvEvent_flag env s.comm s.comm.base c.wc i with ⟨hwr, hflag, hnew⟩ |
        ⟨-, hflag, hnew⟩ | ⟨-, hflag⟩
      · have hspeed : isSpeed c = true := decide_eq_true (hok.speed_of hwr)
        exact .inl ⟨List.countP_pos_iff.mpr ⟨c, List.mem_singleton_self c, hspeed⟩, hflag, hnew⟩
      · exact .inr (.inl ⟨hflag, hnew⟩)
      · exact .inr (.inr hflag)

theorem irecv_flag (env : NetEnv) (comm : NcclIbRecvComm) (bufs : List RecvBuffer) :
    (ncclIbIrecv env comm bufs).comm.postedSpeedUpdate = comm.postedSpeedUpdate := by
  unfold ncclIbIrecv
  simp only
  split
  · rfl
  split
  · rfl
  split
  · rfl
  split
  · rfl
  split
  · rfl
  split <;> rfl

theorem iflush_flag (comm : NcclIbRecvComm) (bufs : List FlushBuffer) :
    (ncclIbIflush comm bufs).comm.postedSpeedUpdate = comm.postedSpeedUpdate := by
  unfold ncclIbIflush
  split
  · rfl
  · rfl
  simp only
  split <;> rfl

theorem afterCall_comm {cause posted : Cause} {id : Option Nat} {out : RecvOut}
    (h : s.afterCall cause posted id out = some t) : t.comm = out.comm := by
  unfold RecvState.afterCall at h
  simp only at h
  split at h
  · rw [← Option.some.inj h]
  · cases h
  · rw [← Option.some.inj h]
  · rw [← Option.some.inj h]

/-- The other steps leave the flag. -/
theorem next_flag {act : RecvAct} (hact : ∀ env n, act ≠ .test env n) (hnext : s.next act = some t) :
    t.comm.postedSpeedUpdate = s.comm.postedSpeedUpdate := by
  cases act with
  | irecv env bufs =>
    simp only [RecvState.next] at hnext
    split at hnext
    · cases hnext
    · rw [afterCall_comm hnext]
      exact irecv_flag env s.comm bufs
  | iflush bufs =>
    simp only [RecvState.next] at hnext
    split at hnext
    · cases hnext
    split at hnext
    · cases hnext
    · rename_i u hcall
      have hflag := iflush_flag s.comm bufs
      rw [← afterCall_comm hcall] at hflag
      rw [← Option.some.inj hnext]
      exact hflag
  | testBegin r =>
    simp only [RecvState.next] at hnext
    split at hnext
    · rw [← Option.some.inj hnext]
    · cases hnext
  | test env n => exact absurd rfl (hact env n)
  | complete q flush =>
    simp only [RecvState.next] at hnext
    split at hnext
    · cases hnext
    · rw [← Option.some.inj hnext]
  | deliver q =>
    simp only [RecvState.next] at hnext
    split at hnext
    · rw [← Option.some.inj hnext]
    · cases hnext
  | record slot sizes => rw [← Option.some.inj hnext]

end

/-! ## The invariant -/

/-- A CTS message on device `d`. -/
def isCtsOn (d : Nat) (c : Cqe) : Bool :=
  match c.cause with
  | .cts _ => c.dev = d
  | _ => false

/-- What the queues hold besides data. -/
structure CqGood (p : IbParams) (s : RecvState) : Prop where
  flush : ∀ c ∈ s.queued, ∀ n, c.cause = .flush n → c.flush = true
  slot : ∀ c ∈ s.queued, ∀ id, c.cause = .cts id → slotOf id = c.dev
  cts : ∀ d, s.queued.countP (isCtsOn d) ≤ 1
  speed : s.queued.countP isSpeed ≤ if s.comm.postedSpeedUpdate then 1 else 0
  room : s.comm.postedSpeedUpdate = true → speedUpdateRoom p = 1

/-- The parameters do not change while a comm is there. -/
def OfParams (p : IbParams) : RecvAct → Prop
  | .test env _ => env.eventBasedLb = decide (p.eventBasedLb ≠ 0) ∧
    env.eventBasedLbRemote = decide (p.eventBasedLbRemote ≠ 0)
  | _ => True

/-- A receive takes a slot whose earlier receive is reported, and whose earlier CTS
message is polled. -/
def SlotSettled : RecvAct → RecvState → Prop
  | .irecv _ _, s => ∀ id < s.comm.base.fifoHead, slotOf id = slotOf s.comm.base.fifoHead →
    .data id ∈ s.reported ∧ ∀ c ∈ s.queued, c.cause ≠ .cts id
  | _, _ => True

/-- The runs of a receive comm of shape `sh`: its own steps, and the next group of
the peer arrives. -/
def recvSystem (sh : Shape) (pre : Bool) (p : IbParams) (guard : RecvAct → RecvState → Prop) :
    System RecvState where
  init := fun s => RecvState.Init sh pre s ∧ s.comm.postedSpeedUpdate = false
  step := fun s t => (∃ act, OfParams p act ∧ guard act s ∧ s.next act = some t) ∨
    (s.peerHead < s.comm.base.fifoHead ∧
      ∃ msgs, PeerMsgs sh s.comm.base s.peerHead msgs ∧ t = s.arrives msgs)

section
variable {sh : Shape} {b0 : NcclIbNetCommBase} {pre : Bool} {p : IbParams} {s t : RecvState}

/-- Each call makes completions of its own kind. -/
theorem newCqes_act {act : RecvAct} {c : Cqe} (hc : c ∈ s.newCqes act) :
    match c.cause with
    | .data _ => False
    | .cts _ => ∃ env bufs, act = .irecv env bufs
    | .flush _ => ∃ bufs, act = .iflush bufs
    | .speed => ∃ env n, act = .test env n := by
  cases act with
  | irecv env bufs =>
    rw [postCqes_cause hc]
    exact ⟨env, bufs, rfl⟩
  | iflush bufs =>
    rw [postCqes_cause hc]
    exact ⟨bufs, rfl⟩
  | test env n =>
    unfold RecvState.newCqes at hc
    simp only at hc
    split at hc
    · cases hc
    · rw [postCqes_cause hc]
      exact ⟨env, n, rfl⟩
  | testBegin r => cases hc
  | complete q flush => cases hc
  | deliver q => cases hc
  | record slot sizes => cases hc

theorem isCtsOn_iff {d : Nat} {c : Cqe} :
    isCtsOn d c = true ↔ ∃ id, c.cause = .cts id ∧ c.dev = d := by
  unfold isCtsOn
  cases c.cause with
  | cts id => simp
  | data id => simp
  | flush n => simp
  | speed => simp

theorem cts_next (h : RecvGood sh b0 pre s) (hq : CqGood p s) {act : RecvAct}
    (hguard : SlotSettled act s) (hnext : s.next act = some t) (d : Nat) :
    t.queued.countP (isCtsOn d) ≤ 1 := by
  have hcount := queued_next (p := isCtsOn d) (fun c hc => (h.data c hc).imp fun _ hid => hid.1)
    (fun c id hc => by unfold isCtsOn; rw [hc]) hnext
  by_cases hnew : (s.newCqes act).countP (isCtsOn d) = 0
  · have := hq.cts d
    omega
  obtain ⟨c, hc, hcd⟩ := List.countP_pos_iff.mp (Nat.pos_of_ne_zero hnew)
  obtain ⟨id, hcause, hdev⟩ := isCtsOn_iff.mp hcd
  have hact := newCqes_act hc
  rw [hcause] at hact
  obtain ⟨env, bufs, rfl⟩ := hact
  obtain ⟨hone, hslot⟩ := irecv_newCqes (h.plain.same h.same) env bufs
  obtain ⟨-, hslot⟩ := hslot c hc
  -- The device has the number of the slot, and no message of the slot is left.
  have hnone : s.queued.countP (isCtsOn d) = 0 := by
    apply List.countP_eq_zero.mpr
    intro x hx hxd
    obtain ⟨id', hcause', hdev'⟩ := isCtsOn_iff.mp hxd
    have hok := h.cqes x hx
    unfold CqeOk at hok
    rw [hcause'] at hok
    have hsame : slotOf id' = slotOf s.comm.base.fifoHead := by
      rw [hq.slot x hx id' hcause', hdev', hslot, hdev]
    exact (hguard id' hok.2.2.2 hsame).2 x hx hcause'
  have hle := List.countP_le_length (p := isCtsOn d) (l := s.newCqes (.irecv env bufs))
  omega

theorem speed_next (h : RecvGood sh b0 pre s) (hq : CqGood p s) {act : RecvAct}
    (hp : OfParams p act) (hnext : s.next act = some t) :
    t.queued.countP isSpeed ≤ (if t.comm.postedSpeedUpdate then 1 else 0) ∧
      (t.comm.postedSpeedUpdate = true → speedUpdateRoom p = 1) := by
  have hcount := queued_next (p := isSpeed) (fun c hc => (h.data c hc).imp fun _ hid => hid.1)
    (fun c id hc => by unfold isSpeed; rw [hc]; rfl) hnext
  have hold := hq.speed
  by_cases hact : ∀ env n, act ≠ .test env n
  · have hnew : (s.newCqes act).countP isSpeed = 0 := by
      apply List.countP_eq_zero.mpr
      intro c hc hspeed
      have hfor := newCqes_act hc
      rw [show c.cause = .speed from of_decide_eq_true hspeed] at hfor
      obtain ⟨env, n, rfl⟩ := hfor
      exact hact env n rfl
    rw [next_flag hact hnext]
    exact ⟨by omega, hq.room⟩
  · simp only [not_forall, not_not] at hact
    obtain ⟨env, n, rfl⟩ := hact
    simp only [RecvState.next] at hnext
    split at hnext
    · cases hnext
    rename_i call hcall
    simp only [RecvState.handles, RecvState.newCqes, hcall] at hcount
    rw [afterTest_comm hnext]
    rcases test_flag h hcall env n with ⟨hpos, hflag, hnew⟩ | ⟨hflag, hnew⟩ |
      ⟨hclear, hset, hon, hone⟩
    · -- It was the only one.
      rw [hnew] at hcount
      rw [hflag]
      refine ⟨?_, fun hc => by cases hc⟩
      have hle : (if s.comm.postedSpeedUpdate = true then 1 else 0) ≤ 1 := by split <;> omega
      simp only [List.countP_nil] at hcount
      show t.queued.countP isSpeed ≤ 0
      omega
    · rw [hnew] at hcount
      rw [hflag]
      simp only [List.countP_nil] at hcount
      exact ⟨by omega, hq.room⟩
    · rw [hset]
      rw [hclear] at hold
      have hle := Nat.le_trans (List.countP_le_length (p := isSpeed)) hone
      refine ⟨?_, fun _ => ?_⟩
      · show t.queued.countP isSpeed ≤ 1
        simp only [Bool.false_eq_true, if_false] at hold
        omega
      · obtain ⟨hlb, hrem⟩ := hp
        rw [hlb, hrem] at hon
        unfold speedUpdateRoom
        rw [if_pos ⟨of_decide_eq_true hon.1, of_decide_eq_true hon.2⟩]

theorem cqGood_next (h : RecvGood sh b0 pre s) (hq : CqGood p s) {act : RecvAct}
    (hp : OfParams p act) (hguard : SlotSettled act s) (hnext : s.next act = some t) :
    CqGood p t := by
  have hdata : ∀ c ∈ s.data, ∃ id, c.cause = .data id := fun c hc =>
    (h.data c hc).imp fun _ hid => hid.1
  obtain ⟨hspeed, hroom⟩ := speed_next h hq hp hnext
  refine ⟨?_, ?_, cts_next h hq hguard hnext, hspeed, hroom⟩
  · intro c hc n hcause
    rcases queued_new hdata hnext hc (fun id he => by rw [hcause] at he; cases he) with hold | hnew
    · exact hq.flush c hold n hcause
    · have hact := newCqes_act hnew
      rw [hcause] at hact
      obtain ⟨bufs, rfl⟩ := hact
      exact (iflush_newCqes hnew).2
  · intro c hc id hcause
    rcases queued_new hdata hnext hc (fun id he => by rw [hcause] at he; cases he) with hold | hnew
    · exact hq.slot c hold id hcause
    · have hact := newCqes_act hnew
      rw [hcause] at hact
      obtain ⟨env, bufs, rfl⟩ := hact
      obtain ⟨hfor, hdev⟩ := (irecv_newCqes (h.plain.same h.same) env bufs).2 c hnew
      rw [hcause] at hfor
      cases hfor
      exact hdev

theorem PeerMsgs.same {b : NcclIbNetCommBase} (hsame : SameBase b0 b) {id : Nat} {msgs : List Cqe}
    (hm : PeerMsgs sh b id msgs) : PeerMsgs sh b0 id msgs := by
  refine ⟨fun c hc => ?_, by rw [hm.qps, hsame.qpsOf]⟩
  obtain ⟨hcause, hok⟩ := hm.ok c hc
  refine ⟨hcause, { hok with dev := ?_, qp_num := ?_, imm := ?_ }⟩
  · rw [← hsame.qps]
    exact hok.dev
  · rw [← hsame.qps]
    exact hok.qp_num
  · rw [← hsame.recvMatchingScheme]
    exact hok.imm

theorem cqGood_arrives (hq : CqGood p s) (msgs : List Cqe) : CqGood p (s.arrives msgs) :=
  ⟨hq.flush, hq.slot, hq.cts, hq.speed, hq.room⟩

theorem cqGood_init (h : RecvState.Init sh pre s) (hclear : s.comm.postedSpeedUpdate = false) :
    CqGood p s := by
  have hnone : s.queued = [] := by
    unfold RecvState.queued
    rw [h.sq, h.cq, h.call]
    rfl
  refine ⟨?_, ?_, ?_, ?_, ?_⟩
  · rw [hnone]
    simp
  · rw [hnone]
    simp
  · rw [hnone]
    simp
  · rw [hnone]
    simp
  · rw [hclear]
    simp

theorem recv_reachable (hr : Reachable (recvSystem sh pre p SlotSettled) s) :
    ∃ b0, RecvGood sh b0 pre s ∧ CqGood p s := by
  refine hr.invariant (P := fun s => ∃ b0, RecvGood sh b0 pre s ∧ CqGood p s) ?_ ?_
  · rintro s ⟨h, hclear⟩
    exact ⟨_, good_recvInit h, cqGood_init h hclear⟩
  · rintro s t _ ⟨b0, h, hq⟩ (⟨act, hp, hguard, hnext⟩ | ⟨hpeer, msgs, hm, rfl⟩)
    · have hfree : t.comm.base.fifoHead = s.comm.base.fifoHead + 1 → t.reported = s.reported →
          ∀ id < s.comm.base.fifoHead, slotOf id = slotOf s.comm.base.fifoHead →
            .data id ∈ s.reported := by
        intro hfifo _ id hid hslot
        by_cases hact : ∀ env bufs, act ≠ .irecv env bufs
        · have hsame := (next_steady hnext hact).fifoHead
          omega
        · simp only [not_forall, not_not] at hact
          obtain ⟨env, bufs, rfl⟩ := hact
          exact (hguard id hid hslot).1
      exact ⟨b0, (recv_step h hfree hnext).1, cqGood_next h hq hp hguard hnext⟩
    · exact ⟨b0, good_arrives h hpeer (hm.same h.same), cqGood_arrives hq msgs⟩

/-! ## The receive comm -/

/-- The signaled work requests and the consumed receives of a receive comm on
device `d` that are not polled. -/
def RecvState.unpolled (s : RecvState) (d : Nat) : Nat :=
  (s.sq ++ s.cq).countP (fun c => c.dev = d && !c.flush)

/-- Data on device `d`. -/
def isDataOn (d : Nat) (c : Cqe) : Bool := c.group.isSome && decide (c.dev = d)

theorem isSome_group {c : Cqe} : c.group.isSome = true ↔ ∃ id, c.cause = .data id := by
  unfold Cqe.group
  cases c.cause with
  | data id => simp
  | cts id => simp
  | flush n => simp
  | speed => simp

/-- Every completion of data belongs to a request in use. -/
theorem recv_data (h : RecvGood sh b0 pre s) {d n : Nat}
    (hn : ∀ id < s.comm.base.fifoHead, totalFor sh b0 (.data id) d ≤ n) :
    s.pend.countP (isDataOn d) ≤ NET_IB_MAX_REQUESTS * n := by
  let live := fun i => decide ((s.comm.base.reqs i).type ≠ NCCL_NET_IB_REQ_UNUSED)
  apply countP_le_mul (fun i c => live i && (c.group.isSome && causedBy (s.reqFor i) d c))
  · intro c hc hd
    obtain ⟨hsome, hdev⟩ := Bool.and_eq_true_iff.mp hd
    have hcounted : c.cause.counted = true := by
      obtain ⟨id, hid⟩ := isSome_group.mp hsome
      rw [hid]
      rfl
    obtain ⟨i, hi, htype, hfor⟩ := h.waiting hc hcounted
    have hlive : live i = true := by
      apply decide_eq_true
      rw [htype]
      exact Cause.reqType_ne hcounted
    refine ⟨i, hi, ?_⟩
    rw [hlive, hsome, causedBy_iff.mpr ⟨hfor.symm, of_decide_eq_true hdev⟩]
    rfl
  · intro i hi
    by_cases hown : ∃ c ∈ s.pend, (live i && (c.group.isSome && causedBy (s.reqFor i) d c)) = true
    · obtain ⟨c, hc, hown⟩ := hown
      obtain ⟨hlive, hown⟩ := Bool.and_eq_true_iff.mp hown
      obtain ⟨hsome, hby⟩ := Bool.and_eq_true_iff.mp hown
      have hcause := (causedBy_iff.mp hby).1
      obtain ⟨id, hid⟩ := isSome_group.mp hsome
      have hfor : s.reqFor i = .data id := hcause.symm.trans hid
      have hissued := (h.live i hi (of_decide_eq_true hlive)).1
      rw [hfor] at hissued ⊢
      have hmono : s.pend.countP (fun c => live i && (c.group.isSome && causedBy (.data id) d c)) ≤
          s.pend.countP (causedBy (.data id) d) := by
        apply List.countP_mono_left
        intro x _ hx
        exact (Bool.and_eq_true_iff.mp (Bool.and_eq_true_iff.mp hx).2).2
      have hcons := h.conserved (.data id) rfl d
      have hle := hn id hissued
      split at hcons <;> omega
    · have hzero : s.pend.countP (fun c => live i && (c.group.isSome && causedBy (s.reqFor i) d c)) =
          0 := by
        apply List.countP_eq_zero.mpr
        intro c hc hown'
        exact hown ⟨c, hc, hown'⟩
      omega

/-- The queue of a device holds data, one CTS message and one speed update. -/
theorem recv_unpolled (h : RecvGood sh b0 pre s) (hq : CqGood p s) {d n : Nat}
    (hn : ∀ id < s.comm.base.fifoHead, totalFor sh b0 (.data id) d ≤ n) :
    s.unpolled d ≤ NET_IB_MAX_REQUESTS * n + 1 + speedUpdateRoom p := by
  have hsub : s.unpolled d ≤ s.queued.countP (fun c => c.dev = d && !c.flush) := by
    unfold RecvState.unpolled RecvState.queued
    exact Nat.le_trans (Nat.le_add_right _ _) (Nat.le_of_eq List.countP_append.symm)
  have hsplit : s.queued.countP (fun c => c.dev = d && !c.flush) ≤
      s.queued.countP (isDataOn d) + s.queued.countP (fun c => isCtsOn d c || isSpeed c) := by
    apply countP_le_add
    intro c hc hon
    obtain ⟨hdev, hflush⟩ := Bool.and_eq_true_iff.mp hon
    cases hcause : c.cause with
    | data id =>
      left
      unfold isDataOn Cqe.group
      rw [hcause, hdev]
      rfl
    | cts id =>
      right
      rw [isCtsOn_iff.mpr ⟨id, hcause, of_decide_eq_true hdev⟩]
      rfl
    | flush n =>
      rw [hq.flush c hc n hcause] at hflush
      cases hflush
    | speed =>
      right
      rw [show isSpeed c = true from decide_eq_true hcause, Bool.or_true]
  have hrest : s.queued.countP (fun c => isCtsOn d c || isSpeed c) ≤
      s.queued.countP (isCtsOn d) + s.queued.countP isSpeed :=
    countP_le_add (fun c _ hc => Bool.or_eq_true_iff.mp hc)
  have hdata : s.queued.countP (isDataOn d) ≤ s.pend.countP (isDataOn d) := by
    have hpend : s.pend = s.data ++ s.queued := by
      simp only [RecvState.pend, RecvState.queued, List.append_assoc]
    rw [hpend, List.countP_append]
    exact Nat.le_add_left _ _
  have hcts := hq.cts d
  have hspeed := hq.speed
  have hroom := hq.room
  have := recv_data h hn
  cases hflag : s.comm.postedSpeedUpdate with
  | false =>
    rw [hflag] at hspeed
    simp only [Bool.false_eq_true, if_false] at hspeed
    omega
  | true =>
    rw [hflag] at hspeed
    have := hroom hflag
    simp only [if_true] at hspeed
    omega

theorem recv_fits (hoff : p.resiliencyPortFailover = 0)
    (hr : Reachable (recvSystem sh pre p SlotSettled) s) (hids : s.comm.base.fifoHead ≤ 2 ^ 56)
    (hqps : reqQps sh s.comm.base ≤ sh.ndevs * (2 * sh.qpsPerDev - 1)) (d : Nat) :
    CqFits p false sh.qpsPerDev (s.unpolled d) := by
  obtain ⟨b0, h, hq⟩ := recv_reachable hr
  have hreq : reqQps sh b0 ≤ sh.ndevs * (2 * sh.qpsPerDev - 1) := by
    unfold reqQps at hqps ⊢
    rwa [h.same.splitDataOnQps] at hqps
  have hle := recv_unpolled h hq (d := d) (fun id hid =>
    totalFor_le h.plain (Nat.lt_of_lt_of_le hid hids) hreq d)
  rw [cqFits_iff hoff, if_neg Bool.false_ne_true]
  have hpos := sh.qpsPerDev_pos
  unfold NET_IB_MAX_REQUESTS at hle ⊢
  omega

end

/-! ## The law -/

/-- Without a resiliency context, the completions of a comm fit in the queue of every
device while its requests use no more QPs there than the size counts with. On the
send side these are the QPs that a device has for the connection. On the receive side
they are one less than twice as many, and each CTS message is polled before its slot
is used again. -/
theorem completion_queues_hold_the_requests_in_use (p : IbParams)
    (hoff : p.resiliencyPortFailover = 0) (sh : Shape) :
    (∀ g s, GroupsOk g → Reachable (sendSystem sh g (NoLateEntry g)) s →
      s.comm.base.fifoHead ≤ 2 ^ 56 → reqQps sh s.comm.base ≤ sh.ndevs * sh.qpsPerDev →
        ∀ d, CqFits p true sh.qpsPerDev (s.unpolled d)) ∧
    ∀ pre s, Reachable (recvSystem sh pre p SlotSettled) s →
      s.comm.base.fifoHead ≤ 2 ^ 56 → reqQps sh s.comm.base ≤ sh.ndevs * (2 * sh.qpsPerDev - 1) →
        ∀ d, CqFits p false sh.qpsPerDev (s.unpolled d) :=
  ⟨fun _ _ hg hr hids hqps d => send_fits hg hoff hr hids hqps d,
    fun _ _ hr hids hqps d => recv_fits hoff hr hids hqps d⟩

instance SlotSettled.decidable : (act : RecvAct) → (s : RecvState) → Decidable (SlotSettled act s)
  | .irecv _ _, s =>
    inferInstanceAs (Decidable (∀ id < s.comm.base.fifoHead,
      slotOf id = slotOf s.comm.base.fifoHead →
        .data id ∈ s.reported ∧ ∀ c ∈ s.queued, c.cause ≠ .cts id))
  | .iflush _, _ | .testBegin _, _ | .test _ _, _ | .complete _ _, _ | .deliver _, _
  | .record _ _, _ => inferInstanceAs (Decidable True)

instance OfParams.decidable (p : IbParams) : (act : RecvAct) → Decidable (OfParams p act)
  | .test env _ =>
    inferInstanceAs (Decidable (env.eventBasedLb = decide (p.eventBasedLb ≠ 0) ∧
      env.eventBasedLbRemote = decide (p.eventBasedLbRemote ≠ 0)))
  | .irecv _ _ | .iflush _ | .testBegin _ | .complete _ _ | .deliver _ | .record _ _ =>
    inferInstanceAs (Decidable True)

/-- What group `id` brings: one completion on each of its QPs. -/
def dataOf (sh : Shape) (b : NcclIbNetCommBase) (id : Nat) : List Cqe :=
  (qpsOf sh b id).map (fun q =>
    { wc :=
        { success := true
          wr_id := 0
          opcode := IBV_WC_RECV_RDMA_WITH_IMM
          imm_data := slotOf id
          byte_len := 0
          qp_num := (b.qps q.1).qpn }
      qp := q.1
      dev := (b.qps q.1).devIndex
      flush := false
      cause := .data id })

theorem peerMsgs_dataOf {sh : Shape} {b : NcclIbNetCommBase} {id : Nat}
    (hlt : ∀ c ∈ dataOf sh b id, c.qp < sh.nqps) : PeerMsgs sh b id (dataOf sh b id) where
  ok := by
    intro c hc
    have hqp := hlt c hc
    obtain ⟨q, -, rfl⟩ := List.mem_map.mp hc
    exact ⟨rfl, rfl, rfl, hqp, rfl, rfl, rfl, fun _ => Nat.mod_mod id NET_IB_MAX_REQUESTS⟩
  qps := by
    unfold dataOf
    rw [List.map_map]
    rfl

/-- A step of the comm within the guard, or else the data of the next group. -/
def RecvState.guarded (sh : Shape) (p : IbParams) :
    Option RecvAct → RecvState → Option RecvState
  | some act, s => if OfParams p act ∧ SlotSettled act s then s.next act else none
  | none, s =>
    let msgs := dataOf sh s.comm.base s.peerHead
    if s.peerHead < s.comm.base.fifoHead ∧ ∀ c ∈ msgs, c.qp < sh.nqps then some (s.arrives msgs)
    else none

theorem recv_guarded_reachable {sh : Shape} {p : IbParams} {acts : List (Option RecvAct)}
    {t : RecvState} (hrun : follow (RecvState.guarded sh p) acts (startRecv sh) = some t) :
    Reachable (recvSystem sh false p SlotSettled) t := by
  have hsteps : ∀ act s t, RecvState.guarded sh p act s = some t →
      (recvSystem sh false p SlotSettled).step s t := by
    intro act s t hnext
    unfold RecvState.guarded at hnext
    cases act with
    | some act =>
      simp only at hnext
      split at hnext
      · rename_i hguard
        exact .inl ⟨act, hguard.1, hguard.2, hnext⟩
      · cases hnext
    | none =>
      simp only at hnext
      split at hnext
      · rename_i hpeer
        exact .inr ⟨hpeer.1, _, peerMsgs_dataOf hpeer.2, (Option.some.inj hnext).symm⟩
      · cases hnext
  have hinit : Reachable (recvSystem sh false p SlotSettled) (startRecv sh) :=
    Reachable.init ⟨init_startRecv sh, rfl⟩
  exact hinit.follow hsteps hrun

/-- Two receives of two buffers each. The first CTS message is complete, and data of both
groups has come. -/
def twoReceives : List (Option RecvAct) :=
  let irecv : RecvAct := .irecv plainEnv [⟨0, 8, 0, fun _ => 0⟩, ⟨0, 8, 1, fun _ => 0⟩]
  [some irecv, some irecv, none, some (.deliver 0), some (.deliver 1), some (.complete 0 false),
    none, some (.deliver 2)]

/-- Both sides of a connection with completions in their queues. -/
theorem unpolled_completions_fit :
    (∃ s, Reachable (sendSystem Shape.twoTwo pairGroups (NoLateEntry pairGroups)) s ∧
      s.unpolled 0 = 2 ∧ s.cq.length = 1 ∧ CqFits IbParams.defaults true 2 (s.unpolled 0)) ∧
    ∃ s, Reachable (recvSystem Shape.twoTwo false IbParams.defaults SlotSettled) s ∧
      s.unpolled 0 = 3 ∧ s.cq.length = 4 ∧ CqFits IbParams.defaults false 2 (s.unpolled 0) := by
  have hsend : (follow (SendState.guarded pairGroups) twoPairs (startSend Shape.twoTwo)).map
      (fun s => (s.comm.base.fifoHead, reqQps Shape.twoTwo s.comm.base, s.unpolled 0, s.cq.length)) =
        some (2, 2, 2, 1) := by
    decide +kernel
  have hrecv : (follow (RecvState.guarded Shape.twoTwo IbParams.defaults) twoReceives
      (startRecv Shape.twoTwo)).map
      (fun s => (s.comm.base.fifoHead, reqQps Shape.twoTwo s.comm.base, s.unpolled 0, s.cq.length)) =
        some (2, 2, 3, 4) := by
    decide +kernel
  obtain ⟨hsends, hrecvs⟩ :=
    completion_queues_hold_the_requests_in_use IbParams.defaults rfl Shape.twoTwo
  obtain ⟨s, hs, hfacts⟩ := Option.map_eq_some_iff.mp hsend
  obtain ⟨t, ht, hfacts'⟩ := Option.map_eq_some_iff.mp hrecv
  simp only [Prod.mk.injEq] at hfacts hfacts'
  obtain ⟨hfifo, hqps, hunpolled, hcq⟩ := hfacts
  obtain ⟨hfifo', hqps', hunpolled', hcq'⟩ := hfacts'
  have hr := guarded_reachable hs
  have hr' := recv_guarded_reachable ht
  refine ⟨⟨s, hr, hunpolled, hcq, hsends pairGroups s groupsOk_pairGroups hr ?_ ?_ 0⟩,
    ⟨t, hr', hunpolled', hcq', hrecvs false t hr' ?_ ?_ 0⟩⟩
  · rw [hfifo]
    decide
  · rw [hqps]
    decide
  · rw [hfifo']
    decide
  · rw [hqps']
    decide

/-! ## A request with more QPs than the queue counts with -/

/-- One device here and eight on the other side. A request uses 8 QPs, all of them on
the one device. -/
def wide : Shape := Shape.of 1 8 1 (by decide)

/-- The sends of the first `k` groups are posted, and nothing is complete. -/
structure Piled (k : Nat) (s : SendState) : Prop where
  ok : SendOk wide (freshBase wide true) lateGroups s
  call : s.call = none
  fifoHead : s.comm.base.fifoHead = k
  log : ∀ x ∈ s.log, x.id < k
  sq : s.unpolled 0 = 8 * k

section
variable {k : Nat} {s : SendState}

theorem Piled.owner (h : Piled k s) {slot r : Nat} {o : Owner} (ho : s.owner slot r = some o) :
    slotOf o.id = slot ∧ o.id < k := by
  obtain ⟨x, hx, hid, -⟩ := h.ok.history.owner _ _ _ ho
  exact ⟨(h.ok.good.owner _ _ _ ho).1, hid ▸ h.log x hx⟩

/-- Each request in use has the slot of its own group. -/
theorem Piled.unused (h : Piled k s) (hk : k < 33) :
    ∃ j < NET_IB_MAX_REQUESTS, (s.comm.base.reqs j).type = NCCL_NET_IB_REQ_UNUSED := by
  by_contra hall
  have hentry : ∀ j < NET_IB_MAX_REQUESTS, (s.comm.base.reqs j).id < k ∧
      s.comm.sendReqs (slotOf (s.comm.base.reqs j).id) 0 = some j := by
    intro j hj
    obtain ⟨_, _, r, hsend, ho⟩ := h.ok.good.live j hj (fun hu => hall ⟨j, hj, hu⟩)
    have hlt := (h.owner ho).2
    have hr := (h.ok.good.owner _ _ _ ho).2.2.1
    simp only at hlt hr
    rw [lateGroups, if_neg (by omega)] at hr
    obtain rfl : r = 0 := Nat.lt_one_iff.mp hr
    exact ⟨hlt, hsend⟩
  have hcard : (Finset.range k).card < (Finset.range NET_IB_MAX_REQUESTS).card := by
    rw [Finset.card_range, Finset.card_range, NET_IB_MAX_REQUESTS]
    omega
  obtain ⟨i, hi, j, hj, hne, heq⟩ := Finset.exists_ne_map_eq_of_card_lt_of_maps_to hcard
    (f := fun j => (s.comm.base.reqs j).id)
    (fun j hj => Finset.mem_coe.mpr (Finset.mem_range.mpr
      (hentry j (Finset.mem_range.mp (Finset.mem_coe.mp hj))).1))
  have hi := (hentry i (Finset.mem_range.mp hi)).2
  have hj := (hentry j (Finset.mem_range.mp hj)).2
  rw [heq, hj] at hi
  exact hne (Option.some.inj hi).symm

theorem piled_step (h : Piled k s) (hk : k < 33) :
    ∃ t, SendPath wide lateGroups s t ∧ Piled (k + 1) t := by
  have hg := groupsOk_lateGroups
  have hge : lateGroups s.comm.base.fifoHead = [elemOf k 1 0] := by
    rw [h.fifoHead, lateGroups, if_neg (by omega)]
  have hempty : ∀ r, s.owner (slotOf s.comm.base.fifoHead) r = none := by
    intro r
    cases ho : s.owner (slotOf s.comm.base.fifoHead) r with
    | none => rfl
    | some o =>
      obtain ⟨hslot, hlt⟩ := h.owner ho
      rw [h.fifoHead] at hslot
      unfold slotOf NET_IB_MAX_REQUESTS at hslot
      omega
  obtain ⟨j, hj, hunused⟩ := h.unused hk
  obtain ⟨t, i, hpath, ht⟩ := send_path (a := sendOf 0) hg rfl h.ok rfl rfl h.call hge
    (by simp [elemOf]) hempty hj hunused rfl
  obtain ⟨a, hlog⟩ := ht.log
  refine ⟨t, hpath.path, ht.ok, ht.call, by rw [ht.fifoHead, h.fifoHead], ?_, ?_⟩
  · rw [hlog]
    intro x hx
    rcases List.mem_append.mp hx with hx | hx
    · exact Nat.lt_succ_of_lt (h.log x hx)
    · rw [List.mem_singleton.mp hx, h.fifoHead]
      exact Nat.lt_succ_self _
  · have hall : (groupCqes wide (freshBase wide true) lateGroups k).countP (fun c => c.dev = 0) =
        8 := by
      have hlen : (groupCqes wide (freshBase wide true) lateGroups k).length = 8 := by
        unfold groupCqes qpsOf
        rw [List.length_map, List.length_map, List.length_range]
        rfl
      rw [← hlen]
      apply List.countP_eq_length.mpr
      intro c hc
      have hdev := groupCqes_dev h.ok.good.plain hc
      exact decide_eq_true (Nat.lt_one_iff.mp hdev)
    have hold := h.sq
    unfold SendState.unpolled at hold ⊢
    rw [ht.sq, ht.cq, h.fifoHead]
    simp only [List.countP_append] at hold ⊢
    omega

end

theorem piled_reach : ∀ k ≤ 33, ∃ s, Reachable (sendSystem wide lateGroups (fun _ _ => True)) s ∧
    Piled k s := by
  intro k
  induction k with
  | zero =>
    intro _
    have hinit := init_startSend wide
    exact ⟨startSend wide, Reachable.init hinit, ⟨good_init hinit, history_init hinit⟩, rfl, rfl,
      fun x hx => (by cases hx), rfl⟩
  | succ k ih =>
    intro hk
    obtain ⟨s, hr, hs⟩ := ih (by omega)
    obtain ⟨t, hpath, ht⟩ := piled_step hs (by omega)
    exact ⟨t, hr.path hpath, ht⟩

/-- After 33 sends, 264 completions may come to a queue for 256. -/
theorem a_queue_overflows_with_eight_remote_devices :
    ¬ ∀ (p : IbParams) (sh : Shape) (g : Nat → List NcclIbSendFifo) (s : SendState),
      p.resiliencyPortFailover = 0 → GroupsOk g →
        Reachable (sendSystem sh g (fun _ _ => True)) s →
          ∀ d, CqFits p true sh.qpsPerDev (s.unpolled d) := by
  intro h
  obtain ⟨s, hr, hs⟩ := piled_reach 33 (by decide)
  have hfits := h IbParams.defaults wide lateGroups s rfl groupsOk_lateGroups hr 0
  rw [cqFits_iff rfl, if_pos rfl, hs.sq] at hfits
  exact absurd hfits (by decide)

end net_ib.p2p
