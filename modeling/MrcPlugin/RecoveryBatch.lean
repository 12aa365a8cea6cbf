-- One batch of alive messages that comes whole and in order (p2p_resiliency_recovery.cc).
-- The sender posts as many messages as the sequence size, and the receiver waits for
-- more than that. Its timer has not been started when it begins to wait.
import MrcPlugin.RecoveryLate

namespace net_ib.recovery

open p2p runs

/-! ## The runs of the receiver -/

/-- A receiver that waits for a batch: its context, the alive messages in its CQ and
those on their way, the time of its last poll and what it has done. -/
structure BatchRun where
  ctx : RecoveryContext
  cq : List Msg
  left : List Msg
  clock : Nat
  log : List Effect

inductive BatchAct
  | arrive
  | poll (env : StageEnv)

/-- A poll of a CQ that holds these messages. -/
def polledMsg : List Msg → Poll
  | [] => .empty
  | m :: _ => .got (Cqe.recv m).wc

/-- One step. The messages arrive in order, and the clock does not go back. The run
ends with the ACK. -/
def BatchRun.next (P : RecoveryParams) : BatchAct → BatchRun → Option BatchRun
  | .arrive, x =>
    match x.left with
    | [] => none
    | m :: left => some { x with cq := x.cq ++ [m], left }
  | .poll env, x =>
    if x.ctx.state = .AliveMessages ∧ x.ctx.ackPosted = false ∧ x.clock ≤ env.nowMsg ∧
        env.nowMsg ≤ env.now ∧ env.now < 2 ^ 64 then
      match ncclIbPortRecoveryProgressAliveMessages P { env with poll := polledMsg x.cq } x.ctx with
      | .error _ => none
      | .ok (ctx, effects) => some { x with
          ctx
          cq := if .drained ∈ effects then [] else x.cq.tail
          clock := env.now
          log := x.log ++ effects }
    else none

/-- The calls of a poll succeed, for this comm. -/
def BatchAct.Succeeds (comm : RecoveryComm) : BatchAct → Prop
  | .arrive => True
  | .poll env => env.Works ∧ env.comm = comm

/-- The runs of a receiver that waits from `start` on, while these messages are on
their way. -/
def batchSystem (P : RecoveryParams) (comm : RecoveryComm) (ctx : RecoveryContext) (msgs : List Msg)
    (start : Nat) : System BatchRun where
  init := fun x => x = ⟨ctx, [], msgs, start, []⟩
  step := fun x y => ∃ act : BatchAct, act.Succeeds comm ∧ x.next P act = some y

/-! ## The property -/

/-- When the whole batch is polled, the receiver has restored its QPs and has posted its
ACK, and until the timeout has passed no failed attempt is counted. -/
def OneBatchIsEnough (P : RecoveryParams) (comm : RecoveryComm) (ctx : RecoveryContext)
    (msgs : List Msg) (start : Nat) : Prop :=
  ∀ x, Reachable (batchSystem P comm ctx msgs start) x →
    (x.cq = [] → x.left = [] → .restored ∈ x.log ∧ .ack ∈ x.log) ∧
    (x.clock - start ≤ nanos P.aliveMsgTimeout → x.ctx.nFailedAttempts = ctx.nFailedAttempts)

/-- A receiver in the alive phase, before its ACK. Its timer shows a time that has been. -/
structure Waits (ctx : RecoveryContext) (start : Nat) : Prop where
  side : ctx.isSend = false
  state : ctx.state = .AliveMessages
  ackPosted : ctx.ackPosted = false
  id : ctx.aliveMsgNextId < 2 ^ 32
  past : ctx.timeLastMsg ≤ start
  time : start < 2 ^ 64

/-- The timer was started with the wait, or the clock ends before it runs out. -/
def TimerStarted (P : RecoveryParams) (ctx : RecoveryContext) (start : Nat) : Prop :=
  ctx.timeLastMsg = start ∨ 2 ^ 64 ≤ ctx.timeLastMsg + nanos P.aliveMsgTimeout + 1

/-- The ids of a batch whose first id is `b`. -/
def batchMsgs (P : RecoveryParams) (b : Nat) : List Msg :=
  (List.range P.aliveMsgSequenceSize.toNat).map (fun i => .alive ((b + i) % 2 ^ 32))

section
variable {P : RecoveryParams} {comm : RecoveryComm} {ctx : RecoveryContext} {env : StageEnv}
  {start b : Nat}

/-- The messages that a successful post brings on their way. -/
theorem posted_batch {sender : RecoveryContext} {out : PostOut}
    (hseq : 1 ≤ P.aliveMsgSequenceSize ∧ P.aliveMsgSequenceSize ≤ 10)
    (hpost : ncclIbPortRecoveryPostAliveMessages P env sender = .ok out) (hsuccess : out.success = true) :
    out.effects.filterMap Effect.msg = batchMsgs P sender.aliveMsgNextId := by
  have hsize : i32 P.aliveMsgSequenceSize = P.aliveMsgSequenceSize := by
    unfold i32
    rw [Int.bmod_eq_of_le] <;> omega
  unfold ncclIbPortRecoveryPostAliveMessages at hpost
  simp only [hsize] at hpost
  rw [if_neg (by unfold NCCL_IB_RESILIENCY_PORT_RECOVERY_ALIVE_MSG_BATCH_SIZE_MAX; omega),
    if_neg (by omega)] at hpost
  split at hpost
  · cases hpost
    cases hsuccess
  · cases hpost
    rw [posts_batch, batchMsgs, List.map_map]
    rfl

/-! ## One poll -/

/-- What the receiver does with the messages that it has counted. -/
def waitOn (P : RecoveryParams) (now : Nat) (ctx : RecoveryContext) : RecoveryContext × List Effect :=
  if ctx.nInOrderMsgsReceived > P.aliveMsgSequenceSize then
    ({ ctx with ackPosted := true }, [.drained, .restored, .ack])
  else if elapsed now ctx.timeLastMsg > nanos P.aliveMsgTimeout then
    if ctx.nFailedAttempts + 1 ≥ P.attemptsMax then
      ({ ctx with nFailedAttempts := ctx.nFailedAttempts + 1, state := .Failed }, [])
    else ({ ctx with nFailedAttempts := ctx.nFailedAttempts + 1, timeLastMsg := now }, [])
  else (ctx, [])

/-- The context after the first message of the CQ. -/
def takeFirst (env : StageEnv) (ctx : RecoveryContext) : List Msg → RecoveryContext
  | [] => ctx
  | m :: _ => takeAliveMessage env ctx m.imm_data

theorem takeAliveMessage_next {imm_data : Nat} (h : imm_data = ctx.aliveMsgNextId) :
    takeAliveMessage env ctx imm_data = { ctx with
      nInOrderMsgsReceived := ctx.nInOrderMsgsReceived + 1
      aliveMsgNextId := (ctx.aliveMsgNextId + 1) % 2 ^ 32
      timeLastMsg := env.nowMsg } := if_pos h

theorem takeAliveMessage_other {imm_data : Nat} (h : imm_data ≠ ctx.aliveMsgNextId) :
    takeAliveMessage env ctx imm_data = { ctx with
      nInOrderMsgsReceived := 0
      aliveMsgNextId := (imm_data + 1) % 2 ^ 32
      timeLastMsg := env.nowMsg } := if_neg h

/-- The data QPs of the device have a pointer. -/
def HaveQps (comm : RecoveryComm) (devIndex : Nat) : Prop :=
  ∀ qp ∈ comm.qps, qp.devIndex = devIndex → qp.qp = true

theorem restoreQps_haveQps (hworks : env.Works) {devIndex : Nat} {qps : List RecoveryQp}
    (hqps : ∀ qp ∈ qps, qp.devIndex = devIndex → qp.qp = true) (qpIndex : Nat) :
    restoreQps env devIndex qps qpIndex = .ok true := by
  induction qps generalizing qpIndex with
  | nil => rfl
  | cons qp qps ih =>
    have hrest := ih (fun qp' h => hqps qp' (List.mem_cons_of_mem qp h)) (qpIndex + 1)
    rw [restoreQps]
    by_cases hdev : qp.devIndex = devIndex
    · have hqp := hqps qp (List.mem_cons_self ..) hdev
      simp [hdev, readQpNum_ok hqp, ncclIbResiliencyQpReconfigure, hqp, hworks.destroyed,
        hworks.reconfigured, hworks.preposted, hrest]
    · rw [if_pos hdev, hrest]

theorem restoreAndPostAck_works (hworks : env.Works) (hqps : HaveQps env.comm ctx.devIndex) :
    restoreAndPostAck env ctx true = .ok ⟨{ ctx with ackPosted := true }, true, [.restored, .ack]⟩ := by
  have hrestore := restoreQps_haveQps hworks hqps 0
  simp [restoreAndPostAck, ncclIbPortRecoveryQpsRestore, hrestore, ncclIbPortRecoveryPostAck,
    hworks.postSend, ncclIbResiliencyQpReconfigure, hworks.flushReconfigured]

theorem pollCq_msg (hworks : env.Works) (hside : ctx.isSend = false)
    (hstate : ctx.state = .AliveMessages) (hack : ctx.ackPosted = false) (cq : List Msg) :
    ncclIbPortRecoveryPollCq { env with poll := polledMsg cq } ctx = (takeFirst env ctx cq, true) := by
  cases cq with
  | nil => rfl
  | cons m cq =>
    simp [ncclIbPortRecoveryPollCq, polledMsg, Cqe.wc, hside, hstate, hack, takeFirst,
      ncclIbPortRecoveryHandleCompletionReceiver, hworks.postRecv, takeAliveMessage]

theorem takeFirst_owner (env : StageEnv) (ctx : RecoveryContext) (cq : List Msg) :
    (takeFirst env ctx cq).state = ctx.state ∧ (takeFirst env ctx cq).devIndex = ctx.devIndex ∧
      (takeFirst env ctx cq).nFailedAttempts = ctx.nFailedAttempts ∧
      (takeFirst env ctx cq).isSend = ctx.isSend ∧
      (takeFirst env ctx cq).ackPosted = ctx.ackPosted := by
  cases cq with
  | nil => exact ⟨rfl, rfl, rfl, rfl, rfl⟩
  | cons m cq =>
    unfold takeFirst takeAliveMessage
    by_cases hnext : m.imm_data = ctx.aliveMsgNextId <;> simp [hnext]

/-- A poll whose calls succeed takes the first message and then waits on. -/
theorem poll_eq (hworks : env.Works) (hside : ctx.isSend = false)
    (hstate : ctx.state = .AliveMessages) (hack : ctx.ackPosted = false)
    (hqps : HaveQps env.comm ctx.devIndex) (cq : List Msg) :
    ncclIbPortRecoveryProgressAliveMessages P { env with poll := polledMsg cq } ctx =
      .ok (waitOn P env.now (takeFirst env ctx cq)) := by
  obtain ⟨hstate', hdev, -⟩ := takeFirst_owner env ctx cq
  have hpolled : ({ env with poll := polledMsg cq } : StageEnv).Works := by
    refine { hworks with poll := ?_ }
    cases cq <;> simp [polledMsg]
  simp only [ncclIbPortRecoveryProgressAliveMessages, hside, Bool.false_eq_true, if_false,
    ncclIbPortRecoveryProgressAliveMessagesReceiver, hack, Bool.not_false, if_true, aliveBeforeAck,
    pollCq_msg hworks hside hstate hack]
  by_cases henough : (takeFirst env ctx cq).nInOrderMsgsReceived > P.aliveMsgSequenceSize
  · have hanswer : restoreAndPostAck { env with poll := polledMsg cq } (takeFirst env ctx cq) true =
        .ok ⟨{ takeFirst env ctx cq with ackPosted := true }, true, [.restored, .ack]⟩ := by
      apply restoreAndPostAck_works hpolled
      rw [hdev]
      exact hqps
    rw [if_neg (by simp), if_pos henough, if_neg (by simp [hworks.drain]), hanswer]
    simp [waitOn, henough]
  · by_cases htime : elapsed env.now (takeFirst env ctx cq).timeLastMsg > nanos P.aliveMsgTimeout
    · by_cases hlast : (takeFirst env ctx cq).nFailedAttempts + 1 ≥ P.attemptsMax <;>
        simp [waitOn, henough, htime, hlast]
    · simp [waitOn, henough, htime]

theorem elapsed_eq {now before : Nat} (h : before ≤ now) (hnow : now < 2 ^ 64) :
    elapsed now before = now - before := by
  unfold elapsed u64
  omega

theorem batch_drop {k : Nat} {m : Msg} {ms : List Msg} (h : m :: ms = (batchMsgs P b).drop k) :
    (k : Int) < P.aliveMsgSequenceSize ∧ m = .alive ((b + k) % 2 ^ 32) ∧
      ms = (batchMsgs P b).drop (k + 1) := by
  have hk : k < (batchMsgs P b).length := by
    by_contra hge
    rw [List.drop_eq_nil_of_le (by omega)] at h
    cases h
  rw [List.drop_eq_getElem_cons hk] at h
  obtain ⟨rfl, rfl⟩ := List.cons.inj h
  refine ⟨?_, ?_, rfl⟩
  · simp only [batchMsgs, List.length_map, List.length_range] at hk
    omega
  · simp [batchMsgs]

/-! ## When the batch is enough -/

/-- The receiver has polled the first `k` messages of the batch and waits. -/
structure StillWaits (P : RecoveryParams) (ctx : RecoveryContext) (b start k : Nat) (x : BatchRun) :
    Prop where
  rest : x.cq ++ x.left = (batchMsgs P b).drop k
  count : x.ctx.nInOrderMsgsReceived = ctx.nInOrderMsgsReceived + k
  few : k = 0 ∨ x.ctx.nInOrderMsgsReceived ≤ P.aliveMsgSequenceSize
  next : x.ctx.aliveMsgNextId = (b + k) % 2 ^ 32
  side : x.ctx.isSend = false
  dev : x.ctx.devIndex = ctx.devIndex
  clock : start ≤ x.clock ∧ x.clock < 2 ^ 64
  past : x.ctx.timeLastMsg ≤ x.clock
  last : x.ctx.timeLastMsg = ctx.timeLastMsg ∧ k = 0 ∨ start ≤ x.ctx.timeLastMsg
  early : x.clock - start ≤ nanos P.aliveMsgTimeout →
    x.ctx.nFailedAttempts = ctx.nFailedAttempts

/-- The receiver has answered. -/
structure Answered (P : RecoveryParams) (ctx : RecoveryContext) (start : Nat) (x : BatchRun) :
    Prop where
  restored : .restored ∈ x.log
  ack : .ack ∈ x.log
  posted : x.ctx.ackPosted = true
  early : x.clock - start ≤ nanos P.aliveMsgTimeout →
    x.ctx.nFailedAttempts = ctx.nFailedAttempts

/-- What the receiver knows before the batch. -/
structure Prepared (P : RecoveryParams) (ctx : RecoveryContext) (b start : Nat) : Prop where
  counted : 1 ≤ ctx.nInOrderMsgsReceived
  next : ctx.aliveMsgNextId = b % 2 ^ 32
  timer : P.aliveMsgSequenceSize < ctx.nInOrderMsgsReceived ∨ TimerStarted P ctx start

/-- The wait goes on after a poll that has taken what it could. The timer does not run
out before the timeout has passed since the start. -/
theorem waitOn_early {c : RecoveryContext} {now k : Nat} (hprep : Prepared P ctx b start)
    (hcount : c.nInOrderMsgsReceived = ctx.nInOrderMsgsReceived + k)
    (hpast : c.timeLastMsg ≤ now) (hnow : now < 2 ^ 64) (hstart : start ≤ now)
    (hlast : c.timeLastMsg = ctx.timeLastMsg ∧ k = 0 ∨ start ≤ c.timeLastMsg)
    (hearly : now - start ≤ nanos P.aliveMsgTimeout) :
    (waitOn P now c).1.nFailedAttempts = c.nFailedAttempts := by
  unfold waitOn
  split
  · rfl
  rename_i hfew
  have hrunning : ¬elapsed now c.timeLastMsg > nanos P.aliveMsgTimeout := by
    rw [elapsed_eq hpast hnow]
    rcases hlast with ⟨hsame, rfl⟩ | hlate
    · rcases hprep.timer with hmany | hstarted | hend
      · omega
      · omega
      · omega
    · omega
  rw [if_neg hrunning]

/-- What a poll that does not answer keeps of the context. -/
theorem waitOn_waits {c : RecoveryContext} (now : Nat)
    (h : ¬c.nInOrderMsgsReceived > P.aliveMsgSequenceSize) :
    (waitOn P now c).2 = [] ∧
      (waitOn P now c).1.nInOrderMsgsReceived = c.nInOrderMsgsReceived ∧
      (waitOn P now c).1.aliveMsgNextId = c.aliveMsgNextId ∧
      (waitOn P now c).1.isSend = c.isSend ∧ (waitOn P now c).1.devIndex = c.devIndex ∧
      ((waitOn P now c).1.timeLastMsg = c.timeLastMsg ∨ (waitOn P now c).1.timeLastMsg = now) := by
  unfold waitOn
  rw [if_neg h]
  split
  · split <;> simp
  · simp

theorem waitOn_answers {c : RecoveryContext} {now : Nat}
    (h : c.nInOrderMsgsReceived > P.aliveMsgSequenceSize) :
    waitOn P now c = ({ c with ackPosted := true }, [.drained, .restored, .ack]) := by
  unfold waitOn
  rw [if_pos h]

/-- A step of a poll is a poll of the head of the CQ. -/
theorem next_poll {x y : BatchRun} (hside : x.ctx.isSend = false)
    (hqps : HaveQps comm x.ctx.devIndex) (hworks : (BatchAct.poll env).Succeeds comm)
    (h : x.next P (.poll env) = some y) :
    x.ctx.ackPosted = false ∧ x.clock ≤ env.nowMsg ∧ env.nowMsg ≤ env.now ∧ env.now < 2 ^ 64 ∧
      y = { x with
        ctx := (waitOn P env.now (takeFirst env x.ctx x.cq)).1
        cq := if .drained ∈ (waitOn P env.now (takeFirst env x.ctx x.cq)).2 then [] else x.cq.tail
        clock := env.now
        log := x.log ++ (waitOn P env.now (takeFirst env x.ctx x.cq)).2 } := by
  obtain ⟨hworks, rfl⟩ := hworks
  simp only [BatchRun.next] at h
  split at h
  · rename_i hcond
    obtain ⟨hstate, hack, hmsg, hnow, hend⟩ := hcond
    rw [poll_eq hworks hside hstate hack hqps] at h
    cases h
    exact ⟨hack, hmsg, hnow, hend, rfl⟩
  · cases h

/-- One more message in order, or none. -/
theorem StillWaits.takes {k : Nat} {x : BatchRun} (h : StillWaits P ctx b start k x)
    (hmsg : x.clock ≤ env.nowMsg) :
    ∃ j, x.cq.tail ++ x.left = (batchMsgs P b).drop j ∧
      (takeFirst env x.ctx x.cq).nInOrderMsgsReceived = ctx.nInOrderMsgsReceived + j ∧
      (takeFirst env x.ctx x.cq).aliveMsgNextId = (b + j) % 2 ^ 32 ∧
      (takeFirst env x.ctx x.cq).timeLastMsg ≤ env.nowMsg ∧
      ((takeFirst env x.ctx x.cq).timeLastMsg = ctx.timeLastMsg ∧ j = 0 ∨
        start ≤ (takeFirst env x.ctx x.cq).timeLastMsg) := by
  have hrest := h.rest
  cases hcq : x.cq with
  | nil =>
    rw [hcq] at hrest
    exact ⟨k, hrest, h.count, h.next, h.past.trans hmsg, h.last⟩
  | cons m cq =>
    rw [hcq] at hrest
    obtain ⟨-, rfl, hdrop⟩ := batch_drop hrest
    refine ⟨k + 1, hdrop, ?_⟩
    simp only [takeFirst, takeAliveMessage, Msg.imm_data, h.next, if_true]
    have hcount := h.count
    have hclock := h.clock.1
    refine ⟨?_, ?_, le_refl _, .inr (by omega)⟩
    · push_cast
      omega
    · omega

theorem StillWaits.step {k : Nat} {x y : BatchRun} {act : BatchAct} (hprep : Prepared P ctx b start)
    (hqps : HaveQps comm ctx.devIndex) (h : StillWaits P ctx b start k x)
    (hworks : act.Succeeds comm) (hnext : x.next P act = some y) :
    (∃ j, StillWaits P ctx b start j y) ∨ Answered P ctx start y := by
  cases act with
  | arrive =>
    have hrest := h.rest
    simp only [BatchRun.next] at hnext
    split at hnext
    · cases hnext
    · rename_i m left hleft
      cases hnext
      rw [hleft] at hrest
      refine .inl ⟨k, { h with rest := ?_ }⟩
      rwa [List.append_assoc]
  | poll env =>
    obtain ⟨hack, hmsg, hnow, hend, rfl⟩ := next_poll h.side (h.dev ▸ hqps) hworks hnext
    obtain ⟨j, hrest, hcount, hid, hlast, hsince⟩ := h.takes hmsg
    obtain ⟨-, hdev, hattempts, hside, -⟩ := takeFirst_owner env x.ctx x.cq
    have hclock := h.clock.1
    have hearly : env.now - start ≤ nanos P.aliveMsgTimeout →
        (waitOn P env.now (takeFirst env x.ctx x.cq)).1.nFailedAttempts = ctx.nFailedAttempts := by
      intro hwindow
      rw [waitOn_early hprep hcount (hlast.trans hnow) hend (by omega) hsince hwindow, hattempts]
      exact h.early (by omega)
    by_cases henough : (takeFirst env x.ctx x.cq).nInOrderMsgsReceived > P.aliveMsgSequenceSize
    · right
      rw [waitOn_answers henough] at hearly ⊢
      exact ⟨by simp, by simp, rfl, hearly⟩
    · left
      obtain ⟨hquiet, hcount', hid', hside', hdev', htime⟩ := waitOn_waits env.now henough
      refine ⟨j, ?_, ?_, ?_, ?_, ?_, ?_, ⟨by simp only; omega, hend⟩, ?_, ?_, hearly⟩
      · rw [hquiet, if_neg (by simp)]
        exact hrest
      · exact hcount'.trans hcount
      · right
        rw [hcount']
        omega
      · exact hid'.trans hid
      · exact hside'.trans (hside.trans h.side)
      · exact hdev'.trans (hdev.trans h.dev)
      · rcases htime with hsame | hset
        · rw [hsame]
          exact hlast.trans hnow
        · exact hset.le
      · rcases htime with hsame | hset
        · rw [hsame]
          exact hsince
        · right
          rw [hset]
          omega

theorem Answered.step {x y : BatchRun} {act : BatchAct} (h : Answered P ctx start x)
    (hnext : x.next P act = some y) : Answered P ctx start y := by
  cases act with
  | arrive =>
    simp only [BatchRun.next] at hnext
    split at hnext
    · cases hnext
    · cases hnext
      exact { h with }
  | poll env =>
    simp only [BatchRun.next] at hnext
    rw [if_neg (by simp [h.posted])] at hnext
    cases hnext

/-- A prepared receiver answers a whole batch. -/
theorem batch_enough (hone : 1 ≤ P.aliveMsgSequenceSize) (hctx : Waits ctx start)
    (hqps : HaveQps comm ctx.devIndex) (hprep : Prepared P ctx b start) :
    OneBatchIsEnough P comm ctx (batchMsgs P b) start := by
  intro x hx
  have hgood : (∃ k, StillWaits P ctx b start k x) ∨ Answered P ctx start x := by
    apply hx.invariant (P := fun x => (∃ k, StillWaits P ctx b start k x) ∨ Answered P ctx start x)
    · rintro x rfl
      exact .inl ⟨0, rfl, by simp, .inl rfl, hprep.next, hctx.side, rfl, ⟨le_refl _, hctx.time⟩,
        hctx.past, .inl ⟨rfl, rfl⟩, fun _ => rfl⟩
    · rintro x y - hgood ⟨act, hworks, hnext⟩
      rcases hgood with ⟨k, hwaits⟩ | hanswered
      · exact hwaits.step hprep hqps hworks hnext
      · exact .inr (hanswered.step hnext)
  rcases hgood with ⟨k, hwaits⟩ | hanswered
  · refine ⟨fun hcq hleft => ?_, hwaits.early⟩
    -- All messages are polled, so more than the sequence size are counted.
    have hall := hwaits.rest
    rw [hcq, hleft, List.nil_append] at hall
    have hk := List.drop_eq_nil_iff.mp hall.symm
    simp only [batchMsgs, List.length_map, List.length_range] at hk
    have hcount := hwaits.count
    have hcounted := hprep.counted
    rcases hwaits.few with rfl | hfew
    · omega
    · omega
  · exact ⟨fun _ _ => ⟨hanswered.restored, hanswered.ack⟩, hanswered.early⟩

/-! ## When it is not -/

/-- The answers of a provider at this time, for this comm. -/
def calm (comm : RecoveryComm) (now : Nat) : StageEnv := { now, nowMsg := now, comm }

theorem calm_succeeds (comm : RecoveryComm) (now : Nat) : (BatchAct.poll (calm comm now)).Succeeds comm :=
  ⟨⟨by simp [calm], rfl, rfl, rfl, rfl, rfl, fun _ => rfl, fun _ => rfl, fun _ => rfl, rfl⟩, rfl⟩

/-- The poll of a receiver that waits. -/
theorem poll_next {x : BatchRun} (now : Nat) (hside : x.ctx.isSend = false)
    (hstate : x.ctx.state = .AliveMessages) (hack : x.ctx.ackPosted = false)
    (hqps : HaveQps comm x.ctx.devIndex) (hclock : x.clock ≤ now) (hnow : now < 2 ^ 64) :
    x.next P (.poll (calm comm now)) = some { x with
        ctx := (waitOn P now (takeFirst (calm comm now) x.ctx x.cq)).1
        cq := if .drained ∈ (waitOn P now (takeFirst (calm comm now) x.ctx x.cq)).2 then []
          else x.cq.tail
        clock := now
        log := x.log ++ (waitOn P now (takeFirst (calm comm now) x.ctx x.cq)).2 } := by
  simp only [BatchRun.next]
  rw [if_pos ⟨hstate, hack, hclock, le_refl _, hnow⟩,
    poll_eq (calm_succeeds comm now).1 hside hstate hack hqps]
  rfl

theorem all_arrive (P : RecoveryParams) (comm : RecoveryComm) (ctx : RecoveryContext) (start : Nat)
    (msgs : List Msg) (n : Nat) (hn : n ≤ msgs.length) :
    Reachable (batchSystem P comm ctx msgs start) ⟨ctx, msgs.take n, msgs.drop n, start, []⟩ := by
  induction n with
  | zero => exact Reachable.init rfl
  | succ n ih =>
    refine (ih (by omega)).step ⟨.arrive, trivial, ?_⟩
    have hlt : n < msgs.length := by omega
    simp only [BatchRun.next, List.drop_eq_getElem_cons hlt, List.take_succ_eq_append_getElem hlt]

/-- The receiver has polled the first `k` messages at once and has not answered. -/
structure Polled (P : RecoveryParams) (ctx : RecoveryContext) (b k : Nat) (c : RecoveryContext) :
    Prop where
  side : c.isSend = false
  state : c.state = .AliveMessages
  ackPosted : c.ackPosted = false
  dev : c.devIndex = ctx.devIndex
  first : k = 0 → c = ctx
  next : 0 < k → c.aliveMsgNextId = (b + k) % 2 ^ 32
  few : 0 < k → c.nInOrderMsgsReceived ≤ k

/-- A receiver that has counted no message, or expects another id, polls the whole batch
and does not answer. -/
theorem polls_without_answer (hctx : Waits ctx start) (hqps : HaveQps comm ctx.devIndex)
    (hbad : ctx.nInOrderMsgsReceived < 1 ∨ ctx.aliveMsgNextId ≠ b % 2 ^ 32) (k : Nat)
    (hk : (k : Int) ≤ P.aliveMsgSequenceSize) :
    ∃ c, Polled P ctx b k c ∧ Reachable (batchSystem P comm ctx (batchMsgs P b) start)
      ⟨c, (batchMsgs P b).drop k, [], start, []⟩ := by
  induction k with
  | zero =>
    refine ⟨ctx, ⟨hctx.side, hctx.state, hctx.ackPosted, rfl, fun _ => rfl,
      fun h => absurd h (lt_irrefl 0), fun h => absurd h (lt_irrefl 0)⟩, ?_⟩
    have hall := all_arrive P comm ctx start (batchMsgs P b) _ (le_refl _)
    rwa [List.take_length, List.drop_length] at hall
  | succ k ih =>
    obtain ⟨c, hpolled, hreach⟩ := ih (by omega)
    have hlt : k < (batchMsgs P b).length := by
      simp only [batchMsgs, List.length_map, List.length_range]
      omega
    have hcons := List.drop_eq_getElem_cons hlt
    obtain ⟨-, hmsg, -⟩ := batch_drop hcons.symm
    obtain ⟨hstate, hdev, -, hside, hack⟩ :=
      takeFirst_owner (calm comm start) c ((batchMsgs P b).drop k)
    have htime : (takeFirst (calm comm start) c ((batchMsgs P b).drop k)).timeLastMsg = start := by
      rw [hcons]
      simp only [takeFirst, takeAliveMessage]
      split <;> rfl
    have hfew : (takeFirst (calm comm start) c ((batchMsgs P b).drop k)).nInOrderMsgsReceived ≤
          (k + 1 : Nat) ∧
        (takeFirst (calm comm start) c ((batchMsgs P b).drop k)).aliveMsgNextId =
          (b + (k + 1)) % 2 ^ 32 := by
      have htake : takeFirst (calm comm start) c ((batchMsgs P b).drop k) =
          takeAliveMessage (calm comm start) c ((b + k) % 2 ^ 32) := by
        rw [hcons, hmsg]
        rfl
      rw [htake]
      by_cases hid : (b + k) % 2 ^ 32 = c.aliveMsgNextId
      · rw [takeAliveMessage_next hid]
        refine ⟨?_, by simp only; omega⟩
        rcases Nat.eq_zero_or_pos k with hzero | hpos
        · -- The first message is the expected one, so none has been counted.
          obtain rfl := hpolled.first hzero
          subst hzero
          rcases hbad with hnone | hother
          · simp only
            omega
          · exact absurd hid.symm hother
        · have hle := hpolled.few hpos
          push_cast
          omega
      · rw [takeAliveMessage_other hid]
        refine ⟨?_, ?_⟩
        · simp only
          omega
        · simp only
          omega
    have hquiet : waitOn P start (takeFirst (calm comm start) c ((batchMsgs P b).drop k)) =
        (takeFirst (calm comm start) c ((batchMsgs P b).drop k), []) := by
      unfold waitOn
      rw [if_neg (by omega), if_neg]
      rw [htime, elapsed_eq (le_refl _) hctx.time]
      omega
    refine ⟨takeFirst (calm comm start) c ((batchMsgs P b).drop k), ⟨hside.trans hpolled.side,
      hstate.trans hpolled.state, hack.trans hpolled.ackPosted, hdev.trans hpolled.dev,
      fun h => absurd h (Nat.succ_ne_zero k), fun _ => hfew.2, fun _ => hfew.1⟩, ?_⟩
    refine hreach.step ⟨.poll (calm comm start), calm_succeeds comm start, ?_⟩
    have hpoll := poll_next (P := P) (x := ⟨c, (batchMsgs P b).drop k, [], start, []⟩) start
      hpolled.side hpolled.state hpolled.ackPosted (hpolled.dev ▸ hqps) (le_refl start) hctx.time
    rw [hpoll, hquiet]
    simp

/-- A receiver for which a batch is enough is prepared for it. -/
theorem prepared_of_enough (hone : 1 ≤ P.aliveMsgSequenceSize) (hctx : Waits ctx start)
    (hqps : HaveQps comm ctx.devIndex)
    (h : OneBatchIsEnough P comm ctx (batchMsgs P b) start) : Prepared P ctx b start := by
  have hbad : ¬(ctx.nInOrderMsgsReceived < 1 ∨ ctx.aliveMsgNextId ≠ b % 2 ^ 32) := by
    intro hbad
    obtain ⟨c, -, hreach⟩ := polls_without_answer (P := P) hctx hqps hbad
      P.aliveMsgSequenceSize.toNat (by omega)
    have hend : (batchMsgs P b).drop P.aliveMsgSequenceSize.toNat = [] := by
      apply List.drop_eq_nil_of_le
      simp [batchMsgs]
    have hposted := ((h _ hreach).1 hend rfl).2
    cases hposted
  rw [not_or, not_lt, not_not] at hbad
  refine ⟨hbad.1, hbad.2, ?_⟩
  by_contra htimer
  rw [not_or, not_lt, TimerStarted, not_or] at htimer
  obtain ⟨hfew, hlate, hclock⟩ := htimer
  -- One poll of the empty CQ, as early as the timer of the source runs out.
  have hpast := hctx.past
  have htime := hctx.time
  let now := max start (ctx.timeLastMsg + nanos P.aliveMsgTimeout + 1)
  have hnow : now < 2 ^ 64 := by omega
  have helapsed : elapsed now ctx.timeLastMsg = now - ctx.timeLastMsg :=
    elapsed_eq (by omega) hnow
  have hpoll := poll_next (P := P) (x := ⟨ctx, [], batchMsgs P b, start, []⟩) now hctx.side
    hctx.state hctx.ackPosted hqps (le_max_left ..) hnow
  have hreach : Reachable (batchSystem P comm ctx (batchMsgs P b) start) _ :=
    (Reachable.init rfl).step ⟨.poll (calm comm now), calm_succeeds comm now, hpoll⟩
  have hattempts := (h _ hreach).2 (by simp only; omega)
  have hcounts : (waitOn P now ctx).1.nFailedAttempts = ctx.nFailedAttempts + 1 := by
    unfold waitOn
    rw [if_neg (by omega), if_pos (by omega)]
    split <;> rfl
  simp only [takeFirst, hcounts] at hattempts
  omega

end

/-! ## The law -/

/-- A whole batch is enough exactly when the receiver has counted a message before it,
expects its first id, and has started its timer with the wait (or counts enough
already). -/
theorem one_batch_is_enough_iff (P : RecoveryParams)
    (hseq : 1 ≤ P.aliveMsgSequenceSize ∧ P.aliveMsgSequenceSize ≤ 10) (env : StageEnv)
    (sender : RecoveryContext) (out : PostOut)
    (hpost : ncclIbPortRecoveryPostAliveMessages P env sender = .ok out)
    (hsuccess : out.success = true) (comm : RecoveryComm) (ctx : RecoveryContext) (start : Nat)
    (hctx : Waits ctx start) (hqps : HaveQps comm ctx.devIndex) :
    OneBatchIsEnough P comm ctx (out.effects.filterMap Effect.msg) start ↔
      1 ≤ ctx.nInOrderMsgsReceived ∧ ctx.aliveMsgNextId = sender.aliveMsgNextId % 2 ^ 32 ∧
        (P.aliveMsgSequenceSize < ctx.nInOrderMsgsReceived ∨ TimerStarted P ctx start) := by
  rw [posted_batch hseq hpost hsuccess]
  constructor
  · intro henough
    have hprep := prepared_of_enough hseq.1 hctx hqps henough
    exact ⟨hprep.counted, hprep.next, hprep.timer⟩
  · rintro ⟨hcounted, hnext, htimer⟩
    exact batch_enough hseq.1 hctx hqps ⟨hcounted, hnext, htimer⟩

/-- A receiver that has counted this many messages in order and starts its timer now. -/
def waitingReceiver (n : Nat) (timeLastMsg : Nat) : RecoveryContext where
  resCtx := 1
  devIndex := 0
  isSend := false
  state := .AliveMessages
  timeLastMsg := timeLastMsg
  aliveMsgNextId := n
  nInOrderMsgsReceived := n

/-- The sender after its first message or before it. -/
def batchSender (n : Nat) : RecoveryContext where
  resCtx := 0
  devIndex := 0
  isSend := true
  state := .AliveMessages
  aliveMsgNextId := n

def oneQp : RecoveryComm := { isSend := false, qps := [⟨0, true⟩] }

theorem waits_waitingReceiver (n : Nat) (hn : n < 2 ^ 32) (timeLastMsg start : Nat)
    (hpast : timeLastMsg ≤ start) (htime : start < 2 ^ 64) : Waits (waitingReceiver n timeLastMsg) start :=
  ⟨rfl, rfl, rfl, hn, hpast, htime⟩

theorem haveQps_oneQp : HaveQps oneQp 0 := by
  intro qp hqp _
  rw [List.mem_singleton.mp hqp]

theorem a_batch_after_a_counted_message_is_enough :
    OneBatchIsEnough {} oneQp (waitingReceiver 1 7) (batchMsgs {} 1) 7 := by
  have hpost : ncclIbPortRecoveryPostAliveMessages {} (senderAt 1000) (batchSender 1) = .ok
      ⟨{ batchSender 1 with aliveMsgNextId := 6, timeLastMsg := 10 ^ 9, aliveMsgPosted := true }, true,
        [1, 2, 3, 4, 5].map .aliveMessage⟩ := rfl
  exact (one_batch_is_enough_iff {} (by decide) (senderAt 1000) (batchSender 1) _ hpost rfl oneQp
    (waitingReceiver 1 7) 7 (waits_waitingReceiver 1 (by decide) 7 7 (le_refl _) (by decide))
    haveQps_oneQp).mpr ⟨by decide, rfl, .inr (.inl rfl)⟩

/-- A new receiver context does not answer the first batch, with the defaults. -/
theorem the_first_batch_is_not_enough :
    ¬OneBatchIsEnough {} oneQp (waitingReceiver 0 0) (batchMsgs {} 0) (10 ^ 12) := by
  intro henough
  have hprep := prepared_of_enough (by decide) (waits_waitingReceiver 0 (by decide) 0 (10 ^ 12)
    (by decide) (by decide)) haveQps_oneQp henough
  exact absurd hprep.counted (by decide)

end net_ib.recovery
