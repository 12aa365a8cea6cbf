-- Messages that come late in the recovery protocol (p2p_resiliency_recovery.cc). When
-- nothing is lost and every call succeeds, only a message that the state of its
-- receiver does not expect can take a context to Failed.
import MrcPlugin.RecoverySuccess

namespace net_ib.recovery

open p2p runs

/-! ## Runs without losses -/

/-- The calls of the provider succeed: polls, posts, drains and reconfigurations. No
close destroys a data QP meanwhile. -/
structure StageEnv.Works (env : StageEnv) : Prop where
  poll : env.poll ≠ .fails
  postSend : env.postSend = none
  postRecv : env.postRecv = true
  postRecvs : env.postRecvs = true
  drain : env.drain = true
  qpsReconfigured : env.qpsReconfigured = true
  destroyed : ∀ qpIndex, env.destroyed qpIndex = false
  reconfigured : ∀ qpIndex, env.reconfigured qpIndex = true
  preposted : ∀ qpIndex, env.preposted qpIndex = true
  flushReconfigured : env.flushReconfigured = true

/-- The step loses no message and meets no error, and the end still has an attempt. -/
def Lossless (P : RecoveryParams) (a : PairAct) (s : Pair) : Prop :=
  match a with
  | .senderStage env => env.Works ∧ s.sender.ctx.nFailedAttempts + 1 < P.attemptsMax
  | .receiverStage env => env.Works ∧ s.receiver.ctx.nFailedAttempts + 1 < P.attemptsMax
  | .loseToReceiver _ | .loseToSender _ | .senderError | .receiverError => False
  | _ => True

/-- The protocol without losses. -/
def losslessSystem (P : RecoveryParams) : System Pair where
  init := PairInit
  step s t := ∃ a, Lossless P a s ∧ pairAct P a s = some t

/-- The message that the sender is about to poll is late: it waits for the completion
of its batch, or of its final ACK. -/
def Party.LateForSender (p : Party) : Prop :=
  (∃ m cq, p.cq = .recv m :: cq) ∧
    (p.stage = .alive ∧ p.ctx.state = .AliveMessages ∧ p.ctx.aliveMsgPosted = true ∨
      p.stage = .final ∧ p.ctx.ackCompleted = false)

/-- The message that the receiver is about to poll is late: it waits for the final ACK,
and the message is an alive message. -/
def Party.LateForReceiver (p : Party) : Prop :=
  (∃ m cq, p.cq = .recv m :: cq ∧ m.imm_data ≠ NCCL_IB_RESILIENCY_PORT_RECOVERY_ACK_MSG_ID) ∧
    p.stage = .ack ∧ p.ctx.state = .Ack

/-- The first entry of a CQ is a message. -/
def recvFirst : List Cqe → Bool
  | .recv _ :: _ => true
  | _ => false

/-- The first entry of a CQ is a message that is no ACK. -/
def aliveFirst : List Cqe → Bool
  | .recv m :: _ => m.imm_data ≠ NCCL_IB_RESILIENCY_PORT_RECOVERY_ACK_MSG_ID
  | _ => false

instance (p : Party) : Decidable p.LateForSender :=
  decidable_of_iff (recvFirst p.cq ∧
    (p.stage = .alive ∧ p.ctx.state = .AliveMessages ∧ p.ctx.aliveMsgPosted = true ∨
      p.stage = .final ∧ p.ctx.ackCompleted = false)) <| by
    refine and_congr ?_ Iff.rfl
    rcases p.cq with _ | ⟨_ | m | _, cq⟩ <;> simp [recvFirst]

instance (p : Party) : Decidable p.LateForReceiver :=
  decidable_of_iff (aliveFirst p.cq ∧ p.stage = .ack ∧ p.ctx.state = .Ack) <| by
    refine and_congr ?_ Iff.rfl
    rcases p.cq with _ | ⟨_ | m | _, cq⟩ <;> simp [aliveFirst]

/-- The step polls no late message. -/
def InTime (a : PairAct) (s : Pair) : Prop :=
  match a with
  | .senderStage _ => ¬s.sender.LateForSender
  | .receiverStage _ => ¬s.receiver.LateForReceiver
  | _ => True

instance (a : PairAct) (s : Pair) : Decidable (InTime a s) :=
  match a with
  | .senderStage _ => inferInstanceAs (Decidable ¬s.sender.LateForSender)
  | .receiverStage _ => inferInstanceAs (Decidable ¬s.receiver.LateForReceiver)
  | .senderCall | .receiverCall | .senderCompletes | .receiverCompletes | .toReceiver
  | .toSender | .loseToReceiver _ | .loseToSender _ | .senderError | .receiverError =>
    inferInstanceAs (Decidable True)

/-- The protocol without losses, in which no late message is polled. -/
def inTimeSystem (P : RecoveryParams) : System Pair where
  init := PairInit
  step s t := ∃ a, Lossless P a s ∧ InTime a s ∧ pairAct P a s = some t

/-- No end has failed. -/
structure Unharmed (s : Pair) : Prop where
  sender : s.sender.ctx.state ≠ .Failed
  receiver : s.receiver.ctx.state ≠ .Failed

/-! ## Restores succeed -/

variable {P : RecoveryParams} {env : StageEnv} {p q : Party} {s t : Pair} {msgs : List Msg}

theorem restoreQps_works (h : env.Works) (devIndex : Nat) (qps : List RecoveryQp) (qpIndex : Nat) :
    restoreQps env devIndex qps qpIndex ≠ .ok false := by
  induction qps generalizing qpIndex with
  | nil => simp [restoreQps]
  | cons qp qps ih =>
    unfold restoreQps
    split
    · exact ih _
    · split
      · simp
      · rw [h.reconfigured qpIndex]
        unfold ncclIbResiliencyQpReconfigure
        split
        · simp
        · rename_i hfalse
          split at hfalse <;> cases hfalse
        · rw [if_neg (by simp [h.preposted qpIndex])]
          exact ih _

/-- When every call succeeds, an answer fails only by a QP without a pointer, which is
an error and not a failed restore. -/
theorem answer_works (h : env.Works) (ctx : RecoveryContext) : ¬env.AnswerFails ctx true := by
  rintro (hrestore | hpost)
  · have hqps := restoreQps_works h ctx.devIndex env.comm.qps 0
    unfold ncclIbPortRecoveryQpsRestore at hrestore
    split at hrestore
    · cases hrestore
    · rename_i hfalse
      exact hqps hfalse
    · simp [ncclIbResiliencyQpReconfigure, h.flushReconfigured] at hrestore
  · exact hpost h.postSend

/-! ## What is in a CQ -/

/-- The completions of its own posts that an end still has to come. -/
def Party.pending (p : Party) : Nat := p.sends + p.cq.count .send

theorem Party.polled_head {wc : IbvWc}
    (h : p.polled env = .got wc) : ∃ cqe cq, p.cq = cqe :: cq ∧ wc = cqe.wc := by
  unfold Party.polled at h
  split at h
  · cases h
  · split at h
    · cases h
    · rename_i cqe cq hcq
      cases h
      exact ⟨cqe, cq, hcq, rfl⟩

/-- A completion without an error is of an own post or of a message. -/
theorem Party.polls_cases {opcode : IbvWcOpcode} {imm_data : Nat}
    (h : ({ env with poll := p.polled env } : StageEnv).Polls opcode imm_data) :
    (opcode = .IBV_WC_SEND ∧ ∃ cq, p.cq = .send :: cq) ∨
    (opcode = .IBV_WC_RECV ∧ ∃ m cq, p.cq = .recv m :: cq ∧ m.imm_data = imm_data) := by
  obtain ⟨wc, hgot, hok, rfl, rfl⟩ := h
  obtain ⟨cqe, cq, hcq, rfl⟩ := Party.polled_head hgot
  cases cqe with
  | send => exact .inl ⟨rfl, cq, hcq⟩
  | recv m => exact .inr ⟨rfl, m, cq, hcq, rfl⟩
  | error => cases hok

theorem StageEnv.Works.polled (h : env.Works) (p : Party) :
    ({ env with poll := p.polled env } : StageEnv).Works := by
  refine { h with poll := ?_ }
  dsimp only [Party.polled]
  rw [if_neg h.poll]
  split <;> simp

theorem Party.pollBreaks (hworks : env.Works) (herror : Cqe.error ∉ p.cq) :
    ¬({ env with poll := p.polled env } : StageEnv).PollBreaks := by
  rintro (hfails | ⟨wc, hgot, hok⟩)
  · exact (hworks.polled p).poll hfails
  · obtain ⟨cqe, cq, hcq, rfl⟩ := Party.polled_head hgot
    cases cqe with
    | error => exact herror (by rw [hcq]; exact List.mem_cons_self ..)
    | send => cases hok
    | recv m => cases hok

theorem Party.count_cqAfter (p : Party) (env : StageEnv) (effects : List Effect) :
    (p.cqAfter env effects).count .send ≤ p.cq.count .send := by
  unfold Party.cqAfter
  split
  · exact Nat.zero_le _
  · split
    · exact (List.tail_sublist p.cq).count_le _
    · exact Nat.le_refl _

/-- A poll that takes the completion of an own post. -/
theorem Party.count_polled {cq : List Cqe} (hworks : env.Works) (hcq : p.cq = .send :: cq)
    (hpolls : pollsCq p.stage p.ctx = true) :
    (p.cqAfter env []).count .send + 1 = p.cq.count .send := by
  unfold Party.cqAfter
  rw [if_neg (by simp), if_pos ⟨hpolls, hworks.poll⟩, hcq]
  simp

/-! ## The sender -/

/-- The sender waits for the completion of a post: of its batch or of its final ACK. -/
def senderWaits (ctx : RecoveryContext) : Nat :=
  if ctx.state = .AliveMessages ∧ ctx.aliveMsgPosted = true ∨
    ctx.state = .Ack ∧ ctx.ackReceived = true then 1 else 0

/-- The flags of a sender that has not failed. -/
structure SenderFlags (ctx : RecoveryContext) : Prop where
  side : ctx.isSend = true
  unharmed : ctx.state ≠ .Failed
  fresh : ctx.state = .Init ∨ ctx.state = .AliveMessages → ctx.aliveMsgCompleted = false ∧
    ctx.ackReceived = false
  answered : ctx.ackReceived = true → ctx.ackPosted = true
  completed : ctx.state ≠ .Success → ctx.ackCompleted = false

/-- The sender is calm: its CQ holds only ACKs and the completion it waits for. -/
structure SenderCalm (p : Party) : Prop where
  flags : SenderFlags p.ctx
  final : p.stage = .final → p.ctx.state = .Ack ∧ p.ctx.ackReceived = true ∧
    p.ctx.ackPosted = true
  errors : .error ∉ p.cq
  acks : ∀ m, .recv m ∈ p.cq → m = .ack
  pending : p.pending ≤ senderWaits p.ctx

theorem SenderCalm.no_send {cq : List Cqe} (h : SenderCalm p) (hwaits : senderWaits p.ctx = 0) :
    p.cq ≠ .send :: cq := by
  intro hcq
  have hpending := h.pending
  rw [Party.pending, hcq, hwaits] at hpending
  simp at hpending

/-- A calm sender fails only by a late message. -/
theorem SenderCalm.fails (h : SenderCalm p) (hworks : env.Works)
    (hleft : p.ctx.nFailedAttempts + 1 < P.attemptsMax) (hlate : ¬p.LateForSender) :
    ¬SenderFails P { env with poll := p.polled env } p.stage p.ctx := by
  intro why
  cases why with
  | qps hq => rw [hworks.qpsReconfigured] at hq; cases hq
  | post hpost => exact hpost hworks.postSend
  | poll hbreak => exact Party.pollBreaks hworks h.errors hbreak
  | attempts hlast => omega
  | answer success hanswer hs =>
    cases success with
    | true => exact answer_works (hworks.polled p) _ hanswer
    | false =>
      obtain ⟨hr, hp⟩ := hs rfl
      rw [h.flags.answered hr] at hp
      cases hp
  | aliveTwice hs hc =>
    rw [(h.flags.fresh (.inr hs)).1] at hc
    cases hc
  | aliveOther opcode imm_data hstage hs hp hpolls hne =>
    obtain ⟨rfl, -⟩ | ⟨-, m, cq, hcq, -⟩ := Party.polls_cases hpolls
    · exact hne rfl
    · exact hlate ⟨⟨m, cq, hcq⟩, .inl ⟨hstage, hs, hp⟩⟩
  | ackOther opcode imm_data hs hr hpolls hne =>
    obtain ⟨-, cq, hcq⟩ | ⟨rfl, m, cq, hcq, rfl⟩ := Party.polls_cases hpolls
    · exact h.no_send (by simp [senderWaits, hs, hr]) hcq
    · rw [h.acks m (by rw [hcq]; exact List.mem_cons_self ..)] at hne
      exact hne rfl rfl
  | finalOther opcode imm_data hstage hc hpolls hne =>
    obtain ⟨rfl, -⟩ | ⟨-, m, cq, hcq, -⟩ := Party.polls_cases hpolls
    · exact hne rfl
    · exact hlate ⟨⟨m, cq, hcq⟩, .inr ⟨hstage, hc⟩⟩
  | finalTwice hstage hc =>
    rw [h.flags.completed (by rw [(h.final hstage).1]; simp)] at hc
    cases hc

theorem SenderFlags.does {stage next : Stage} {ctx ctx' : RecoveryContext} {effects : List Effect}
    (h : SenderFlags ctx) (hdoes : SenderDoes P env stage ctx ctx' next effects)
    (hfails : ¬SenderFails P env stage ctx) : SenderFlags ctx' := by
  obtain ⟨hside, hunharmed, hfresh, hanswered, hcompleted⟩ := h
  cases hdoes with
  | rest _ => exact ⟨hside, hunharmed, hfresh, hanswered, hcompleted⟩
  | starts hs =>
    exact ⟨hside, by simp, fun _ => hfresh (.inl hs), hanswered, fun _ => hcompleted (by simp [hs])⟩
  | posts hs _ _ =>
    exact ⟨hside, hunharmed, fun _ => hfresh (.inr hs), hanswered, hcompleted⟩
  | batchDone hs _ _ =>
    exact ⟨hside, by simp, by simp, hanswered, fun _ => hcompleted (by simp [hs])⟩
  | goesBack hs hr _ _ =>
    exact ⟨hside, by simp, fun _ => ⟨rfl, hr⟩, hanswered, fun _ => hcompleted (by simp [hs])⟩
  | hears hs _ hp _ =>
    exact ⟨hside, hunharmed, by simp [hs], fun _ => hp, hcompleted⟩
  | answers hs _ _ _ =>
    exact ⟨hside, hunharmed, by simp [hs], fun _ => rfl, hcompleted⟩
  | finishes _ _ _ => exact ⟨hside, by simp, by simp, hanswered, by simp⟩
  | fails why _ _ _ _ _ => exact absurd why hfails

@[simp]
theorem signaled_nil : signaled [] = 0 := rfl

theorem signaled_le (effects : List Effect) : signaled effects ≤ 1 := by
  unfold signaled
  split <;> simp

/-- The sender has at most the completion to come for which it waits. -/
theorem SenderCalm.pendingAfter {ctx : RecoveryContext} {next : Stage} {effects : List Effect}
    (h : SenderCalm p) (hworks : env.Works)
    (hfails : ¬SenderFails P { env with poll := p.polled env } p.stage p.ctx)
    (hdoes : SenderDoes P { env with poll := p.polled env } p.stage p.ctx ctx next effects) :
    p.sends + signaled effects + (p.cqAfter env effects).count .send ≤ senderWaits ctx := by
  have hcount := p.count_cqAfter env effects
  have hone := signaled_le effects
  have hflags := h.flags
  have hpending := h.pending
  have hpolled := @Party.count_polled env p
  have hpolls := @Party.polls_cases env p
  unfold Party.pending at hpending
  generalize hstage : p.stage = stage at hdoes hpolled hfails
  generalize hctx : p.ctx = ctx0 at hdoes hpolled hpending hflags hfails
  cases hdoes with
  | rest _ => simp only [signaled_nil]; omega
  | starts hs =>
    have hw : senderWaits ctx0 = 0 := by simp [senderWaits, hs]
    simp only [signaled_nil]
    omega
  | posts hs hp _ =>
    have hw : senderWaits ctx0 = 0 := by simp [senderWaits, hs, hp]
    refine Nat.le_trans ?_ (Nat.le_of_eq (if_pos (.inl ⟨hs, rfl⟩)).symm)
    omega
  | batchDone hs hp hdone =>
    have hw : senderWaits ctx0 = 1 := by simp [senderWaits, hs, hp]
    obtain hc | ⟨imm_data, hsend⟩ := hdone
    · rw [(hflags.fresh (.inr hs)).1] at hc
      cases hc
    · obtain ⟨-, cq, hcq⟩ | ⟨hf, -⟩ := hpolls hsend
      · have := hpolled hworks hcq (by simp [pollsCq, hs, hp])
        simp only [signaled_nil]
        omega
      · cases hf
  | goesBack hs hr _ _ =>
    have hw : senderWaits ctx0 = 0 := by simp [senderWaits, hs, hr]
    simp only [signaled_nil]
    omega
  | hears hs hr _ _ =>
    have hw : senderWaits ctx0 = 0 := by simp [senderWaits, hs, hr]
    simp only [signaled_nil]
    omega
  | answers hs hr _ _ =>
    have hw : senderWaits ctx0 = 0 := by simp [senderWaits, hs, hr]
    refine Nat.le_trans ?_ (Nat.le_of_eq (if_pos (.inr ⟨hs, rfl⟩)).symm)
    omega
  | finishes hs hr hdone =>
    have hw : senderWaits ctx0 = 1 := by simp [senderWaits, hs, hr]
    obtain ⟨-, cq, hcq⟩ | ⟨hf, -⟩ := hpolls hdone
    · have hc : ctx0.ackCompleted = false := hflags.completed (by simp [hs])
      have := hpolled hworks hcq (by simp [pollsCq, hc])
      simp only [signaled_nil]
      omega
    · cases hf
  | fails why _ _ _ _ _ => exact absurd why hfails

theorem SenderCalm.runStage (h : SenderCalm p) (hworks : env.Works)
    (hleft : p.ctx.nFailedAttempts + 1 < P.attemptsMax) (hlate : ¬p.LateForSender)
    (hq : p.runStage P env = some (q, msgs)) : SenderCalm q := by
  obtain ⟨rfl, -⟩ | ⟨ctx, next, effects, hstage, -, -, rfl⟩ := Party.runStage_cases hq
  · exact ⟨h.flags, h.final, h.errors, h.acks, h.pending⟩
  · have hdoes := sender_does h.flags.side
      (fun hf => ⟨(h.final hf).1, (h.final hf).2.1⟩) hstage
    have hfails := h.fails hworks hleft hlate
    exact ⟨h.flags.does hdoes hfails, hdoes.final, fun hm => h.errors (Party.mem_cqAfter hm),
      fun m hm => h.acks m (Party.mem_cqAfter hm), h.pendingAfter hworks hfails hdoes⟩

/-! ## The receiver -/

/-- The receiver waits for the completion of its ACK. -/
def receiverWaits (ctx : RecoveryContext) : Nat :=
  if ctx.state = .AliveMessages ∧ ctx.ackPosted = true then 1 else 0

/-- The flags of a receiver that has not failed. -/
structure ReceiverFlags (ctx : RecoveryContext) : Prop where
  side : ctx.isSend = false
  unharmed : ctx.state ≠ .Failed
  init : ctx.state = .Init → ctx.ackPosted = false
  completed : ctx.state = .Init ∨ ctx.state = .AliveMessages → ctx.ackCompleted = false

/-- The receiver is calm: of its own posts only the completion it waits for is to come. -/
structure ReceiverCalm (p : Party) : Prop where
  flags : ReceiverFlags p.ctx
  final : p.stage ≠ .final
  errors : .error ∉ p.cq
  pending : p.pending ≤ receiverWaits p.ctx

theorem ReceiverCalm.no_send {cq : List Cqe} (h : ReceiverCalm p)
    (hwaits : receiverWaits p.ctx = 0) : p.cq ≠ .send :: cq := by
  intro hcq
  have hpending := h.pending
  rw [Party.pending, hcq, hwaits] at hpending
  simp at hpending

/-- A calm receiver fails only by a late message. -/
theorem ReceiverCalm.fails (h : ReceiverCalm p) (hworks : env.Works)
    (hleft : p.ctx.nFailedAttempts + 1 < P.attemptsMax) (hlate : ¬p.LateForReceiver) :
    ¬ReceiverFails P { env with poll := p.polled env } p.stage p.ctx := by
  intro why
  cases why with
  | qps hq => rw [hworks.qpsReconfigured] at hq; cases hq
  | recvWr hrecv =>
    rw [hworks.postRecv, hworks.postRecvs] at hrecv
    rcases hrecv with hf | hf <;> cases hf
  | poll hbreak => exact Party.pollBreaks hworks h.errors hbreak
  | drain hdrain => rw [hworks.drain] at hdrain; cases hdrain
  | attempts hlast => omega
  | answer hanswer => exact answer_works (hworks.polled p) _ hanswer
  | aliveOther opcode imm_data hs hpolls hne ha =>
    obtain ⟨rfl, cq, hcq⟩ | ⟨rfl, -⟩ := Party.polls_cases hpolls
    · have hposted : p.ctx.ackPosted = false := by
        by_contra hp
        exact ha (by simpa using hp) rfl
      exact h.no_send (by simp [receiverWaits, hposted]) hcq
    · exact hne rfl
  | ackOther opcode imm_data hstage hs hpolls hne =>
    obtain ⟨-, cq, hcq⟩ | ⟨rfl, m, cq, hcq, rfl⟩ := Party.polls_cases hpolls
    · exact h.no_send (by simp [receiverWaits, hs]) hcq
    · exact hlate ⟨⟨m, cq, hcq, hne rfl⟩, hstage, hs⟩

theorem ReceiverFlags.take {ctx : RecoveryContext} (h : ReceiverFlags ctx) (env : StageEnv)
    (imm_data : Nat) : ReceiverFlags (takeAliveMessage env ctx imm_data) := by
  unfold takeAliveMessage
  split <;> exact ⟨h.side, h.unharmed, h.init, h.completed⟩

theorem ReceiverFlags.does {stage next : Stage} {ctx ctx' : RecoveryContext}
    {effects : List Effect} (h : ReceiverFlags ctx)
    (hdoes : ReceiverDoes P env stage ctx ctx' next effects)
    (hfails : ¬ReceiverFails P env stage ctx) : ReceiverFlags ctx' := by
  cases hdoes with
  | rest _ => exact h
  | starts hs => exact ⟨h.side, by simp, by simp, fun _ => h.completed (.inl hs)⟩
  | waits n time hs _ => exact ⟨h.side, h.unharmed, h.init, h.completed⟩
  | takes imm_data n time hs _ _ =>
    have htake := h.take env imm_data
    exact ⟨htake.side, htake.unharmed, htake.init, htake.completed⟩
  | answers ctx1 hs _ h1 =>
    obtain rfl | ⟨imm_data, -, rfl⟩ := h1
    · exact ⟨h.side, h.unharmed, by simp [hs], h.completed⟩
    · have htake := h.take env imm_data
      have hs' := takeAliveMessage_state env ctx imm_data
      exact ⟨htake.side, htake.unharmed, by simp [hs', hs], htake.completed⟩
  | ackDone hs _ _ => exact ⟨h.side, by simp, by simp, by simp⟩
  | acked _ _ => exact ⟨h.side, by simp, by simp, by simp⟩
  | goesBack hs _ _ => exact ⟨h.side, by simp, by simp, fun _ => rfl⟩
  | fails why _ _ _ _ _ => exact absurd why hfails

theorem Party.cqAfter_drained (p : Party) (env : StageEnv) {effects : List Effect}
    (h : .drained ∈ effects) : p.cqAfter env effects = [] := by
  unfold Party.cqAfter
  rw [if_pos h]

/-- The receiver has at most the completion to come for which it waits. -/
theorem ReceiverCalm.pendingAfter {ctx : RecoveryContext} {next : Stage} {effects : List Effect}
    (h : ReceiverCalm p) (hworks : env.Works)
    (hfails : ¬ReceiverFails P { env with poll := p.polled env } p.stage p.ctx)
    (hdoes : ReceiverDoes P { env with poll := p.polled env } p.stage p.ctx ctx next effects) :
    p.sends + signaled effects + (p.cqAfter env effects).count .send ≤ receiverWaits ctx := by
  have hcount := p.count_cqAfter env effects
  have hflags := h.flags
  have hpending := h.pending
  have hpolled := @Party.count_polled env p
  have hpolls := @Party.polls_cases env p
  unfold Party.pending at hpending
  generalize hstage : p.stage = stage at hdoes hpolled hfails
  generalize hctx : p.ctx = ctx0 at hdoes hpolled hpending hflags hfails
  cases hdoes with
  | rest _ => simp only [signaled_nil]; omega
  | starts hs =>
    have hw : receiverWaits ctx0 = 0 := by simp [receiverWaits, hs]
    simp only [signaled_nil]
    omega
  | waits n time hs ha =>
    have hw : receiverWaits ctx0 = 0 := by simp [receiverWaits, ha]
    simp only [signaled_nil]
    omega
  | takes imm_data n time hs ha _ =>
    have hw : receiverWaits ctx0 = 0 := by simp [receiverWaits, ha]
    simp only [signaled_nil]
    omega
  | answers ctx1 hs ha h1 =>
    have hw : receiverWaits ctx0 = 0 := by simp [receiverWaits, ha]
    have hs1 : ctx1.state = .AliveMessages := by
      obtain rfl | ⟨imm_data, -, rfl⟩ := h1
      · exact hs
      · rw [takeAliveMessage_state, hs]
    rw [p.cqAfter_drained env (by simp)]
    refine Nat.le_trans ?_ (Nat.le_of_eq (if_pos ⟨hs1, rfl⟩).symm)
    have := signaled_le [.drained, .restored, .ack]
    simp only [List.count_nil]
    omega
  | ackDone hs ha hdone =>
    have hw : receiverWaits ctx0 = 1 := by simp [receiverWaits, hs, ha]
    obtain hc | ⟨imm_data, hsend⟩ := hdone
    · rw [hflags.completed (.inr hs)] at hc
      cases hc
    · obtain ⟨-, cq, hcq⟩ | ⟨hf, -⟩ := hpolls hsend
      · have := hpolled hworks hcq (by simp [pollsCq, hs, hflags.side])
        simp only [signaled_nil]
        omega
      · cases hf
  | acked hs _ =>
    have hw : receiverWaits ctx0 = 0 := by simp [receiverWaits, hs]
    simp only [signaled_nil]
    omega
  | goesBack hs _ _ =>
    have hw : receiverWaits ctx0 = 0 := by simp [receiverWaits, hs]
    rw [p.cqAfter_drained env (by simp)]
    have : signaled [.drained] = 0 := rfl
    simp only [List.count_nil]
    omega
  | fails why _ _ _ _ _ => exact absurd why hfails

theorem ReceiverCalm.runStage (h : ReceiverCalm p) (hworks : env.Works)
    (hleft : p.ctx.nFailedAttempts + 1 < P.attemptsMax) (hlate : ¬p.LateForReceiver)
    (hq : p.runStage P env = some (q, msgs)) :
    ReceiverCalm q ∧ ∀ m ∈ msgs, m = .ack := by
  obtain ⟨rfl, rfl⟩ | ⟨ctx, next, effects, hstage, -, rfl, rfl⟩ := Party.runStage_cases hq
  · exact ⟨⟨h.flags, h.final, h.errors, h.pending⟩, by simp⟩
  · have hdoes := receiver_does h.flags.side h.final hstage
    have hfails := h.fails hworks hleft hlate
    refine ⟨⟨h.flags.does hdoes hfails, hdoes.final, fun hm => h.errors (Party.mem_cqAfter hm),
      h.pendingAfter hworks hfails hdoes⟩, fun m hm => ?_⟩
    rcases mem_posts hm with ⟨rfl, -⟩ | ⟨id, -, he⟩
    · rfl
    · exact absurd he (hdoes.postsNoAlive id)

/-! ## Both ends -/

/-- Both ends are calm, and only ACKs are on their way to the sender. -/
structure PairCalm (s : Pair) : Prop where
  sender : SenderCalm s.sender
  receiver : ReceiverCalm s.receiver
  acks : ∀ m ∈ s.toSender, m = .ack

theorem PairCalm.unharmed (h : PairCalm s) : Unharmed s :=
  ⟨h.sender.flags.unharmed, h.receiver.flags.unharmed⟩

theorem Party.pending_complete {n : Nat} (hn : p.sends = n + 1) :
    ({ p with sends := n, cq := p.cq ++ [.send] } : Party).pending = p.pending := by
  have hone : List.count Cqe.send [Cqe.send] = 1 := rfl
  simp only [Party.pending, List.count_append, hn, hone]
  omega

theorem Party.pending_arrives (p : Party) (m : Msg) : (p.arrives (.recv m)).pending = p.pending := by
  simp [Party.pending, Party.arrives, List.count_append]

theorem PairCalm.act {a : PairAct} (h : PairCalm s) (hlossless : Lossless P a s)
    (htime : InTime a s) (ht : pairAct P a s = some t) : PairCalm t := by
  obtain ⟨hsender, hreceiver, hacks⟩ := h
  cases a with
  | senderStage env =>
    obtain ⟨⟨q, msgs⟩, hq, rfl⟩ := Option.map_eq_some_iff.mp ht
    exact ⟨hsender.runStage hlossless.1 hlossless.2 htime hq, hreceiver, hacks⟩
  | receiverStage env =>
    obtain ⟨⟨q, msgs⟩, hq, rfl⟩ := Option.map_eq_some_iff.mp ht
    obtain ⟨hreceiver', hmsgs⟩ := hreceiver.runStage hlossless.1 hlossless.2 htime hq
    refine ⟨hsender, hreceiver', fun m hm => ?_⟩
    rcases List.mem_append.mp hm with hm | hm
    · exact hacks m hm
    · exact hmsgs m hm
  | senderCall =>
    obtain ⟨q, hq, rfl⟩ := Option.map_eq_some_iff.mp ht
    obtain rfl := Party.call_cases hq
    exact ⟨⟨hsender.flags, by simp, hsender.errors, hsender.acks, hsender.pending⟩, hreceiver,
      hacks⟩
  | receiverCall =>
    obtain ⟨q, hq, rfl⟩ := Option.map_eq_some_iff.mp ht
    obtain rfl := Party.call_cases hq
    exact ⟨hsender, ⟨hreceiver.flags, by simp, hreceiver.errors, hreceiver.pending⟩, hacks⟩
  | senderCompletes =>
    obtain ⟨q, hq, rfl⟩ := Option.map_eq_some_iff.mp ht
    obtain ⟨n, hn, rfl⟩ := Party.complete_cases hq
    exact ⟨⟨hsender.flags, hsender.final, by simpa using hsender.errors,
      by simpa using hsender.acks, Nat.le_trans (Nat.le_of_eq (Party.pending_complete hn)) hsender.pending⟩,
      hreceiver, hacks⟩
  | receiverCompletes =>
    obtain ⟨q, hq, rfl⟩ := Option.map_eq_some_iff.mp ht
    obtain ⟨n, hn, rfl⟩ := Party.complete_cases hq
    exact ⟨hsender, ⟨hreceiver.flags, hreceiver.final, by simpa using hreceiver.errors,
      Nat.le_trans (Nat.le_of_eq (Party.pending_complete hn)) hreceiver.pending⟩, hacks⟩
  | toReceiver =>
    simp only [pairAct] at ht
    split at ht
    · cases ht
    · rename_i m ms _
      cases ht
      exact ⟨hsender, ⟨hreceiver.flags, hreceiver.final,
        by simpa [Party.arrives] using hreceiver.errors,
        Nat.le_trans (Nat.le_of_eq (Party.pending_arrives s.receiver m)) hreceiver.pending⟩, hacks⟩
  | toSender =>
    simp only [pairAct] at ht
    split at ht
    · cases ht
    · rename_i m ms hms
      cases ht
      rw [hms] at hacks
      have hm : m = .ack := hacks m (List.mem_cons_self ..)
      refine ⟨⟨hsender.flags, hsender.final, by simpa [Party.arrives] using hsender.errors, ?_,
        Nat.le_trans (Nat.le_of_eq (Party.pending_arrives s.sender m)) hsender.pending⟩, hreceiver,
        fun m' hm' => hacks m' (List.mem_cons_of_mem m hm')⟩
      intro m' hm'
      rcases List.mem_append.mp hm' with hm' | hm'
      · exact hsender.acks m' hm'
      · simp only [List.mem_singleton, Cqe.recv.injEq] at hm'
        exact hm'.trans hm
  | loseToReceiver n | loseToSender n | senderError | receiverError => exact hlossless.elim

theorem PairInit.calm (h : PairInit s) : PairCalm s := by
  obtain ⟨sender, receiver, toReceiver, toSender⟩ := s
  obtain ⟨htr, hts, ⟨r, d, time, hs⟩, ⟨r', d', time', hr⟩⟩ := h
  dsimp only at htr hts hs hr
  subst htr hts hs hr
  refine ⟨⟨⟨rfl, ?_, ?_, ?_, ?_⟩, ?_, ?_, ?_, ?_⟩, ⟨⟨rfl, ?_, ?_, ?_⟩, ?_, ?_, ?_⟩, ?_⟩ <;>
    simp [Party.pending]

theorem calm_reachable (h : Reachable (inTimeSystem P) s) : PairCalm s :=
  h.invariant (fun _ => PairInit.calm)
    (fun _ _ _ hs ⟨_, hlossless, htime, ht⟩ => hs.act hlossless htime ht)

/-! ## Late messages -/

theorem SenderCalm.late_fails (h : SenderCalm p) (hworks : env.Works) (hlate : p.LateForSender)
    (hq : p.runStage P env = some (q, msgs)) : q.ctx.state = .Failed := by
  obtain ⟨⟨m, cq, hcq⟩, hwhere⟩ := hlate
  have hpolled : p.polled env = .got (Cqe.recv m).wc := by
    unfold Party.polled
    rw [if_neg hworks.poll, hcq]
  unfold Party.runStage at hq
  split at hq
  · cases hq
  · obtain ⟨hstage, hs, hp⟩ | ⟨hstage, hc⟩ := hwhere
    · rw [hpolled, hstage] at hq
      simp [contextStage, hs, ncclIbPortRecoveryProgressAliveMessages, h.flags.side,
        ncclIbPortRecoveryProgressAliveMessagesSender, hp, ncclIbPortRecoveryPollCq, Cqe.wc,
        ncclIbPortRecoveryHandleCompletionSender] at hq
      rw [← hq.1]
    · obtain ⟨hs, hr, -⟩ := h.final hstage
      rw [hpolled, hstage] at hq
      simp [contextStage, finalStage, ackSenderFinish, hc, ncclIbPortRecoveryPollCq, Cqe.wc,
        h.flags.side, ncclIbPortRecoveryHandleCompletionSender, hs, hr, ackSwitch] at hq
      rw [← hq.1]

theorem ReceiverCalm.late_fails (h : ReceiverCalm p) (hworks : env.Works)
    (hlate : p.LateForReceiver) (hq : p.runStage P env = some (q, msgs)) :
    q.ctx.state = .Failed := by
  obtain ⟨⟨m, cq, hcq, hne⟩, hstage, hs⟩ := hlate
  have hpolled : p.polled env = .got (Cqe.recv m).wc := by
    unfold Party.polled
    rw [if_neg hworks.poll, hcq]
  unfold Party.runStage at hq
  split at hq
  · cases hq
  · rw [hpolled, hstage] at hq
    simp [contextStage, hs, ackStage, h.flags.side, ncclIbPortRecoveryProgressAckReceiver,
      ncclIbPortRecoveryPollCq, Cqe.wc, ncclIbPortRecoveryHandleCompletionReceiver, hne,
      ackSwitch] at hq
    rw [← hq.1]

/-- A step of calm ends harms one of them exactly when it polls a late message. -/
theorem PairCalm.unharmed_iff {a : PairAct} (h : PairCalm s) (hlossless : Lossless P a s)
    (ht : pairAct P a s = some t) : Unharmed t ↔ InTime a s := by
  refine ⟨fun hunharmed => ?_, fun htime => (h.act hlossless htime ht).unharmed⟩
  cases a with
  | senderStage env =>
    intro hlate
    obtain ⟨⟨q, msgs⟩, hq, rfl⟩ := Option.map_eq_some_iff.mp ht
    exact hunharmed.sender (h.sender.late_fails hlossless.1 hlate hq)
  | receiverStage env =>
    intro hlate
    obtain ⟨⟨q, msgs⟩, hq, rfl⟩ := Option.map_eq_some_iff.mp ht
    exact hunharmed.receiver (h.receiver.late_fails hlossless.1 hlate hq)
  | _ => trivial

/-- In every run without losses in which no late message is polled no end fails, and
the first late message that is polled fails its receiver. -/
theorem late_messages_are_harmless (P : RecoveryParams) (s : Pair)
    (h : Reachable (inTimeSystem P) s) :
    Unharmed s ∧ ∀ a t, Lossless P a s → pairAct P a s = some t → (Unharmed t ↔ InTime a s) :=
  ⟨(calm_reachable h).unharmed,
    fun _ _ hlossless ht => (calm_reachable h).unharmed_iff hlossless ht⟩

/-- Both ends still have an attempt. -/
def Pair.AttemptsLeft (P : RecoveryParams) (s : Pair) : Prop :=
  s.sender.ctx.nFailedAttempts + 1 < P.attemptsMax ∧
    s.receiver.ctx.nFailedAttempts + 1 < P.attemptsMax

instance (P : RecoveryParams) (s : Pair) : Decidable (s.AttemptsLeft P) :=
  inferInstanceAs (Decidable (_ ∧ _))

/-- A run over a list of steps, as long as both ends have an attempt. -/
def Pair.losslessRun (P : RecoveryParams) : List PairAct → Pair → Option Pair
  | [], s => some s
  | a :: as, s =>
    if s.AttemptsLeft P then (pairAct P a s).bind (Pair.losslessRun P as) else none

/-- The step loses nothing and all its calls succeed. -/
def PairAct.Works : PairAct → Prop
  | .senderStage env | .receiverStage env => env.Works
  | .loseToReceiver _ | .loseToSender _ | .senderError | .receiverError => False
  | _ => True

theorem PairAct.Works.lossless {a : PairAct} (h : a.Works) (hleft : s.AttemptsLeft P) :
    Lossless P a s := by
  cases a with
  | senderStage env => exact ⟨h, hleft.1⟩
  | receiverStage env => exact ⟨h, hleft.2⟩
  | _ => exact h

theorem Pair.losslessRun_reachable {as : List PairAct} (hworks : ∀ a ∈ as, a.Works)
    (h : Reachable (losslessSystem P) s) (hrun : Pair.losslessRun P as s = some t) :
    Reachable (losslessSystem P) t := by
  induction as generalizing s with
  | nil => cases hrun; exact h
  | cons a as ih =>
    unfold Pair.losslessRun at hrun
    split at hrun
    · rename_i hleft
      obtain ⟨u, hu, hrun⟩ := Option.bind_eq_some_iff.mp hrun
      have hstep := (hworks a (List.mem_cons_self ..)).lossless hleft
      exact ih (fun b hb => hworks b (List.mem_cons_of_mem a hb)) (h.step ⟨a, hstep, hu⟩) hrun
    · cases hrun

theorem senderAt_works (msec : Nat) : (senderAt msec).Works :=
  ⟨by simp [senderAt], rfl, rfl, rfl, rfl, rfl, fun _ => rfl, fun _ => rfl, fun _ => rfl, rfl⟩

theorem receiverAt_works (msec : Nat) : (receiverAt msec).Works :=
  ⟨by simp [receiverAt], rfl, rfl, rfl, rfl, rfl, fun _ => rfl, fun _ => rfl, fun _ => rfl, rfl⟩

/-- A run without losses that polls no late message. -/
def Pair.inTimeRun (P : RecoveryParams) : List PairAct → Pair → Option Pair
  | [], s => some s
  | a :: as, s =>
    if s.AttemptsLeft P ∧ InTime a s then (pairAct P a s).bind (Pair.inTimeRun P as) else none

theorem Pair.inTimeRun_reachable {as : List PairAct} (hworks : ∀ a ∈ as, a.Works)
    (h : Reachable (inTimeSystem P) s) (hrun : Pair.inTimeRun P as s = some t) :
    Reachable (inTimeSystem P) t := by
  induction as generalizing s with
  | nil => cases hrun; exact h
  | cons a as ih =>
    unfold Pair.inTimeRun at hrun
    split at hrun
    · rename_i hstep
      obtain ⟨u, hu, hrun⟩ := Option.bind_eq_some_iff.mp hrun
      have hlossless := (hworks a (List.mem_cons_self ..)).lossless hstep.1
      exact ih (fun b hb => hworks b (List.mem_cons_of_mem a hb))
        (h.step ⟨a, hlossless, hstep.2, hu⟩) hrun
    · cases hrun

/-- Two batches of five come. The receiver answers the sixth message, polls the other
four before the completion of its ACK, and the sender polls that ACK in its Ack state. -/
def answeredInTime : List PairAct :=
  senderCalls 1000 ++ .senderCompletes :: senderCalls 6001 ++ senderCalls 6001 ++
    List.replicate 6 .toReceiver ++ (List.replicate 6 (receiverCalls 6001)).flatten ++
    List.replicate 4 .toReceiver ++ (List.replicate 4 (receiverCalls 6001)).flatten ++
    .receiverCompletes :: receiverCalls 6001 ++ [.senderCompletes, .toSender] ++
    List.replicate 4 (.senderStage (senderAt 6001)) ++ [.senderCall, .senderCompletes] ++
    List.replicate 4 (.senderStage (senderAt 6001)) ++ .toReceiver :: (receiverCalls 6001).take 3

theorem answeredInTime_works : ∀ a ∈ answeredInTime, a.Works := by
  simp [answeredInTime, senderCalls, receiverCalls, PairAct.Works, senderAt_works,
    receiverAt_works]

/-- Alive messages that come after the ACK and both ACKs are polled in time, and both
ends come to success. -/
theorem messages_in_time_are_harmless : ∃ s, Reachable (inTimeSystem {}) s ∧
    s.sender.ctx.state = .Success ∧ s.receiver.ctx.state = .Success ∧ Unharmed s := by
  have hend : (Pair.inTimeRun {} answeredInTime newPair).map
      (fun t => (t.sender.ctx.state, t.receiver.ctx.state)) = some (.Success, .Success) := by
    decide +kernel
  obtain ⟨t, hrun, ht⟩ := Option.map_eq_some_iff.mp hend
  simp only [Prod.mk.injEq] at ht
  have hreach := Pair.inTimeRun_reachable answeredInTime_works (Reachable.init init_newPair) hrun
  exact ⟨t, hreach, ht.1, ht.2, (late_messages_are_harmless {} t hreach).1⟩

/-- Two batches of five come. The receiver answers the sixth message and waits for the
final ACK when the seventh comes. -/
def aliveAfterAnswer : List PairAct :=
  senderCalls 1000 ++ .senderCompletes :: senderCalls 6001 ++ senderCalls 6001 ++
    List.replicate 6 .toReceiver ++ (List.replicate 6 (receiverCalls 6001)).flatten ++
    .receiverCompletes :: receiverCalls 6001 ++ .toReceiver :: (receiverCalls 6001).take 3

theorem aliveAfterAnswer_works : ∀ a ∈ aliveAfterAnswer, a.Works := by
  simp [aliveAfterAnswer, senderCalls, receiverCalls, PairAct.Works, senderAt_works,
    receiverAt_works]

/-- An alive message that comes while the receiver waits for the final ACK fails it. -/
theorem a_late_alive_message_fails_the_receiver :
    ¬∀ P s, Reachable (losslessSystem P) s → Unharmed s := by
  intro h
  have hend : (Pair.losslessRun {} aliveAfterAnswer newPair).map (fun t => t.receiver.ctx.state) =
      some .Failed := by decide +kernel
  obtain ⟨t, hrun, hfailed⟩ := Option.map_eq_some_iff.mp hend
  exact (h {} t (Pair.losslessRun_reachable aliveAfterAnswer_works
    (Reachable.init init_newPair) hrun)).receiver hfailed

end net_ib.recovery
