-- What a stage of the port recovery can do, for the sender and for the receiver:
-- the cases are said once, so that every law about the protocol is a case
-- analysis over them. The inputs that end a stage with an error come last.
import MrcPlugin.Recovery

namespace net_ib.recovery

open p2p

/-! ## What a stage meets -/

/-- The poll gives a successful completion. -/
def StageEnv.Polls (env : StageEnv) (opcode : IbvWcOpcode) (imm_data : Nat) : Prop :=
  ∃ wc, env.poll = .got wc ∧ wc.success = true ∧ wc.opcode = opcode ∧ wc.imm_data = imm_data

/-- The poll fails, or gives a completion with an error. -/
def StageEnv.PollBreaks (env : StageEnv) : Prop :=
  env.poll = .fails ∨ ∃ wc, env.poll = .got wc ∧ wc.success = false

/-- A call with which a side answers fails: the QPs are not restored, or the ACK is
not posted. -/
def StageEnv.AnswerFails (env : StageEnv) (ctx : RecoveryContext) (success : Bool) : Prop :=
  ncclIbPortRecoveryQpsRestore env ctx success = .ok false ∨ env.postSend ≠ none

/-- The ids of the work requests that the sender posts. -/
def aliveWrs (P : RecoveryParams) (env : StageEnv) (ctx : RecoveryContext) : List Nat :=
  if i32 P.aliveMsgSequenceSize < 1 then env.stack
  else (List.range (i32 P.aliveMsgSequenceSize).toNat).map
    (fun i => (ctx.aliveMsgNextId + i) % 2 ^ 32)

/-- The two contexts are of the same comm, device and side. -/
structure SameOwner (a b : RecoveryContext) : Prop where
  resCtx : b.resCtx = a.resCtx
  devIndex : b.devIndex = a.devIndex
  isSend : b.isSend = a.isSend

theorem SameOwner.failed {a b : RecoveryContext} (h : SameOwner a b) :
    SameOwner a { b with state := .Failed } :=
  ⟨h.resCtx, h.devIndex, h.isSend⟩

/-! ## The cases of the sender -/

/-- Why a stage takes the sender to `Failed`. -/
inductive SenderFails (P : RecoveryParams) (env : StageEnv) (stage : Stage)
    (ctx : RecoveryContext) : Prop
  | qps (h : env.qpsReconfigured = false)
  | post (h : env.postSend ≠ none)
  | poll (h : env.PollBreaks)
  | attempts (h : ctx.nFailedAttempts + 1 ≥ P.attemptsMax)
  | answer (success : Bool) (h : env.AnswerFails { ctx with ackReceived := true } success)
      (hs : success = false → ctx.ackReceived = true ∧ ctx.ackPosted = false)
  | aliveTwice (hs : ctx.state = .AliveMessages) (h : ctx.aliveMsgCompleted = true)
  | aliveOther (opcode : IbvWcOpcode) (imm_data : Nat) (hstage : stage = .alive)
      (hs : ctx.state = .AliveMessages) (hp : ctx.aliveMsgPosted = true)
      (h : env.Polls opcode imm_data) (hne : opcode ≠ .IBV_WC_SEND)
  | ackOther (opcode : IbvWcOpcode) (imm_data : Nat) (hs : ctx.state = .Ack)
      (hr : ctx.ackReceived = false) (h : env.Polls opcode imm_data)
      (hne : opcode = .IBV_WC_RECV → imm_data ≠ NCCL_IB_RESILIENCY_PORT_RECOVERY_ACK_MSG_ID)
  | finalOther (opcode : IbvWcOpcode) (imm_data : Nat) (hstage : stage = .final)
      (hc : ctx.ackCompleted = false) (h : env.Polls opcode imm_data) (hne : opcode ≠ .IBV_WC_SEND)
  | finalTwice (hstage : stage = .final) (h : ctx.ackCompleted = true)

/-- What a stage can do on the sender's side: the context after it, the next stage
and the effects. -/
inductive SenderDoes (P : RecoveryParams) (env : StageEnv) :
    Stage → RecoveryContext → RecoveryContext → Stage → List Effect → Prop
  | rest {stage ctx next} (hnext : next = .final → ctx.state = .Ack ∧
      ctx.ackReceived = true ∧ ctx.ackPosted = true) : SenderDoes P env stage ctx ctx next []
  | starts {ctx} (hs : ctx.state = .Init) :
      SenderDoes P env .start ctx { ctx with timeLastMsg := 0, state := .AliveMessages } .alive []
  | posts {ctx} (hs : ctx.state = .AliveMessages) (hp : ctx.aliveMsgPosted = false)
      (hn : i32 P.aliveMsgSequenceSize ≤ 10) :
      SenderDoes P env .alive ctx
        { ctx with
          aliveMsgNextId := (ctx.aliveMsgNextId + (i32 P.aliveMsgSequenceSize).toNat) % 2 ^ 32
          timeLastMsg := env.nowMsg
          aliveMsgPosted := true } .ack ((aliveWrs P env ctx).map .aliveMessage)
  | batchDone {ctx} (hs : ctx.state = .AliveMessages) (hp : ctx.aliveMsgPosted = true)
      (h : ctx.aliveMsgCompleted = true ∨ ∃ imm_data, env.Polls .IBV_WC_SEND imm_data) :
      SenderDoes P env .alive ctx { ctx with aliveMsgCompleted := true, state := .Ack } .ack []
  | goesBack {ctx} (hs : ctx.state = .Ack) (hr : ctx.ackReceived = false)
      (hpoll : env.poll = .empty) (hleft : ctx.nFailedAttempts + 1 < P.attemptsMax) :
      SenderDoes P env .ack ctx
        { ctx with
          nFailedAttempts := ctx.nFailedAttempts + 1
          aliveMsgPosted := false
          aliveMsgCompleted := false
          state := .AliveMessages } .finish []
  | hears {ctx} (hs : ctx.state = .Ack) (hr : ctx.ackReceived = false) (hp : ctx.ackPosted = true)
      (h : env.Polls .IBV_WC_RECV NCCL_IB_RESILIENCY_PORT_RECOVERY_ACK_MSG_ID) :
      SenderDoes P env .ack ctx { ctx with ackReceived := true } .final []
  | answers {ctx} (hs : ctx.state = .Ack) (hr : ctx.ackReceived = false)
      (hp : ctx.ackPosted = false)
      (h : env.Polls .IBV_WC_RECV NCCL_IB_RESILIENCY_PORT_RECOVERY_ACK_MSG_ID) :
      SenderDoes P env .ack ctx { ctx with ackReceived := true, ackPosted := true } .final
        [.restored, .ack]
  | finishes {ctx imm_data} (hs : ctx.state = .Ack) (hr : ctx.ackReceived = true)
      (h : env.Polls .IBV_WC_SEND imm_data) :
      SenderDoes P env .final ctx { ctx with ackCompleted := true, state := .Success } .finish []
  | fails {stage ctx ctx' next effects} (why : SenderFails P env stage ctx) (hnext : next ≠ .final)
      (hs : ctx'.state = .Failed) (owner : SameOwner ctx ctx')
      (hr : ctx'.ackReceived = true → ctx.ackReceived = true ∨
        env.Polls .IBV_WC_RECV NCCL_IB_RESILIENCY_PORT_RECOVERY_ACK_MSG_ID)
      (heff : ∀ e ∈ effects, e = .restored ∨ ctx.state = .AliveMessages ∧
        ctx.aliveMsgPosted = false ∧ i32 P.aliveMsgSequenceSize ≤ 10 ∧
        ∃ id ∈ aliveWrs P env ctx, e = .aliveMessage id) :
      SenderDoes P env stage ctx ctx' next effects

/-! ## The cases of the receiver -/

/-- Why a stage takes the receiver to `Failed`. -/
inductive ReceiverFails (P : RecoveryParams) (env : StageEnv) (stage : Stage)
    (ctx : RecoveryContext) : Prop
  | qps (h : env.qpsReconfigured = false)
  | recvWr (h : env.postRecv = false ∨ env.postRecvs = false)
  | poll (h : env.PollBreaks)
  | drain (h : env.drain = false)
  | attempts (h : ctx.nFailedAttempts + 1 ≥ P.attemptsMax)
  | answer (h : env.AnswerFails ctx true)
  | aliveOther (opcode : IbvWcOpcode) (imm_data : Nat) (hs : ctx.state = .AliveMessages)
      (h : env.Polls opcode imm_data) (hne : opcode ≠ .IBV_WC_RECV)
      (ha : ctx.ackPosted = true → opcode ≠ .IBV_WC_SEND)
  | ackOther (opcode : IbvWcOpcode) (imm_data : Nat) (hstage : stage = .ack)
      (hs : ctx.state = .Ack) (h : env.Polls opcode imm_data)
      (hne : opcode = .IBV_WC_RECV → imm_data ≠ NCCL_IB_RESILIENCY_PORT_RECOVERY_ACK_MSG_ID)

/-- What a stage can do on the receiver's side. -/
inductive ReceiverDoes (P : RecoveryParams) (env : StageEnv) :
    Stage → RecoveryContext → RecoveryContext → Stage → List Effect → Prop
  | rest {stage ctx next} (hnext : next ≠ .final) : ReceiverDoes P env stage ctx ctx next []
  | starts {ctx} (hs : ctx.state = .Init) :
      ReceiverDoes P env .start ctx { ctx with state := .AliveMessages } .alive []
  | waits {ctx} (n : Int) (time : Nat) (hs : ctx.state = .AliveMessages)
      (ha : ctx.ackPosted = false) :
      ReceiverDoes P env .alive ctx { ctx with nFailedAttempts := n, timeLastMsg := time } .ack []
  | takes {ctx} (imm_data : Nat) (n : Int) (time : Nat) (hs : ctx.state = .AliveMessages)
      (ha : ctx.ackPosted = false) (h : env.Polls .IBV_WC_RECV imm_data) :
      ReceiverDoes P env .alive ctx
        { takeAliveMessage env ctx imm_data with nFailedAttempts := n, timeLastMsg := time } .ack []
  | answers {ctx} (ctx1 : RecoveryContext) (hs : ctx.state = .AliveMessages)
      (ha : ctx.ackPosted = false)
      (h1 : ctx1 = ctx ∨ ∃ imm_data, env.Polls .IBV_WC_RECV imm_data ∧
        ctx1 = takeAliveMessage env ctx imm_data) :
      ReceiverDoes P env .alive ctx { ctx1 with ackPosted := true } .ack
        [.drained, .restored, .ack]
  | ackDone {ctx} (hs : ctx.state = .AliveMessages) (ha : ctx.ackPosted = true)
      (h : ctx.ackCompleted = true ∨ ∃ imm_data, env.Polls .IBV_WC_SEND imm_data) :
      ReceiverDoes P env .alive ctx { ctx with ackCompleted := true, state := .Ack } .ack []
  | acked {ctx} (hs : ctx.state = .Ack) (h : ctx.ackReceived = true ∨
      env.Polls .IBV_WC_RECV NCCL_IB_RESILIENCY_PORT_RECOVERY_ACK_MSG_ID) :
      ReceiverDoes P env .ack ctx { ctx with ackReceived := true, state := .Success } .finish []
  | goesBack {ctx} (hs : ctx.state = .Ack) (hr : ctx.ackReceived = false)
      (hleft : ctx.nFailedAttempts + 1 < P.attemptsMax) :
      ReceiverDoes P env .ack ctx
        { ctx with
          nFailedAttempts := ctx.nFailedAttempts + 1
          ackPosted := false
          ackCompleted := false
          nInOrderMsgsReceived := 0
          state := .AliveMessages } .finish [.drained]
  | fails {stage ctx ctx' next effects} (why : ReceiverFails P env stage ctx) (hnext : next ≠ .final)
      (hs : ctx'.state = .Failed) (owner : SameOwner ctx ctx')
      (hr : ctx'.ackReceived = ctx.ackReceived)
      (heff : ∀ e ∈ effects, e = .restored ∨ e = .drained) :
      ReceiverDoes P env stage ctx ctx' next effects

/-! ## Polls and answers -/

theorem readQpNum_ok {qp : RecoveryQp} (h : qp.qp = true) : readQpNum qp = .ok () := by
  simp [readQpNum, h]

theorem readQpNum_null {qp : RecoveryQp} (h : qp.qp = false) :
    readQpNum qp = .error .badPointer := by
  simp [readQpNum, h, logsInfo, ncclDebugLevel, NCCL_LOG_TRACE, NCCL_LOG_INFO]

variable {P : RecoveryParams} {env : StageEnv} {ctx ctx' : RecoveryContext} {stage next : Stage}
  {effects : List Effect}

theorem pollCq_cases (env : StageEnv) (ctx : RecoveryContext) :
    (env.PollBreaks ∧ ncclIbPortRecoveryPollCq env ctx = (ctx, false)) ∨
    (env.poll = .empty ∧ ncclIbPortRecoveryPollCq env ctx = (ctx, true)) ∨
    (∃ wc, env.poll = .got wc ∧ wc.success = true ∧ ncclIbPortRecoveryPollCq env ctx =
      if ctx.isSend then ncclIbPortRecoveryHandleCompletionSender ctx wc
      else ncclIbPortRecoveryHandleCompletionReceiver env ctx wc) := by
  unfold ncclIbPortRecoveryPollCq
  cases hpoll : env.poll with
  | fails => exact .inl ⟨.inl hpoll, rfl⟩
  | empty => exact .inr (.inl ⟨rfl, rfl⟩)
  | got wc =>
    cases hok : wc.success with
    | false => exact .inl ⟨.inr ⟨wc, hpoll, hok⟩, by simp [hok]⟩
    | true => exact .inr (.inr ⟨wc, rfl, hok, by simp [hok]⟩)

theorem restoreAndPostAck_cases {success : Bool} {out : PostOut}
    (h : restoreAndPostAck env ctx success = .ok out) :
    (success = true ∧ out = ⟨{ ctx with ackPosted := true }, true, [.restored, .ack]⟩) ∨
    (out.success = false ∧ env.AnswerFails ctx success ∧ out.ctx = ctx ∧
      ∀ e ∈ out.effects, e = .restored) := by
  unfold restoreAndPostAck at h
  split at h
  · cases h
  · rename_i hrestore
    cases h
    exact .inr ⟨rfl, .inl hrestore, rfl, by simp⟩
  · rename_i hrestore
    unfold ncclIbPortRecoveryPostAck at h
    cases hpost : env.postSend with
    | none =>
      rw [hpost] at h
      cases h
      refine .inl ⟨?_, rfl⟩
      unfold ncclIbPortRecoveryQpsRestore at hrestore
      repeat' split at hrestore
      all_goals simp_all
    | some n =>
      rw [hpost] at h
      cases h
      exact .inr ⟨rfl, .inr (by simp [hpost]), rfl, by simp⟩

/-! ## The polls, state by state -/

theorem pollCq_sender_alive (P : RecoveryParams) (env : StageEnv) (hside : ctx.isSend = true)
    (hs : ctx.state = .AliveMessages) (hp : ctx.aliveMsgPosted = true) :
    (env.poll = .empty ∧ ncclIbPortRecoveryPollCq env ctx = (ctx, true)) ∨
    (∃ imm_data, env.Polls .IBV_WC_SEND imm_data ∧
      ncclIbPortRecoveryPollCq env ctx = ({ ctx with aliveMsgCompleted := true }, true)) ∨
    (SenderFails P env .alive ctx ∧ ncclIbPortRecoveryPollCq env ctx = (ctx, false)) := by
  obtain ⟨hbreak, hpoll⟩ | ⟨hempty, hpoll⟩ | ⟨wc, hgot, hok, hpoll⟩ := pollCq_cases env ctx
  · exact .inr (.inr ⟨.poll hbreak, hpoll⟩)
  · exact .inl ⟨hempty, hpoll⟩
  · rw [hpoll, if_pos hside, ncclIbPortRecoveryHandleCompletionSender, hs]
    by_cases hop : wc.opcode = .IBV_WC_SEND
    · cases hc : ctx.aliveMsgCompleted with
      | true => exact .inr (.inr ⟨.aliveTwice hs hc, by simp [hop]⟩)
      | false => exact .inr (.inl ⟨_, ⟨wc, hgot, hok, hop, rfl⟩, by simp [hop]⟩)
    · exact .inr (.inr ⟨.aliveOther _ _ rfl hs hp ⟨wc, hgot, hok, rfl, rfl⟩ hop, by simp [hop]⟩)

theorem pollCq_sender_ack (P : RecoveryParams) (env : StageEnv) (hside : ctx.isSend = true)
    (hs : ctx.state = .Ack) (hr : ctx.ackReceived = false) :
    (env.poll = .empty ∧ ncclIbPortRecoveryPollCq env ctx = (ctx, true)) ∨
    (env.Polls .IBV_WC_RECV NCCL_IB_RESILIENCY_PORT_RECOVERY_ACK_MSG_ID ∧
      ncclIbPortRecoveryPollCq env ctx = ({ ctx with ackReceived := true }, true)) ∨
    (SenderFails P env .ack ctx ∧ ncclIbPortRecoveryPollCq env ctx = (ctx, false)) := by
  obtain ⟨hbreak, hpoll⟩ | ⟨hempty, hpoll⟩ | ⟨wc, hgot, hok, hpoll⟩ := pollCq_cases env ctx
  · exact .inr (.inr ⟨.poll hbreak, hpoll⟩)
  · exact .inl ⟨hempty, hpoll⟩
  · rw [hpoll, if_pos hside, ncclIbPortRecoveryHandleCompletionSender, hs]
    by_cases hack : wc.opcode = .IBV_WC_RECV ∧
        wc.imm_data = NCCL_IB_RESILIENCY_PORT_RECOVERY_ACK_MSG_ID
    · exact .inr (.inl ⟨⟨wc, hgot, hok, hack.1, hack.2⟩, by simp [hr, hack.1, hack.2]⟩)
    · refine .inr (.inr ⟨.ackOther _ _ hs hr ⟨wc, hgot, hok, rfl, rfl⟩
        (fun hop himm => hack ⟨hop, himm⟩), ?_⟩)
      by_cases hop : wc.opcode = .IBV_WC_RECV
      · have himm : wc.imm_data ≠ NCCL_IB_RESILIENCY_PORT_RECOVERY_ACK_MSG_ID :=
          fun himm => hack ⟨hop, himm⟩
        simp [hr, hop, himm]
      · simp [hr, hop]

theorem pollCq_sender_final (P : RecoveryParams) (env : StageEnv) (hside : ctx.isSend = true)
    (hs : ctx.state = .Ack) (hr : ctx.ackReceived = true) (hc : ctx.ackCompleted = false) :
    (env.poll = .empty ∧ ncclIbPortRecoveryPollCq env ctx = (ctx, true)) ∨
    (∃ imm_data, env.Polls .IBV_WC_SEND imm_data ∧
      ncclIbPortRecoveryPollCq env ctx = ({ ctx with ackCompleted := true }, true)) ∨
    (SenderFails P env .final ctx ∧ ncclIbPortRecoveryPollCq env ctx = (ctx, false)) := by
  obtain ⟨hbreak, hpoll⟩ | ⟨hempty, hpoll⟩ | ⟨wc, hgot, hok, hpoll⟩ := pollCq_cases env ctx
  · exact .inr (.inr ⟨.poll hbreak, hpoll⟩)
  · exact .inl ⟨hempty, hpoll⟩
  · rw [hpoll, if_pos hside, ncclIbPortRecoveryHandleCompletionSender, hs]
    by_cases hop : wc.opcode = .IBV_WC_SEND
    · exact .inr (.inl ⟨_, ⟨wc, hgot, hok, hop, rfl⟩, by simp [hr, hop]⟩)
    · exact .inr (.inr ⟨.finalOther _ _ rfl hc ⟨wc, hgot, hok, rfl, rfl⟩ hop, by simp [hr, hop]⟩)

/-! ## The sender -/

theorem sender_start (hside : ctx.isSend = true)
    (h : contextStage P env .start ctx = .ok (ctx', next, effects)) :
    SenderDoes P env .start ctx ctx' next effects := by
  simp only [contextStage, startStage] at h
  by_cases hinit : ctx.state = .Init
  · rw [if_pos hinit] at h
    split at h
    · cases h; exact .rest (by simp)
    · rename_i ctx0 h0
      cases h
      split at h0
      · cases h0
      · split at h0
        · rename_i hq
          cases h0
          exact .fails (.qps (by simpa using hq)) (by simp) rfl ⟨rfl, rfl, rfl⟩ .inl (by simp)
        · cases h0
          exact .starts hinit
  · rw [if_neg hinit] at h
    cases h
    exact .rest (by simp)

/-- The sender polls for the completion of its batch. -/
theorem sender_alivePoll (hside : ctx.isSend = true) (hs : ctx.state = .AliveMessages)
    (hp : ctx.aliveMsgPosted = true)
    (h : ncclIbPortRecoveryProgressAliveMessages P env ctx = .ok (ctx', effects)) :
    SenderDoes P env .alive ctx ctx' .ack effects := by
  simp only [ncclIbPortRecoveryProgressAliveMessages, if_pos hside,
    ncclIbPortRecoveryProgressAliveMessagesSender, hp, Bool.not_true, Bool.false_eq_true,
    if_false] at h
  obtain ⟨-, hpoll⟩ | ⟨imm, hsend, hpoll⟩ | ⟨hfail, hpoll⟩ :=
    pollCq_sender_alive P env hside hs hp
  · simp only [hpoll, Bool.not_true, Bool.false_eq_true, if_false] at h
    by_cases hc : ctx.aliveMsgCompleted = true
    · rw [if_pos hc] at h
      have hself : ({ ctx with aliveMsgCompleted := true, state := .Ack } : RecoveryContext) =
          { ctx with state := .Ack } := by rw [← hc]
      cases h
      exact hself ▸ SenderDoes.batchDone hs hp (.inl hc)
    · rw [if_neg hc] at h
      cases h
      exact .rest (by simp)
  · simp only [hpoll, Bool.not_true, Bool.false_eq_true, if_false, if_true] at h
    cases h
    exact .batchDone hs hp (.inr ⟨imm, hsend⟩)
  · simp only [hpoll, Bool.not_false, if_true] at h
    cases h
    exact .fails hfail (by simp) rfl ⟨rfl, rfl, rfl⟩ .inl (by simp)

/-- The sender posts a batch, or waits for its time. -/
theorem sender_alivePost (hside : ctx.isSend = true) (hs : ctx.state = .AliveMessages)
    (hp : ctx.aliveMsgPosted = false)
    (h : ncclIbPortRecoveryProgressAliveMessages P env ctx = .ok (ctx', effects)) :
    SenderDoes P env .alive ctx ctx' .ack effects := by
  simp only [ncclIbPortRecoveryProgressAliveMessages, hside, if_true,
    ncclIbPortRecoveryProgressAliveMessagesSender, hp, Bool.not_false] at h
  by_cases hwait : elapsed env.now ctx.timeLastMsg < nanos P.aliveMsgBatchInterval
  · rw [if_pos hwait] at h
    cases h
    exact .rest (by simp)
  · rw [if_neg hwait] at h
    simp only [ncclIbPortRecoveryPostAliveMessages] at h
    by_cases hbig : i32 P.aliveMsgSequenceSize >
        NCCL_IB_RESILIENCY_PORT_RECOVERY_ALIVE_MSG_BATCH_SIZE_MAX
    · rw [if_pos hbig] at h
      cases h
    · rw [if_neg hbig] at h
      have hn : i32 P.aliveMsgSequenceSize ≤ 10 := by
        unfold NCCL_IB_RESILIENCY_PORT_RECOVERY_ALIVE_MSG_BATCH_SIZE_MAX at hbig
        omega
      cases hpost : env.postSend with
      | none =>
        rw [hpost] at h
        cases h
        exact .posts hs hp hn
      | some taken =>
        rw [hpost] at h
        cases h
        refine .fails (.post (by simp [hpost])) (by simp) rfl ⟨rfl, rfl, rfl⟩ .inl ?_
        intro e he
        obtain ⟨id, hid, rfl⟩ := List.mem_map.mp he
        exact .inr ⟨hs, hp, hn, id, List.mem_of_mem_take hid, rfl⟩

theorem setAckReceived (h : ctx.ackReceived = true) : { ctx with ackReceived := true } = ctx := by
  rw [← h]

/-- The sender answers the ACK that it has received. -/
theorem sender_answer (hs : ctx.state = .Ack) (hp : ctx.ackPosted = false) {success : Bool}
    (hsucc : success = false → ctx.ackReceived = true)
    (hr : success = true → ctx.ackReceived = false ∧
      env.Polls .IBV_WC_RECV NCCL_IB_RESILIENCY_PORT_RECOVERY_ACK_MSG_ID)
    {post : PostOut}
    (hpost : restoreAndPostAck env { ctx with ackReceived := true } success = .ok post) :
    SenderDoes P env .ack ctx
      (if post.success then post.ctx else { post.ctx with state := .Failed })
      (if post.success then .final else .finish) post.effects := by
  obtain ⟨rfl, rfl⟩ | ⟨hfalse, hfail, hctx, heff⟩ := restoreAndPostAck_cases hpost
  · exact .answers hs (hr rfl).1 hp (hr rfl).2
  · rw [hfalse, hctx]
    refine .fails (.answer success hfail (fun h => ⟨hsucc h, hp⟩)) (by simp) rfl ⟨rfl, rfl, rfl⟩ ?_
      (fun e he => .inl (heff e he))
    intro _
    cases success with
    | false => exact .inl (hsucc rfl)
    | true => exact .inr (hr rfl).2

/-- The part of the ACK stage with an ACK, which this stage or an earlier one has
received. -/
theorem sender_ackPost (hs : ctx.state = .Ack) {success : Bool}
    (hsucc : success = false → ctx.ackReceived = true)
    (hr : success = true → ctx.ackReceived = false ∧
      env.Polls .IBV_WC_RECV NCCL_IB_RESILIENCY_PORT_RECOVERY_ACK_MSG_ID)
    {result : Option ProgressResult}
    (h : ackSenderPost env { ctx with ackReceived := true } success = .ok (ctx', result, effects)) :
    (result = none ∧ SenderDoes P env .ack ctx ctx' .final effects) ∨
    (∃ r, result = some r ∧ SenderDoes P env .ack ctx (ackSwitch ctx' r) .finish effects) := by
  unfold ackSenderPost at h
  by_cases hp : ctx.ackPosted = true
  · rw [if_neg (by simp [hp])] at h
    cases h
    refine .inl ⟨rfl, ?_⟩
    cases success with
    | true => exact .hears hs (hr rfl).1 hp (hr rfl).2
    | false =>
      rw [setAckReceived (hsucc rfl)]
      exact .rest (fun _ => ⟨hs, hsucc rfl, hp⟩)
  · have hp' : ctx.ackPosted = false := by simpa using hp
    rw [if_pos (by simp [hp'])] at h
    cases hpost : restoreAndPostAck env { ctx with ackReceived := true } success with
    | error res => rw [hpost] at h; cases h
    | ok post =>
      have hdoes := sender_answer (P := P) hs hp' hsucc hr hpost
      rw [hpost] at h
      cases h
      cases hok : post.success with
      | true => exact .inl ⟨by simp, by simpa [hok] using hdoes⟩
      | false => exact .inr ⟨.Failed, by simp, by simpa [hok, ackSwitch] using hdoes⟩

/-- The sender waits for the ACK of the receiver. -/
theorem sender_ackTimeout (hs : ctx.state = .Ack) (hr : ctx.ackReceived = false)
    (hempty : env.poll = .empty) :
    SenderDoes P env .ack ctx
      (ackSwitch (ackSenderTimeout P env ctx).1 (ackSenderTimeout P env ctx).2) .finish [] := by
  unfold ackSenderTimeout
  by_cases htime : elapsed env.now ctx.timeLastMsg > nanos P.ackTimeout
  · rw [if_pos htime]
    by_cases hlast : ctx.nFailedAttempts + 1 ≥ P.attemptsMax
    · simp only [if_pos hlast]
      exact .fails (.attempts hlast) (by simp) rfl ⟨rfl, rfl, rfl⟩ .inl (by simp)
    · simp only [if_neg hlast]
      exact .goesBack hs hr hempty (by omega)
  · rw [if_neg htime]
    exact .rest (by simp)

theorem sender_ack (hside : ctx.isSend = true) (hs : ctx.state = .Ack)
    (h : contextStage P env .ack ctx = .ok (ctx', next, effects)) :
    SenderDoes P env .ack ctx ctx' next effects := by
  simp only [contextStage, if_pos hs, ackStage, if_pos hside] at h
  -- What the first part of the function gives.
  cases hrecv : ackSenderReceive P env ctx with
  | error res => rw [hrecv] at h; cases h
  | ok out =>
    obtain ⟨ctx1, result, effects1⟩ := out
    rw [hrecv] at h
    unfold ackSenderReceive at hrecv
    by_cases hr : ctx.ackReceived = true
    · rw [if_neg (by simp [hr]), ← setAckReceived hr] at hrecv
      obtain ⟨rfl, hdoes⟩ | ⟨r, rfl, hdoes⟩ := sender_ackPost (P := P) hs (fun _ => hr)
        (fun hf => by cases hf) hrecv <;> cases h <;> exact hdoes
    · have hr' : ctx.ackReceived = false := by simpa using hr
      rw [if_pos (by simp [hr'])] at hrecv
      obtain ⟨hempty, hpoll⟩ | ⟨hack, hpoll⟩ | ⟨hfail, hpoll⟩ :=
        pollCq_sender_ack P env hside hs hr'
      · simp only [hpoll, Bool.not_true, Bool.false_eq_true, if_false] at hrecv
        rw [if_pos (by simp [hr'])] at hrecv
        cases hrecv
        cases h
        exact sender_ackTimeout hs hr' hempty
      · simp only [hpoll, Bool.not_true, Bool.false_eq_true, if_false] at hrecv
        obtain ⟨rfl, hdoes⟩ | ⟨r, rfl, hdoes⟩ := sender_ackPost (P := P) hs (fun hf => by cases hf)
          (fun _ => ⟨hr', hack⟩) hrecv <;> cases h <;> exact hdoes
      · simp only [hpoll, Bool.not_false, if_true] at hrecv
        cases hrecv
        cases h
        exact .fails hfail (by simp) rfl ⟨rfl, rfl, rfl⟩ .inl (by simp)

theorem sender_final (hside : ctx.isSend = true) (hs : ctx.state = .Ack)
    (hr : ctx.ackReceived = true) :
    SenderDoes P env .final ctx (finalStage env ctx) .finish [] := by
  unfold finalStage ackSenderFinish
  by_cases hc : ctx.ackCompleted = true
  · rw [if_neg (by simp [hc])]
    exact .fails (.finalTwice rfl hc) (by simp) rfl ⟨rfl, rfl, rfl⟩ .inl (by simp)
  · rw [if_pos (by simp [hc])]
    obtain ⟨-, hpoll⟩ | ⟨imm, hsend, hpoll⟩ | ⟨hfail, hpoll⟩ :=
      pollCq_sender_final P env hside hs hr (by simpa using hc)
    · simp only [hpoll, Bool.not_true, Bool.false_eq_true, if_false, if_neg hc]
      exact .rest (by simp)
    · simp only [hpoll, Bool.not_true, Bool.false_eq_true, if_false, if_true]
      exact .finishes hs hr hsend
    · simp only [hpoll, Bool.not_false, if_true]
      exact .fails hfail (by simp) rfl ⟨rfl, rfl, rfl⟩ .inl (by simp)

/-- Every stage of the sender is one of the cases. -/
theorem sender_does (hside : ctx.isSend = true)
    (hfinal : stage = .final → ctx.state = .Ack ∧ ctx.ackReceived = true)
    (h : contextStage P env stage ctx = .ok (ctx', next, effects)) :
    SenderDoes P env stage ctx ctx' next effects := by
  cases stage with
  | start => exact sender_start hside h
  | alive =>
    by_cases hs : ctx.state = .AliveMessages
    · simp only [contextStage, if_pos hs] at h
      cases halive : ncclIbPortRecoveryProgressAliveMessages P env ctx with
      | error res => rw [halive] at h; cases h
      | ok out =>
        rw [halive] at h
        cases h
        cases hp : ctx.aliveMsgPosted with
        | true => exact sender_alivePoll hside hs hp halive
        | false => exact sender_alivePost hside hs hp halive
    · simp only [contextStage, if_neg hs] at h
      cases h
      exact .rest (by simp)
  | ack =>
    by_cases hs : ctx.state = .Ack
    · exact sender_ack hside hs h
    · simp only [contextStage, if_neg hs] at h
      cases h
      exact .rest (by simp)
  | final =>
    cases h
    exact sender_final hside (hfinal rfl).1 (hfinal rfl).2
  | finish =>
    cases h
    exact .rest (by simp)

/-! ## The receiver -/

theorem takeAliveMessage_owner (env : StageEnv) (ctx : RecoveryContext) (imm_data : Nat) :
    SameOwner ctx (takeAliveMessage env ctx imm_data) := by
  unfold takeAliveMessage
  split <;> exact ⟨rfl, rfl, rfl⟩

@[simp]
theorem takeAliveMessage_ackReceived (env : StageEnv) (ctx : RecoveryContext) (imm_data : Nat) :
    (takeAliveMessage env ctx imm_data).ackReceived = ctx.ackReceived := by
  unfold takeAliveMessage
  split <;> rfl

theorem pollCq_receiver_beforeAck (P : RecoveryParams) (env : StageEnv) (hside : ctx.isSend = false)
    (hs : ctx.state = .AliveMessages) (ha : ctx.ackPosted = false) :
    (env.poll = .empty ∧ ncclIbPortRecoveryPollCq env ctx = (ctx, true)) ∨
    (∃ imm_data, env.Polls .IBV_WC_RECV imm_data ∧
      ncclIbPortRecoveryPollCq env ctx = (takeAliveMessage env ctx imm_data, true)) ∨
    (ReceiverFails P env .alive ctx ∧ ∃ ctx1, ncclIbPortRecoveryPollCq env ctx = (ctx1, false) ∧
      SameOwner ctx ctx1 ∧ ctx1.ackReceived = ctx.ackReceived) := by
  obtain ⟨hbreak, hpoll⟩ | ⟨hempty, hpoll⟩ | ⟨wc, hgot, hok, hpoll⟩ := pollCq_cases env ctx
  · exact .inr (.inr ⟨.poll hbreak, ctx, hpoll, ⟨rfl, rfl, rfl⟩, rfl⟩)
  · exact .inl ⟨hempty, hpoll⟩
  · rw [hpoll, if_neg (by simp [hside]), ncclIbPortRecoveryHandleCompletionReceiver, hs]
    by_cases hop : wc.opcode = .IBV_WC_RECV
    · cases hpost : env.postRecv with
      | true =>
        exact .inr (.inl ⟨wc.imm_data, ⟨wc, hgot, hok, hop, rfl⟩, by simp [ha, hop]⟩)
      | false =>
        exact .inr (.inr ⟨.recvWr (.inl hpost), _, by simp [ha, hop],
          takeAliveMessage_owner env ctx wc.imm_data, by simp⟩)
    · exact .inr (.inr ⟨.aliveOther _ _ hs ⟨wc, hgot, hok, rfl, rfl⟩ hop
        (fun h => by simp [ha] at h), ctx, by simp [ha, hop], ⟨rfl, rfl, rfl⟩, rfl⟩)

theorem pollCq_receiver_afterAck (P : RecoveryParams) (env : StageEnv) (hside : ctx.isSend = false)
    (hs : ctx.state = .AliveMessages) (ha : ctx.ackPosted = true) :
    ((env.poll = .empty ∨ env.postRecv = true ∧ ∃ imm_data, env.Polls .IBV_WC_RECV imm_data) ∧
      ncclIbPortRecoveryPollCq env ctx = (ctx, true)) ∨
    (∃ imm_data, env.Polls .IBV_WC_SEND imm_data ∧
      ncclIbPortRecoveryPollCq env ctx = ({ ctx with ackCompleted := true }, true)) ∨
    (ReceiverFails P env .alive ctx ∧ ncclIbPortRecoveryPollCq env ctx = (ctx, false)) := by
  obtain ⟨hbreak, hpoll⟩ | ⟨hempty, hpoll⟩ | ⟨wc, hgot, hok, hpoll⟩ := pollCq_cases env ctx
  · exact .inr (.inr ⟨.poll hbreak, hpoll⟩)
  · exact .inl ⟨.inl hempty, hpoll⟩
  · rw [hpoll, if_neg (by simp [hside]), ncclIbPortRecoveryHandleCompletionReceiver, hs]
    by_cases hrecv : wc.opcode = .IBV_WC_RECV
    · cases hpost : env.postRecv with
      | true => exact .inl ⟨.inr ⟨rfl, _, wc, hgot, hok, hrecv, rfl⟩, by simp [ha, hrecv]⟩
      | false => exact .inr (.inr ⟨.recvWr (.inl hpost), by simp [ha, hrecv]⟩)
    · by_cases hsend : wc.opcode = .IBV_WC_SEND
      · exact .inr (.inl ⟨_, ⟨wc, hgot, hok, hsend, rfl⟩, by simp [ha, hsend]⟩)
      · exact .inr (.inr ⟨.aliveOther _ _ hs ⟨wc, hgot, hok, rfl, rfl⟩ hrecv (fun _ => hsend),
          by simp [ha, hrecv, hsend]⟩)

theorem pollCq_receiver_ack (P : RecoveryParams) (env : StageEnv) (hside : ctx.isSend = false)
    (hs : ctx.state = .Ack) :
    (env.poll = .empty ∧ ncclIbPortRecoveryPollCq env ctx = (ctx, true)) ∨
    (env.Polls .IBV_WC_RECV NCCL_IB_RESILIENCY_PORT_RECOVERY_ACK_MSG_ID ∧
      ncclIbPortRecoveryPollCq env ctx = ({ ctx with ackReceived := true }, true)) ∨
    (ReceiverFails P env .ack ctx ∧ ncclIbPortRecoveryPollCq env ctx = (ctx, false)) := by
  obtain ⟨hbreak, hpoll⟩ | ⟨hempty, hpoll⟩ | ⟨wc, hgot, hok, hpoll⟩ := pollCq_cases env ctx
  · exact .inr (.inr ⟨.poll hbreak, hpoll⟩)
  · exact .inl ⟨hempty, hpoll⟩
  · rw [hpoll, if_neg (by simp [hside]), ncclIbPortRecoveryHandleCompletionReceiver, hs]
    by_cases hack : wc.opcode = .IBV_WC_RECV ∧
        wc.imm_data = NCCL_IB_RESILIENCY_PORT_RECOVERY_ACK_MSG_ID
    · exact .inr (.inl ⟨⟨wc, hgot, hok, hack.1, hack.2⟩, by simp [hack.1, hack.2]⟩)
    · refine .inr (.inr ⟨.ackOther _ _ rfl hs ⟨wc, hgot, hok, rfl, rfl⟩
        (fun hop himm => hack ⟨hop, himm⟩), ?_⟩)
      by_cases hop : wc.opcode = .IBV_WC_RECV
      · have himm : wc.imm_data ≠ NCCL_IB_RESILIENCY_PORT_RECOVERY_ACK_MSG_ID :=
          fun himm => hack ⟨hop, himm⟩
        simp [hop, himm]
      · simp [hop]

theorem receiver_start (hside : ctx.isSend = false)
    (h : contextStage P env .start ctx = .ok (ctx', next, effects)) :
    ReceiverDoes P env .start ctx ctx' next effects := by
  simp only [contextStage, startStage] at h
  by_cases hinit : ctx.state = .Init
  · rw [if_pos hinit] at h
    split at h
    · cases h; exact .rest (by simp)
    · rename_i ctx0 h0
      cases h
      split at h0
      · cases h0
      · split at h0
        · rename_i hq
          cases h0
          exact .fails (.qps (by simpa using hq)) (by simp) rfl ⟨rfl, rfl, rfl⟩ rfl (by simp)
        · rw [if_neg (by simp [hside])] at h0
          cases h0
          exact .starts hinit
  · rw [if_neg hinit] at h
    cases h
    exact .rest (by simp)

/-- What the receiver does with the messages it has before its ACK. `ctx1` is the
context after the poll. -/
theorem receiver_counts {ctx1 : RecoveryContext} (hs : ctx.state = .AliveMessages)
    (ha : ctx.ackPosted = false) (hpoll : ncclIbPortRecoveryPollCq env ctx = (ctx1, true))
    (h1 : ctx1 = ctx ∨ ∃ imm_data, env.Polls .IBV_WC_RECV imm_data ∧
      ctx1 = takeAliveMessage env ctx imm_data)
    {out : StageOut} (h : aliveBeforeAck P env ctx = .ok out) :
    (out.result = .InProgress ∧ ReceiverDoes P env .alive ctx out.ctx .ack out.effects) ∨
    (out.result = .Failed ∧
      ReceiverDoes P env .alive ctx { out.ctx with state := .Failed } .ack out.effects) := by
  have howner : SameOwner ctx ctx1 := by
    obtain rfl | ⟨imm, -, rfl⟩ := h1
    · exact ⟨rfl, rfl, rfl⟩
    · exact takeAliveMessage_owner env ctx imm
  have hack : ctx1.ackReceived = ctx.ackReceived := by
    obtain rfl | ⟨imm, -, rfl⟩ := h1 <;> simp
  have hattempts : ctx1.nFailedAttempts = ctx.nFailedAttempts := by
    obtain rfl | ⟨imm, -, rfl⟩ := h1
    · rfl
    · unfold takeAliveMessage
      split <;> rfl
  -- The context with other counts is a wait or the taking of a message.
  have hstay : ∀ n time, ReceiverDoes P env .alive ctx
      { ctx1 with nFailedAttempts := n, timeLastMsg := time } .ack [] := by
    intro n time
    obtain rfl | ⟨imm, hrecv, rfl⟩ := h1
    · exact .waits n time hs ha
    · exact .takes imm n time hs ha hrecv
  unfold aliveBeforeAck at h
  simp only [hpoll, Bool.not_true, Bool.false_eq_true, if_false] at h
  by_cases henough : ctx1.nInOrderMsgsReceived > P.aliveMsgSequenceSize
  · rw [if_pos henough] at h
    by_cases hdrain : env.drain = true
    · rw [if_neg (by simp [hdrain])] at h
      cases hpost : restoreAndPostAck env ctx1 true with
      | error res => rw [hpost] at h; cases h
      | ok post =>
        rw [hpost] at h
        cases h
        obtain ⟨-, rfl⟩ | ⟨hfalse, hfail, hctx, heff⟩ := restoreAndPostAck_cases hpost
        · exact .inl ⟨rfl, .answers ctx1 hs ha h1⟩
        · refine .inr ⟨by simp [hfalse], ?_⟩
          rw [hctx]
          have hfail' : env.AnswerFails ctx true := by
            unfold StageEnv.AnswerFails ncclIbPortRecoveryQpsRestore at hfail ⊢
            rwa [howner.devIndex] at hfail
          refine .fails (.answer hfail') (by simp) rfl howner.failed hack ?_
          intro e he
          rcases List.mem_cons.mp he with rfl | he
          · exact .inr rfl
          · exact .inl (heff e he)
    · rw [if_pos (by simpa using hdrain)] at h
      cases h
      exact .inr ⟨rfl, .fails (.drain (by simpa using hdrain)) (by simp) rfl howner.failed hack (by simp)⟩
  · rw [if_neg henough] at h
    by_cases htime : elapsed env.now ctx1.timeLastMsg > nanos P.aliveMsgTimeout
    · rw [if_pos htime] at h
      by_cases hlast : ctx1.nFailedAttempts + 1 ≥ P.attemptsMax
      · simp only [if_pos hlast] at h
        cases h
        exact .inr ⟨rfl, .fails (.attempts (hattempts ▸ hlast)) (by simp) rfl
          ⟨howner.resCtx, howner.devIndex, howner.isSend⟩ hack (by simp)⟩
      · simp only [if_neg hlast] at h
        cases h
        exact .inl ⟨rfl, hstay _ _⟩
    · rw [if_neg htime] at h
      cases h
      exact .inl ⟨rfl, hstay ctx1.nFailedAttempts ctx1.timeLastMsg⟩

theorem receiver_alive (hside : ctx.isSend = false) (hs : ctx.state = .AliveMessages)
    (h : ncclIbPortRecoveryProgressAliveMessages P env ctx = .ok (ctx', effects)) :
    ReceiverDoes P env .alive ctx ctx' .ack effects := by
  simp only [ncclIbPortRecoveryProgressAliveMessages, if_neg (by simp [hside] : ¬ctx.isSend = true),
    ncclIbPortRecoveryProgressAliveMessagesReceiver] at h
  by_cases ha : ctx.ackPosted = true
  · rw [if_neg (by simp [ha])] at h
    unfold aliveAfterAck at h
    obtain ⟨-, hpoll⟩ | ⟨imm, hsend, hpoll⟩ | ⟨hfail, hpoll⟩ :=
      pollCq_receiver_afterAck P env hside hs ha
    · simp only [hpoll, Bool.not_true, Bool.false_eq_true, if_false] at h
      by_cases hc : ctx.ackCompleted = true
      · rw [if_pos hc] at h
        have hself : ({ ctx with ackCompleted := true, state := .Ack } : RecoveryContext) =
            { ctx with state := .Ack } := by rw [← hc]
        cases h
        exact hself ▸ ReceiverDoes.ackDone hs ha (.inl hc)
      · rw [if_neg hc] at h
        by_cases htime : elapsed env.now ctx.timeLastMsg > nanos P.ackTimeout
        · rw [if_pos htime] at h
          by_cases hlast : ctx.nFailedAttempts + 1 ≥ P.attemptsMax
          · simp only [if_pos hlast] at h
            cases h
            exact .fails (.attempts hlast) (by simp) rfl ⟨rfl, rfl, rfl⟩ rfl (by simp)
          · simp only [if_neg hlast] at h
            cases hposts : env.postRecvs with
            | true => simp only [hposts, if_true] at h; cases h
            | false =>
              simp only [hposts, Bool.false_eq_true, if_false] at h
              cases h
              exact .fails (.recvWr (.inr hposts)) (by simp) rfl ⟨rfl, rfl, rfl⟩ rfl (by simp)
        · rw [if_neg htime] at h
          cases h
          exact .rest (by simp)
    · simp only [hpoll, Bool.not_true, Bool.false_eq_true, if_false, if_true] at h
      cases h
      exact .ackDone hs ha (.inr ⟨imm, hsend⟩)
    · simp only [hpoll, Bool.not_false, if_true] at h
      cases h
      exact .fails hfail (by simp) rfl ⟨rfl, rfl, rfl⟩ rfl (by simp)
  · have ha' : ctx.ackPosted = false := by simpa using ha
    rw [if_pos (by simp [ha'])] at h
    cases hbefore : aliveBeforeAck P env ctx with
    | error res => rw [hbefore] at h; cases h
    | ok out =>
      rw [hbefore] at h
      have hcounts : (out.result = .InProgress ∧ ReceiverDoes P env .alive ctx out.ctx .ack
          out.effects) ∨ (out.result = .Failed ∧
          ReceiverDoes P env .alive ctx { out.ctx with state := .Failed } .ack out.effects) := by
        obtain ⟨-, hpoll⟩ | ⟨imm, hrecv, hpoll⟩ | ⟨hfail, ctx1, hpoll, howner, hack⟩ :=
          pollCq_receiver_beforeAck P env hside hs ha'
        · exact receiver_counts hs ha' hpoll (.inl rfl) hbefore
        · exact receiver_counts hs ha' hpoll (.inr ⟨imm, hrecv, rfl⟩) hbefore
        · unfold aliveBeforeAck at hbefore
          simp only [hpoll, Bool.not_false, if_true] at hbefore
          cases hbefore
          exact .inr ⟨rfl, .fails hfail (by simp) rfl howner.failed hack (by simp)⟩
      obtain ⟨hres, hdoes⟩ | ⟨hres, hdoes⟩ := hcounts <;> simp only [hres] at h <;> cases h <;>
        exact hdoes

theorem receiver_ack (hside : ctx.isSend = false) (hs : ctx.state = .Ack)
    (h : contextStage P env .ack ctx = .ok (ctx', next, effects)) :
    ReceiverDoes P env .ack ctx ctx' next effects := by
  simp only [contextStage, if_pos hs, ackStage, if_neg (by simp [hside] : ¬ctx.isSend = true),
    ncclIbPortRecoveryProgressAckReceiver] at h
  obtain ⟨-, hpoll⟩ | ⟨hack, hpoll⟩ | ⟨hfail, hpoll⟩ := pollCq_receiver_ack P env hside hs
  · simp only [hpoll, Bool.not_true, Bool.false_eq_true, if_false] at h
    by_cases hr : ctx.ackReceived = true
    · rw [if_neg (by simp [hr])] at h
      have hself : ({ ctx with ackReceived := true, state := .Success } : RecoveryContext) =
          { ctx with state := .Success } := by rw [← hr]
      cases h
      have hdoes : ReceiverDoes P env .ack ctx { ctx with ackReceived := true, state := .Success }
          .finish [] := .acked hs (.inl hr)
      rw [hself] at hdoes
      exact hdoes
    · have hr' : ctx.ackReceived = false := by simpa using hr
      rw [if_pos (by simp [hr'])] at h
      by_cases htime : elapsed env.now ctx.timeLastMsg > nanos P.ackTimeout
      · rw [if_pos htime] at h
        by_cases hlast : ctx.nFailedAttempts + 1 ≥ P.attemptsMax
        · simp only [if_pos hlast] at h
          cases h
          exact .fails (.attempts hlast) (by simp) rfl ⟨rfl, rfl, rfl⟩ rfl (by simp)
        · simp only [if_neg hlast] at h
          cases hdrain : env.drain with
          | true =>
            simp only [hdrain, if_true] at h
            cases h
            exact .goesBack hs hr' (by omega)
          | false =>
            simp only [hdrain, Bool.false_eq_true, if_false] at h
            cases h
            exact .fails (.drain hdrain) (by simp) rfl ⟨rfl, rfl, rfl⟩ rfl (by simp)
      · rw [if_neg htime] at h
        cases h
        exact .rest (by simp)
  · simp only [hpoll, Bool.not_true, Bool.false_eq_true, if_false] at h
    cases h
    exact .acked hs (.inr hack)
  · simp only [hpoll, Bool.not_false, if_true] at h
    cases h
    exact .fails hfail (by simp) rfl ⟨rfl, rfl, rfl⟩ rfl (by simp)

/-- Every stage of the receiver is one of the cases. It never comes to the second
poll of the ACK phase. -/
theorem receiver_does (hside : ctx.isSend = false) (hfinal : stage ≠ .final)
    (h : contextStage P env stage ctx = .ok (ctx', next, effects)) :
    ReceiverDoes P env stage ctx ctx' next effects := by
  cases stage with
  | start => exact receiver_start hside h
  | alive =>
    by_cases hs : ctx.state = .AliveMessages
    · simp only [contextStage, if_pos hs] at h
      cases halive : ncclIbPortRecoveryProgressAliveMessages P env ctx with
      | error res => rw [halive] at h; cases h
      | ok out =>
        rw [halive] at h
        cases h
        exact receiver_alive hside hs halive
    · simp only [contextStage, if_neg hs] at h
      cases h
      exact .rest (by simp)
  | ack =>
    by_cases hs : ctx.state = .Ack
    · exact receiver_ack hside hs h
    · simp only [contextStage, if_neg hs] at h
      cases h
      exact .rest (by simp)
  | final => exact absurd rfl hfinal
  | finish =>
    cases h
    exact .rest (by simp)

/-! ## Owners -/

theorem pollCq_owner (env : StageEnv) (ctx : RecoveryContext) :
    SameOwner ctx (ncclIbPortRecoveryPollCq env ctx).1 := by
  unfold ncclIbPortRecoveryPollCq ncclIbPortRecoveryHandleCompletionSender
    ncclIbPortRecoveryHandleCompletionReceiver takeAliveMessage
  repeat' split
  all_goals exact ⟨rfl, rfl, rfl⟩

theorem SenderDoes.owner (h : SenderDoes P env stage ctx ctx' next effects) : SameOwner ctx ctx' := by
  cases h with
  | fails _ _ _ owner _ _ => exact owner
  | _ => exact ⟨rfl, rfl, rfl⟩

theorem ReceiverDoes.owner (h : ReceiverDoes P env stage ctx ctx' next effects) :
    SameOwner ctx ctx' := by
  cases h with
  | fails _ _ _ owner _ _ => exact owner
  | takes imm n time _ _ _ =>
    have := takeAliveMessage_owner env ctx imm
    exact ⟨this.resCtx, this.devIndex, this.isSend⟩
  | answers ctx1 _ _ h1 =>
    obtain rfl | ⟨imm, -, rfl⟩ := h1
    · exact ⟨rfl, rfl, rfl⟩
    · have := takeAliveMessage_owner env ctx imm
      exact ⟨this.resCtx, this.devIndex, this.isSend⟩
  | _ => exact ⟨rfl, rfl, rfl⟩

theorem finalStage_owner (env : StageEnv) (ctx : RecoveryContext) :
    SameOwner ctx (finalStage env ctx) := by
  have hpoll := pollCq_owner env ctx
  unfold finalStage ackSenderFinish
  dsimp only
  split
  · repeat' split
    all_goals exact ⟨hpoll.resCtx, hpoll.devIndex, hpoll.isSend⟩
  · exact ⟨rfl, rfl, rfl⟩

/-- A stage keeps whose context it is. -/
theorem contextStage_owner (h : contextStage P env stage ctx = .ok (ctx', next, effects)) :
    SameOwner ctx ctx' := by
  by_cases hfinal : stage = .final
  · subst hfinal
    cases h
    exact finalStage_owner env ctx
  · cases hside : ctx.isSend with
    | true => exact (sender_does hside (fun hf => absurd hf hfinal) h).owner
    | false => exact (receiver_does hside hfinal h).owner

/-! ## Errors -/

/-- The loop over the data QPs of the device comes to a QP that a close destroys after
INFO has read its number, before any other QP ends the loop. -/
def LosesQp (env : StageEnv) (devIndex : Nat) (qps : List RecoveryQp) (first : Nat) : Prop :=
  ∃ q qp, qps[q]? = some qp ∧ qp.devIndex = devIndex ∧ qp.qp = true ∧
    env.destroyed (first + q) = true ∧
    ∀ j < q, ∀ qp', qps[j]? = some qp' → qp'.devIndex = devIndex →
      qp'.qp = true ∧ env.destroyed (first + j) = false ∧ env.reconfigured (first + j) = true ∧
        (env.comm.isSend = true ∨ env.preposted (first + j) = true)

/-- The receiver has its messages and goes on to restore its QPs. -/
def ReceiverRestores (P : RecoveryParams) (env : StageEnv) (ctx : RecoveryContext) : Prop :=
  ctx.isSend = false ∧ ctx.state = .AliveMessages ∧ ctx.ackPosted = false ∧
    (ncclIbPortRecoveryPollCq env ctx).2 = true ∧
    (ncclIbPortRecoveryPollCq env ctx).1.nInOrderMsgsReceived > P.aliveMsgSequenceSize ∧
    env.drain = true

/-- The sender has the ACK and goes on to restore its QPs. -/
def SenderRestores (env : StageEnv) (ctx : RecoveryContext) : Prop :=
  ctx.isSend = true ∧ ctx.state = .Ack ∧ ctx.ackPosted = false ∧
    (ctx.ackReceived = true ∨
      env.Polls .IBV_WC_RECV NCCL_IB_RESILIENCY_PORT_RECOVERY_ACK_MSG_ID)

/-- The receiver does not wait longer for the completion of its ACK, with attempts
left. -/
def ReceiverGoesBackEarly (P : RecoveryParams) (env : StageEnv) (ctx : RecoveryContext) : Prop :=
  ctx.isSend = false ∧ ctx.state = .AliveMessages ∧ ctx.ackPosted = true ∧
    (env.poll = .empty ∨ env.postRecv = true ∧ ∃ imm_data, env.Polls .IBV_WC_RECV imm_data) ∧
    ctx.ackCompleted = false ∧ elapsed env.now ctx.timeLastMsg > nanos P.ackTimeout ∧
    ctx.nFailedAttempts + 1 < P.attemptsMax ∧ env.postRecvs = true

/-- The inputs with which a stage returns an error. -/
def StageBreaks (P : RecoveryParams) (env : StageEnv) (stage : Stage) (ctx : RecoveryContext) :
    Prop :=
  (stage = .alive ∧ ReceiverGoesBackEarly P env ctx) ∨
  ((stage = .alive ∧ ReceiverRestores P env ctx ∨ stage = .ack ∧ SenderRestores env ctx) ∧
    LosesQp env ctx.devIndex env.comm.qps 0)

theorem LosesQp.cons {devIndex first : Nat} {qp : RecoveryQp} {qps : List RecoveryQp} :
    LosesQp env devIndex (qp :: qps) first ↔
      (qp.devIndex = devIndex ∧ qp.qp = true ∧ env.destroyed first = true) ∨
      ((qp.devIndex = devIndex → qp.qp = true ∧ env.destroyed first = false ∧
          env.reconfigured first = true ∧
          (env.comm.isSend = true ∨ env.preposted first = true)) ∧
        LosesQp env devIndex qps (first + 1)) := by
  constructor
  · rintro ⟨q, x, hx, hdev, hqp, hlost, hbefore⟩
    cases q with
    | zero =>
      simp only [List.getElem?_cons_zero, Option.some.injEq] at hx
      subst hx
      exact .inl ⟨hdev, hqp, hlost⟩
    | succ q =>
      refine .inr ⟨fun h => by simpa using hbefore 0 (by omega) qp rfl h, q, x, by simpa using hx,
        hdev, hqp, ?_, ?_⟩
      · rwa [Nat.add_assoc, Nat.add_comm 1 q]
      · intro j hj y hy hydev
        have := hbefore (j + 1) (by omega) y (by simpa using hy) hydev
        rwa [Nat.add_assoc, Nat.add_comm 1 j]
  · rintro (⟨hdev, hqp, hlost⟩ | ⟨hfirst, q, x, hx, hdev, hqp, hlost, hbefore⟩)
    · exact ⟨0, qp, rfl, hdev, hqp, hlost, by simp⟩
    · refine ⟨q + 1, x, by simpa using hx, hdev, hqp, ?_, ?_⟩
      · rwa [Nat.add_assoc, Nat.add_comm 1 q] at hlost
      · intro j hj y hy hydev
        cases j with
        | zero =>
          simp only [List.getElem?_cons_zero, Option.some.injEq] at hy
          subst hy
          exact hfirst hydev
        | succ j =>
          have := hbefore j (by omega) y (by simpa using hy) hydev
          rwa [Nat.add_assoc, Nat.add_comm 1 j] at this

/-- The restore of the data QPs returns an error when it loses a QP, and only then. -/
theorem restoreQps_error_iff (devIndex : Nat) (qps : List RecoveryQp) (first : Nat) :
    (∃ res, restoreQps env devIndex qps first = .error (.ret res)) ↔
      LosesQp env devIndex qps first := by
  induction qps generalizing first with
  | nil => simp [restoreQps, LosesQp]
  | cons qp qps ih =>
    rw [LosesQp.cons, restoreQps]
    by_cases hdev : qp.devIndex = devIndex
    · rw [if_neg (by simpa using hdev)]
      cases hqp : qp.qp with
      | false => simp [readQpNum_null hqp, hdev]
      | true =>
        rw [readQpNum_ok hqp]
        cases hlost : env.destroyed first with
        | true => simp [ncclIbResiliencyQpReconfigure, hdev]
        | false =>
          cases hrec : env.reconfigured first with
          | false => simp [ncclIbResiliencyQpReconfigure, hdev]
          | true =>
            cases hsend : env.comm.isSend <;> cases hpre : env.preposted first <;>
              simp [ncclIbResiliencyQpReconfigure, hdev, ih]
    · rw [if_pos (by simpa using hdev)]
      simp [hdev, ih]

theorem restoreAndPostAck_error_iff (success : Bool) :
    (∃ res, restoreAndPostAck env ctx success = .error (.ret res)) ↔
      LosesQp env ctx.devIndex env.comm.qps 0 := by
  rw [← restoreQps_error_iff]
  unfold restoreAndPostAck ncclIbPortRecoveryQpsRestore
  cases restoreQps env ctx.devIndex env.comm.qps 0 with
  | error stop => simp
  | ok b =>
    cases b with
    | false => simp
    | true =>
      cases success <;> cases env.flushReconfigured <;> cases env.comm.isSend <;>
        cases env.comm.flushQps <;> simp [ncclIbResiliencyQpReconfigure]

theorem aliveSender_ok (env : StageEnv) (hseq : i32 P.aliveMsgSequenceSize ≤ 10)
    (hside : ctx.isSend = true) :
    ∃ out, ncclIbPortRecoveryProgressAliveMessages P env ctx = .ok out := by
  have hle : ¬i32 P.aliveMsgSequenceSize >
      NCCL_IB_RESILIENCY_PORT_RECOVERY_ALIVE_MSG_BATCH_SIZE_MAX := by
    unfold NCCL_IB_RESILIENCY_PORT_RECOVERY_ALIVE_MSG_BATCH_SIZE_MAX
    omega
  simp only [ncclIbPortRecoveryProgressAliveMessages, if_pos hside,
    ncclIbPortRecoveryProgressAliveMessagesSender, ncclIbPortRecoveryPostAliveMessages, if_neg hle]
  cases ctx.aliveMsgPosted with
  | false =>
    by_cases hwait : elapsed env.now ctx.timeLastMsg < nanos P.aliveMsgBatchInterval
    · simp [hwait]
    · cases env.postSend <;> simp [hwait]
  | true =>
    cases (ncclIbPortRecoveryPollCq env ctx).2 <;>
      cases (ncclIbPortRecoveryPollCq env ctx).1.aliveMsgCompleted <;> simp

theorem aliveBeforeAck_error_iff (hside : ctx.isSend = false) (hs : ctx.state = .AliveMessages)
    (ha : ctx.ackPosted = false) :
    (∃ res, ncclIbPortRecoveryProgressAliveMessages P env ctx = .error (.ret res)) ↔
      ReceiverRestores P env ctx ∧ LosesQp env ctx.devIndex env.comm.qps 0 := by
  simp only [ncclIbPortRecoveryProgressAliveMessages, ncclIbPortRecoveryProgressAliveMessagesReceiver,
    ReceiverRestores, hside, hs, ha, true_and]
  rw [← (pollCq_owner env ctx).devIndex, ← restoreAndPostAck_error_iff true]
  unfold aliveBeforeAck
  obtain ⟨ctx1, success⟩ := ncclIbPortRecoveryPollCq env ctx
  cases success with
  | false => simp
  | true =>
    by_cases henough : ctx1.nInOrderMsgsReceived > P.aliveMsgSequenceSize
    · cases hdrain : env.drain with
      | false => simp [henough]
      | true =>
        cases hpost : restoreAndPostAck env ctx1 true with
        | error stop => simp [henough, hpost]
        | ok post => cases hok : post.success <;> simp [henough, hpost, hok]
    · by_cases htime : elapsed env.now ctx1.timeLastMsg > nanos P.aliveMsgTimeout
      · by_cases hlast : ctx1.nFailedAttempts + 1 ≥ P.attemptsMax <;>
          simp [henough, htime, hlast]
      · simp [henough, htime]

/-- After its ACK the receiver polls nothing, or an alive message that it puts up with. -/
theorem pollCq_receiver_tolerates (hside : ctx.isSend = false) (hs : ctx.state = .AliveMessages)
    (ha : ctx.ackPosted = true) (h : env.poll = .empty ∨ env.postRecv = true ∧
      ∃ imm_data, env.Polls .IBV_WC_RECV imm_data) :
    ncclIbPortRecoveryPollCq env ctx = (ctx, true) := by
  unfold ncclIbPortRecoveryPollCq
  obtain hempty | ⟨hpost, imm, wc, hgot, hok, hop, -⟩ := h
  · rw [hempty]
  · simp [hgot, hok, hside, ncclIbPortRecoveryHandleCompletionReceiver, hs, ha, hop, hpost]

theorem aliveAfterAck_error_iff (hside : ctx.isSend = false) (hs : ctx.state = .AliveMessages)
    (ha : ctx.ackPosted = true) :
    (∃ res, ncclIbPortRecoveryProgressAliveMessages P env ctx = .error (.ret res)) ↔
      ReceiverGoesBackEarly P env ctx := by
  simp only [ncclIbPortRecoveryProgressAliveMessages, if_neg (by simp [hside] : ¬ctx.isSend = true),
    ncclIbPortRecoveryProgressAliveMessagesReceiver, if_neg (by simp [ha] : ¬(!ctx.ackPosted) = true)]
  unfold aliveAfterAck
  constructor
  · rintro ⟨res, h⟩
    obtain ⟨hnone, hpoll⟩ | ⟨imm, -, hpoll⟩ | ⟨-, hpoll⟩ :=
      pollCq_receiver_afterAck P env hside hs ha
    · simp only [hpoll, Bool.not_true, Bool.false_eq_true, if_false] at h
      by_cases hc : ctx.ackCompleted = true
      · simp [hc] at h
      · rw [if_neg hc] at h
        by_cases htime : elapsed env.now ctx.timeLastMsg > nanos P.ackTimeout
        · rw [if_pos htime] at h
          by_cases hlast : ctx.nFailedAttempts + 1 ≥ P.attemptsMax
          · simp [hlast] at h
          · simp only [if_neg hlast] at h
            cases hposts : env.postRecvs with
            | true => exact ⟨hside, hs, ha, hnone, by simpa using hc, htime, by omega, hposts⟩
            | false => simp [hposts] at h
        · simp [htime] at h
    · simp [hpoll] at h
    · simp [hpoll] at h
  · rintro ⟨-, -, -, htolerates, hc, htime, hleft, hposts⟩
    have hpoll := pollCq_receiver_tolerates hside hs ha htolerates
    have hlast : ¬ctx.nFailedAttempts + 1 ≥ P.attemptsMax := by omega
    simp [hpoll, hc, htime, hlast, hposts]

theorem alive_error_iff (env : StageEnv) (hseq : i32 P.aliveMsgSequenceSize ≤ 10)
    (hs : ctx.state = .AliveMessages) :
    (∃ res, ncclIbPortRecoveryProgressAliveMessages P env ctx = .error (.ret res)) ↔
      ReceiverGoesBackEarly P env ctx ∨
        ReceiverRestores P env ctx ∧ LosesQp env ctx.devIndex env.comm.qps 0 := by
  cases hside : ctx.isSend with
  | true =>
    obtain ⟨out, hout⟩ := aliveSender_ok env hseq hside
    simp [hout, ReceiverGoesBackEarly, ReceiverRestores, hside]
  | false =>
    cases ha : ctx.ackPosted with
    | true =>
      rw [aliveAfterAck_error_iff hside hs ha]
      simp [ReceiverRestores, ha]
    | false =>
      rw [aliveBeforeAck_error_iff hside hs ha]
      simp [ReceiverGoesBackEarly, ha]

theorem ackSenderPost_error_iff (success : Bool) :
    (∃ res, ackSenderPost env ctx success = .error (.ret res)) ↔
      ctx.ackPosted = false ∧ LosesQp env ctx.devIndex env.comm.qps 0 := by
  rw [← restoreAndPostAck_error_iff success]
  unfold ackSenderPost
  cases ctx.ackPosted with
  | true => simp
  | false => cases restoreAndPostAck env ctx success <;> simp

theorem pollCq_sender_hears (hside : ctx.isSend = true) (hs : ctx.state = .Ack)
    (hr : ctx.ackReceived = false)
    (h : env.Polls .IBV_WC_RECV NCCL_IB_RESILIENCY_PORT_RECOVERY_ACK_MSG_ID) :
    (ncclIbPortRecoveryPollCq env ctx).2 = true := by
  obtain ⟨wc, hgot, hok, hop, himm⟩ := h
  unfold ncclIbPortRecoveryPollCq
  simp [hgot, hok, hside, ncclIbPortRecoveryHandleCompletionSender, hs, hr, hop, himm]

theorem ackSenderReceive_error_iff (hside : ctx.isSend = true) (hs : ctx.state = .Ack) :
    (∃ res, ackSenderReceive P env ctx = .error (.ret res)) ↔
      SenderRestores env ctx ∧ LosesQp env ctx.devIndex env.comm.qps 0 := by
  unfold ackSenderReceive
  by_cases hr : ctx.ackReceived = true
  · rw [if_neg (by simp [hr]), ackSenderPost_error_iff]
    simp [SenderRestores, hside, hs, hr]
  · have hr' : ctx.ackReceived = false := by simpa using hr
    rw [if_pos (by simp [hr'])]
    obtain ⟨hempty, hpoll⟩ | ⟨hack, hpoll⟩ | ⟨hfail, hpoll⟩ := pollCq_sender_ack P env hside hs hr'
    · simp [hpoll, hr', SenderRestores, StageEnv.Polls, hempty]
    · simp only [hpoll, Bool.not_true, Bool.false_eq_true, if_false]
      rw [ackSenderPost_error_iff]
      simp [SenderRestores, hside, hs, hr', hack]
    · have hnot : ¬SenderRestores env ctx := by
        rintro ⟨-, -, -, hr1 | hack⟩
        · exact hr hr1
        · have := pollCq_sender_hears hside hs hr' hack
          rw [hpoll] at this
          cases this
      simp [hpoll, hnot]

theorem ackStage_error_iff (hs : ctx.state = .Ack) :
    (∃ res, ackStage P env ctx = .error (.ret res)) ↔
      SenderRestores env ctx ∧ LosesQp env ctx.devIndex env.comm.qps 0 := by
  unfold ackStage
  cases hside : ctx.isSend with
  | false => simp [SenderRestores, hside]
  | true =>
    rw [← ackSenderReceive_error_iff hside hs]
    cases hrecv : ackSenderReceive P env ctx with
    | error stop => simp
    | ok out =>
      obtain ⟨ctx1, result, effects⟩ := out
      cases result <;> simp

/-- A stage returns an error on these inputs and on no others. -/
theorem contextStage_error_iff (hseq : i32 P.aliveMsgSequenceSize ≤ 10) :
    (∃ res, contextStage P env stage ctx = .error (.ret res)) ↔ StageBreaks P env stage ctx := by
  unfold StageBreaks contextStage
  cases stage with
  | start => cases startStage P env.now env.qpsReconfigured ctx <;> simp
  | alive =>
    by_cases hs : ctx.state = .AliveMessages
    · have halive := alive_error_iff env hseq hs
      simp only [if_pos hs, true_and, reduceCtorEq, false_and, or_false]
      rw [← halive]
      cases ncclIbPortRecoveryProgressAliveMessages P env ctx <;> simp
    · simp [hs, ReceiverGoesBackEarly, ReceiverRestores]
  | ack =>
    by_cases hs : ctx.state = .Ack
    · simp only [if_pos hs, true_and, reduceCtorEq, false_and, false_or]
      rw [← ackStage_error_iff (P := P) hs]
      cases ackStage P env ctx <;> simp
    · simp [hs, SenderRestores]
  | final => simp
  | finish => simp

end net_ib.recovery
