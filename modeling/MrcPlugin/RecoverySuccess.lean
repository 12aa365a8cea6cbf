-- When the recovery protocol ends with success (p2p_resiliency_recovery.cc). The ids
-- of alive messages and the ACK share one number space, so a success is sound as long
-- as the receiver polls no alive message with the id of the ACK for the final ACK.
import MrcPlugin.RecoveryPair

namespace net_ib.recovery

open p2p runs

/-! ## What the stages tell -/

variable {P : RecoveryParams} {env : StageEnv} {stage next : Stage} {ctx ctx' : RecoveryContext}
  {effects : List Effect}

theorem SenderDoes.final (h : SenderDoes P env stage ctx ctx' next effects) (hn : next = .final) :
    ctx'.state = .Ack ∧ ctx'.ackReceived = true ∧ ctx'.ackPosted = true := by
  cases h with
  | rest hnext => exact hnext hn
  | hears hs _ hp _ => exact ⟨hs, rfl, hp⟩
  | answers hs _ _ _ => exact ⟨hs, rfl, rfl⟩
  | fails _ hne _ _ _ _ => exact absurd hn hne
  | _ => cases hn

theorem SenderDoes.success (h : SenderDoes P env stage ctx ctx' next effects)
    (hs' : ctx'.state = .Success) : ctx' = ctx ∨ ctx'.ackReceived = true := by
  cases h with
  | rest _ => exact .inl rfl
  | posts hs _ _ => rw [hs] at hs'; cases hs'
  | hears hs _ _ _ => exact .inr rfl
  | answers hs _ _ _ => exact .inr rfl
  | finishes _ hr _ => exact .inr hr
  | fails _ _ hs _ _ _ => rw [hs] at hs'; cases hs'
  | _ => cases hs'

theorem SenderDoes.ackReceived (h : SenderDoes P env stage ctx ctx' next effects)
    (hr : ctx'.ackReceived = true) : ctx.ackReceived = true ∨
      env.Polls .IBV_WC_RECV NCCL_IB_RESILIENCY_PORT_RECOVERY_ACK_MSG_ID := by
  cases h with
  | hears _ _ _ hpoll => exact .inr hpoll
  | answers _ _ _ hpoll => exact .inr hpoll
  | fails _ _ _ _ hr' _ => exact hr' hr
  | _ => exact .inl hr

/-- The sender posts the final ACK after it has the ACK and its QPs are restored. -/
theorem SenderDoes.postsAck (h : SenderDoes P env stage ctx ctx' next effects)
    (he : .ack ∈ effects) : .restored ∈ effects ∧ ctx'.ackReceived = true := by
  cases h with
  | answers _ _ _ _ => simp
  | posts _ _ _ => simp at he
  | fails _ _ _ _ _ heff =>
    rcases heff _ he with hf | ⟨-, -, -, id, -, hf⟩ <;> cases hf
  | _ => cases he

theorem SenderDoes.postsAlive (h : SenderDoes P env stage ctx ctx' next effects) {id : Nat}
    (he : .aliveMessage id ∈ effects) : ctx.state = .AliveMessages ∧ ctx.aliveMsgPosted = false ∧
      i32 P.aliveMsgSequenceSize ≤ 10 ∧ id ∈ aliveWrs P env ctx := by
  cases h with
  | answers _ _ _ _ => simp at he
  | posts hs hp hn =>
    obtain ⟨id', hid, hf⟩ := List.mem_map.mp he
    cases hf
    exact ⟨hs, hp, hn, hid⟩
  | fails _ _ _ _ _ heff =>
    rcases heff _ he with hf | ⟨hs, hp, hn, id', hid, hf⟩
    · cases hf
    · cases hf
      exact ⟨hs, hp, hn, hid⟩
  | _ => cases he

theorem ReceiverDoes.final (h : ReceiverDoes P env stage ctx ctx' next effects) : next ≠ .final := by
  cases h with
  | rest hnext => exact hnext
  | fails _ hne _ _ _ _ => exact hne
  | _ => simp

theorem ReceiverDoes.ackReceived (h : ReceiverDoes P env stage ctx ctx' next effects)
    (hr : ctx'.ackReceived = true) : ctx.ackReceived = true ∨ stage = .ack ∧ ctx.state = .Ack ∧
      env.Polls .IBV_WC_RECV NCCL_IB_RESILIENCY_PORT_RECOVERY_ACK_MSG_ID := by
  cases h with
  | takes imm n time _ _ _ => exact .inl (by simpa using hr)
  | answers ctx1 _ _ h1 =>
    obtain rfl | ⟨imm, -, rfl⟩ := h1
    · exact .inl hr
    · exact .inl (by simpa using hr)
  | acked hs h => exact h.imp id (fun hpoll => ⟨rfl, hs, hpoll⟩)
  | fails _ _ _ _ hsame _ => exact .inl (hsame ▸ hr)
  | _ => exact .inl hr

theorem takeAliveMessage_state (env : StageEnv) (ctx : RecoveryContext) (imm_data : Nat) :
    (takeAliveMessage env ctx imm_data).state = ctx.state := by
  unfold takeAliveMessage
  split <;> rfl

theorem ReceiverDoes.success (h : ReceiverDoes P env stage ctx ctx' next effects)
    (hs' : ctx'.state = .Success) : ctx' = ctx ∨ ctx'.ackReceived = true := by
  cases h with
  | rest _ => exact .inl rfl
  | waits n time hs _ => rw [hs] at hs'; cases hs'
  | takes imm n time hs _ _ =>
    have : (takeAliveMessage env ctx imm).state = .Success := hs'
    rw [takeAliveMessage_state, hs] at this
    cases this
  | answers ctx1 hs _ h1 =>
    obtain rfl | ⟨imm, -, rfl⟩ := h1
    · rw [hs] at hs'; cases hs'
    · have : (takeAliveMessage env ctx imm).state = .Success := hs'
      rw [takeAliveMessage_state, hs] at this
      cases this
  | acked _ _ => exact .inr rfl
  | fails _ _ hs _ _ _ => rw [hs] at hs'; cases hs'
  | _ => cases hs'

/-- A receiver that has the final ACK is at its end. -/
theorem ReceiverDoes.fresh (h : ReceiverDoes P env stage ctx ctx' next effects)
    (hctx : ctx.ackReceived = true → ctx.isDone = true) (hr : ctx'.ackReceived = true) :
    ctx'.isDone = true := by
  have hold : ctx.state = .Init ∨ ctx.state = .AliveMessages ∨ ctx.state = .Ack →
      ctx.ackReceived = false := by
    intro hs
    by_contra hne
    have hdone := hctx (by simpa using hne)
    rcases hs with hs | hs | hs <;> simp [RecoveryContext.isDone, hs] at hdone
  cases h with
  | rest _ => exact hctx hr
  | starts hs => rw [hold (.inl hs)] at hr; cases hr
  | waits n time hs _ => rw [hold (.inr (.inl hs))] at hr; cases hr
  | takes imm n time hs _ _ =>
    have : ctx.ackReceived = true := by simpa using hr
    rw [hold (.inr (.inl hs))] at this
    cases this
  | answers ctx1 hs _ h1 =>
    have : ctx.ackReceived = true := by
      obtain rfl | ⟨imm, -, rfl⟩ := h1 <;> simpa using hr
    rw [hold (.inr (.inl hs))] at this
    cases this
  | ackDone hs _ _ => rw [hold (.inr (.inl hs))] at hr; cases hr
  | acked _ _ => simp [RecoveryContext.isDone]
  | goesBack hs _ _ => rw [hold (.inr (.inr hs))] at hr; cases hr
  | fails _ _ hs _ _ _ => simp [RecoveryContext.isDone, hs]

/-- The receiver posts its ACK after its QPs are restored. -/
theorem ReceiverDoes.postsAck (h : ReceiverDoes P env stage ctx ctx' next effects)
    (he : .ack ∈ effects) : .restored ∈ effects := by
  cases h with
  | answers _ _ _ _ => simp
  | goesBack _ _ _ => simp at he
  | fails _ _ _ _ _ heff => rcases heff _ he with hf | hf <;> cases hf
  | _ => cases he

theorem ReceiverDoes.postsNoAlive (h : ReceiverDoes P env stage ctx ctx' next effects) (id : Nat) :
    .aliveMessage id ∉ effects := by
  intro he
  cases h with
  | answers _ _ _ _ => simp at he
  | goesBack _ _ _ => simp at he
  | fails _ _ _ _ _ heff => rcases heff _ he with hf | hf <;> cases hf
  | _ => cases he

/-! ## The polls of an end -/

variable {p q : Party} {msgs : List Msg}

theorem Party.polls_recv {imm_data : Nat}
    (h : ({ env with poll := p.polled env } : StageEnv).Polls .IBV_WC_RECV imm_data) :
    ∃ m cq, p.cq = .recv m :: cq ∧ m.imm_data = imm_data := by
  obtain ⟨wc, hgot, hok, hop, himm⟩ := h
  dsimp only [Party.polled] at hgot
  split at hgot
  · cases hgot
  · split at hgot
    · cases hgot
    · rename_i cqe cq hcq
      cases hgot
      cases cqe with
      | recv m => exact ⟨m, cq, hcq, himm⟩
      | send => cases hop
      | error => cases hok

/-- What a stage of an end gives: the end is dead, or its context is after the stage. -/
theorem Party.runStage_cases (h : p.runStage P env = some (q, msgs)) :
    (q = { p with dead := true } ∧ msgs = []) ∨
    ∃ ctx next effects, contextStage P { env with poll := p.polled env } p.stage p.ctx =
        .ok (ctx, next, effects) ∧ p.stage ≠ .finish ∧
      msgs = effects.filterMap Effect.msg ∧
      q = { p with
        ctx := ctx
        stage := next
        cq := p.cqAfter env effects
        sends := p.sends + signaled effects
        log := p.log ++ effects
        heard := p.heard ++ p.hears ctx } := by
  unfold Party.runStage at h
  split at h
  · cases h
  · rename_i hfinish
    split at h
    · cases h
      exact .inl ⟨rfl, rfl⟩
    · rename_i ctx next effects hstage
      cases h
      exact .inr ⟨ctx, next, effects, hstage, fun hf => hfinish (.inr hf), rfl, rfl⟩

theorem Party.mem_cqAfter {cqe : Cqe} (h : cqe ∈ p.cqAfter env effects) : cqe ∈ p.cq := by
  unfold Party.cqAfter at h
  split at h
  · cases h
  · split at h
    · exact List.mem_of_mem_tail h
    · exact h

theorem Party.mem_hears {m : Msg} (h : m ∈ p.hears ctx) : .recv m ∈ p.cq := by
  unfold Party.hears at h
  split at h
  · split at h
    · rename_i m' cq hcq
      rw [List.mem_singleton.mp h, hcq]
      exact List.mem_cons_self ..
    · cases h
  · cases h

/-- An end that has an ACK now and had none heard the first message of its CQ. -/
theorem Party.hears_head {m : Msg} {cq : List Cqe} (hcq : p.cq = .recv m :: cq)
    (hr : p.ctx.ackReceived = false) (hr' : ctx.ackReceived = true) : p.hears ctx = [m] := by
  unfold Party.hears
  rw [if_pos ⟨by simp [hr], hr'⟩, hcq]

/-! ## The invariant -/

/-- The receiver is about to take an alive message for the final ACK: it waits for that
ACK and the message carries its id. -/
def Party.TakesAliveForAck (p : Party) (env : StageEnv) : Prop :=
  p.stage = .ack ∧ p.ctx.state = .Ack ∧ env.poll ≠ .fails ∧
    p.cq.head? = some (.recv (.alive NCCL_IB_RESILIENCY_PORT_RECOVERY_ACK_MSG_ID))

/-- The step takes no alive message for an ACK. -/
def NoFalseAck (a : PairAct) (s : Pair) : Prop :=
  match a with
  | .receiverStage env => ¬s.receiver.TakesAliveForAck env
  | _ => True

/-- The protocol with losses and errors, in which the receiver polls no alive message
with the id of the ACK for the final ACK. -/
def ackSystem (P : RecoveryParams) : System Pair where
  init := PairInit
  step s t := ∃ a, NoFalseAck a s ∧ pairAct P a s = some t

/-- The sender has the ACK of the receiver, has restored its QPs and has posted the
final ACK. -/
def Pair.SenderAnswered (s : Pair) : Prop :=
  Msg.ack ∈ s.sender.heard ∧ Effect.restored ∈ s.sender.log ∧ Effect.ack ∈ s.sender.log

/-- The receiver has restored its QPs and has posted its ACK. -/
def Pair.ReceiverAnswered (s : Pair) : Prop :=
  Effect.restored ∈ s.receiver.log ∧ Effect.ack ∈ s.receiver.log

/-- Every ACK on its way and every flag has its cause. -/
structure PairGood (s : Pair) : Prop where
  senderSide : s.sender.ctx.isSend = true
  receiverSide : s.receiver.ctx.isSend = false
  senderFinal : s.sender.stage = .final → s.sender.ctx.state = .Ack ∧
    s.sender.ctx.ackReceived = true ∧ s.sender.ctx.ackPosted = true
  receiverFinal : s.receiver.stage ≠ .final
  acks : ∀ m, m ∈ s.toSender ∨ .recv m ∈ s.sender.cq → m = .ack ∧ s.ReceiverAnswered
  alives : ∀ m, m ∈ s.toReceiver ∨ .recv m ∈ s.receiver.cq → m = .ack ∧ s.SenderAnswered ∨
    ∃ id, m = .alive id
  senderHeard : s.sender.ctx.ackReceived = true → s.ReceiverAnswered ∧ Msg.ack ∈ s.sender.heard
  receiverHeard : s.receiver.ctx.ackReceived = true → s.SenderAnswered
  heard : ∀ m, m ∈ s.sender.heard ∨ m ∈ s.receiver.heard → m = .ack
  senderDone : s.sender.ctx.state = .Success → s.sender.ctx.ackReceived = true
  receiverDone : s.receiver.ctx.state = .Success → s.receiver.ctx.ackReceived = true
  receiverFresh : s.receiver.ctx.ackReceived = true → s.receiver.ctx.isDone = true

variable {s t : Pair}

theorem mem_posts {m : Msg} (h : m ∈ effects.filterMap Effect.msg) :
    (m = .ack ∧ .ack ∈ effects) ∨ ∃ id, m = .alive id ∧ .aliveMessage id ∈ effects := by
  obtain ⟨e, he, hm⟩ := List.mem_filterMap.mp h
  cases e with
  | aliveMessage id => cases hm; exact .inr ⟨id, rfl, he⟩
  | ack => cases hm; exact .inl ⟨rfl, he⟩
  | restored => cases hm
  | drained => cases hm

theorem good_senderStage (h : PairGood s)
    (ht : pairAct P (.senderStage env) s = some t) : PairGood t := by
  obtain ⟨⟨q, msgs⟩, hq, rfl⟩ := Option.map_eq_some_iff.mp ht
  obtain ⟨rfl, rfl⟩ | ⟨ctx, next, effects, hstage, -, rfl, rfl⟩ := Party.runStage_cases hq
  · simpa using (⟨h.senderSide, h.receiverSide, h.senderFinal, h.receiverFinal, h.acks, h.alives,
      h.senderHeard, h.receiverHeard, h.heard, h.senderDone, h.receiverDone, h.receiverFresh⟩ :
      PairGood { s with sender := { s.sender with dead := true } })
  · have hdoes := sender_does h.senderSide
      (fun hf => ⟨(h.senderFinal hf).1, (h.senderFinal hf).2.1⟩) hstage
    -- What the sender hears comes from its CQ, so it is an ACK of the receiver.
    have hheard : ctx.ackReceived = true → s.ReceiverAnswered ∧
        Msg.ack ∈ s.sender.heard ++ s.sender.hears ctx := by
      intro hr'
      by_cases hr : s.sender.ctx.ackReceived = true
      · exact ⟨(h.senderHeard hr).1, List.mem_append_left _ (h.senderHeard hr).2⟩
      · rcases hdoes.ackReceived hr' with hf | hpoll
        · exact absurd hf hr
        · obtain ⟨m, cq, hcq, -⟩ := Party.polls_recv hpoll
          obtain ⟨rfl, hanswered⟩ := h.acks m (.inr (by rw [hcq]; exact List.mem_cons_self ..))
          refine ⟨hanswered, List.mem_append_right _ ?_⟩
          rw [Party.hears_head hcq (by simpa using hr) hr']
          exact List.mem_singleton.mpr rfl
    have hanswered : s.SenderAnswered → Pair.SenderAnswered { s with
        sender := { s.sender with
          ctx := ctx
          stage := next
          cq := s.sender.cqAfter env effects
          sends := s.sender.sends + signaled effects
          log := s.sender.log ++ effects
          heard := s.sender.heard ++ s.sender.hears ctx }
        toReceiver := s.toReceiver ++ effects.filterMap Effect.msg } :=
      fun ⟨h1, h2, h3⟩ => ⟨List.mem_append_left _ h1, List.mem_append_left _ h2,
        List.mem_append_left _ h3⟩
    constructor
    · exact hdoes.owner.isSend.trans h.senderSide
    · exact h.receiverSide
    · exact hdoes.final
    · exact h.receiverFinal
    · rintro m (hm | hm)
      · exact h.acks m (.inl hm)
      · exact h.acks m (.inr (Party.mem_cqAfter hm))
    · rintro m (hm | hm)
      · rcases List.mem_append.mp hm with hm | hm
        · exact (h.alives m (.inl hm)).imp (fun hm => ⟨hm.1, hanswered hm.2⟩) id
        · rcases mem_posts hm with ⟨rfl, he⟩ | ⟨id, rfl, he⟩
          · obtain ⟨hrestored, hr'⟩ := hdoes.postsAck he
            exact .inl ⟨rfl, (hheard hr').2, List.mem_append_right _ hrestored,
              List.mem_append_right _ he⟩
          · exact .inr ⟨id, rfl⟩
      · exact (h.alives m (.inr hm)).imp (fun hm => ⟨hm.1, hanswered hm.2⟩) id
    · exact hheard
    · exact fun hr => hanswered (h.receiverHeard hr)
    · rintro m (hm | hm)
      · rcases List.mem_append.mp hm with hm | hm
        · exact h.heard m (.inl hm)
        · exact (h.acks m (.inr (Party.mem_hears hm))).1
      · exact h.heard m (.inr hm)
    · intro hs'
      rcases hdoes.success hs' with rfl | hr
      · exact h.senderDone hs'
      · exact hr
    · exact h.receiverDone
    · exact h.receiverFresh

/-- A message with the id of the ACK that the receiver polls for the final ACK is an ACK. -/
theorem PairGood.polls_ack (h : PairGood s) (hsafe : ¬s.receiver.TakesAliveForAck env)
    (hstage : s.receiver.stage = .ack) (hs : s.receiver.ctx.state = .Ack)
    (hpoll : ({ env with poll := s.receiver.polled env } : StageEnv).Polls .IBV_WC_RECV
      NCCL_IB_RESILIENCY_PORT_RECOVERY_ACK_MSG_ID) :
    ∃ cq, s.receiver.cq = .recv .ack :: cq ∧ s.SenderAnswered := by
  obtain ⟨m, cq, hcq, himm⟩ := Party.polls_recv hpoll
  have hworks : env.poll ≠ .fails := by
    intro hf
    obtain ⟨wc, hgot, -⟩ := hpoll
    simp [Party.polled, hf] at hgot
  rcases h.alives m (.inr (by rw [hcq]; exact List.mem_cons_self ..)) with ⟨rfl, hm⟩ | ⟨id, rfl⟩
  · exact ⟨cq, hcq, hm⟩
  · have hid : id = NCCL_IB_RESILIENCY_PORT_RECOVERY_ACK_MSG_ID := himm
    exact absurd ⟨hstage, hs, hworks, by rw [hcq, hid]; rfl⟩ hsafe

theorem good_receiverStage (h : PairGood s) (hsafe : ¬s.receiver.TakesAliveForAck env)
    (ht : pairAct P (.receiverStage env) s = some t) : PairGood t := by
  obtain ⟨⟨q, msgs⟩, hq, rfl⟩ := Option.map_eq_some_iff.mp ht
  obtain ⟨rfl, rfl⟩ | ⟨ctx, next, effects, hstage, -, rfl, rfl⟩ := Party.runStage_cases hq
  · simpa using (⟨h.senderSide, h.receiverSide, h.senderFinal, h.receiverFinal, h.acks, h.alives,
      h.senderHeard, h.receiverHeard, h.heard, h.senderDone, h.receiverDone, h.receiverFresh⟩ :
      PairGood { s with receiver := { s.receiver with dead := true } })
  · have hdoes := receiver_does h.receiverSide h.receiverFinal hstage
    have hanswered : s.ReceiverAnswered → Pair.ReceiverAnswered { s with
        receiver := { s.receiver with
          ctx := ctx
          stage := next
          cq := s.receiver.cqAfter env effects
          sends := s.receiver.sends + signaled effects
          log := s.receiver.log ++ effects
          heard := s.receiver.heard ++ s.receiver.hears ctx }
        toSender := s.toSender ++ effects.filterMap Effect.msg } :=
      fun ⟨h1, h2⟩ => ⟨List.mem_append_left _ h1, List.mem_append_left _ h2⟩
    -- Only an ACK sets the flag.
    have hhears : ∀ m ∈ s.receiver.hears ctx, m = .ack := by
      intro m hm
      unfold Party.hears at hm
      split at hm
      · rename_i hflags
        rcases hdoes.ackReceived hflags.2 with hf | ⟨hstage', hs, hpoll⟩
        · simp [hf] at hflags
        · obtain ⟨cq, hcq, -⟩ := h.polls_ack hsafe hstage' hs hpoll
          rw [hcq] at hm
          exact List.mem_singleton.mp hm
      · cases hm
    constructor
    · exact h.senderSide
    · exact hdoes.owner.isSend.trans h.receiverSide
    · exact h.senderFinal
    · exact hdoes.final
    · rintro m (hm | hm)
      · rcases List.mem_append.mp hm with hm | hm
        · exact ⟨(h.acks m (.inl hm)).1, hanswered (h.acks m (.inl hm)).2⟩
        · rcases mem_posts hm with ⟨rfl, he⟩ | ⟨id, rfl, he⟩
          · exact ⟨rfl, List.mem_append_right _ (hdoes.postsAck he), List.mem_append_right _ he⟩
          · exact absurd he (hdoes.postsNoAlive id)
      · exact ⟨(h.acks m (.inr hm)).1, hanswered (h.acks m (.inr hm)).2⟩
    · rintro m (hm | hm)
      · exact h.alives m (.inl hm)
      · exact h.alives m (.inr (Party.mem_cqAfter hm))
    · exact fun hr => ⟨hanswered (h.senderHeard hr).1, (h.senderHeard hr).2⟩
    · intro hr'
      rcases hdoes.ackReceived hr' with hr | ⟨hstage', hs, hpoll⟩
      · exact h.receiverHeard hr
      · exact (h.polls_ack hsafe hstage' hs hpoll).choose_spec.2
    · rintro m (hm | hm)
      · exact h.heard m (.inl hm)
      · rcases List.mem_append.mp hm with hm | hm
        · exact h.heard m (.inr hm)
        · exact hhears m hm
    · exact h.senderDone
    · intro hs'
      rcases hdoes.success hs' with rfl | hr
      · exact h.receiverDone hs'
      · exact hr
    · exact hdoes.fresh h.receiverFresh

/-- A step outside of the stages moves messages on, loses some, or puts a completion
without a message into a CQ. -/
theorem PairGood.moves (h : PairGood s) {sp rp : Party} {toReceiver toSender : List Msg}
    (hs : sp.ctx = s.sender.ctx ∧ sp.log = s.sender.log ∧ sp.heard = s.sender.heard)
    (hr : rp.ctx = s.receiver.ctx ∧ rp.log = s.receiver.log ∧ rp.heard = s.receiver.heard)
    (hsf : sp.stage = .final → s.sender.stage = .final) (hrf : rp.stage ≠ .final)
    (hacks : ∀ m, m ∈ toSender ∨ .recv m ∈ sp.cq → m ∈ s.toSender ∨ .recv m ∈ s.sender.cq)
    (halives : ∀ m, m ∈ toReceiver ∨ .recv m ∈ rp.cq →
      m ∈ s.toReceiver ∨ .recv m ∈ s.receiver.cq) :
    PairGood ⟨sp, rp, toReceiver, toSender⟩ := by
  obtain ⟨hsctx, hslog, hsheard⟩ := hs
  obtain ⟨hrctx, hrlog, hrheard⟩ := hr
  have hsa : Pair.SenderAnswered ⟨sp, rp, toReceiver, toSender⟩ ↔ s.SenderAnswered := by
    simp only [Pair.SenderAnswered, hslog, hsheard]
  have hra : Pair.ReceiverAnswered ⟨sp, rp, toReceiver, toSender⟩ ↔ s.ReceiverAnswered := by
    simp only [Pair.ReceiverAnswered, hrlog]
  constructor
  · simpa [hsctx] using h.senderSide
  · simpa [hrctx] using h.receiverSide
  · intro hf
    simpa [hsctx] using h.senderFinal (hsf hf)
  · exact hrf
  · intro m hm
    rw [hra]
    exact h.acks m (hacks m hm)
  · intro m hm
    rw [hsa]
    exact h.alives m (halives m hm)
  · intro hr
    rw [hra, hsheard]
    exact h.senderHeard (by simpa [hsctx] using hr)
  · intro hr
    rw [hsa]
    exact h.receiverHeard (by simpa [hrctx] using hr)
  · intro m hm
    simp only [hsheard, hrheard] at hm
    exact h.heard m hm
  · simpa [hsctx] using h.senderDone
  · simpa [hrctx] using h.receiverDone
  · simpa [hrctx] using h.receiverFresh

theorem Party.call_cases (h : p.call = some q) : q = { p with stage := .start } := by
  unfold Party.call at h
  split at h
  · exact (Option.some.inj h).symm
  · cases h

theorem Party.complete_cases (h : p.complete = some q) :
    ∃ n, p.sends = n + 1 ∧ q = { p with sends := n, cq := p.cq ++ [.send] } := by
  unfold Party.complete at h
  split at h
  · cases h
  · rename_i n hn
    exact ⟨n, hn, (Option.some.inj h).symm⟩

theorem good_pairAct (h : PairGood s) {a : PairAct} (hsafe : NoFalseAck a s)
    (ht : pairAct P a s = some t) : PairGood t := by
  have hacks := fun m (hm : m ∈ s.toSender ∨ .recv m ∈ s.sender.cq) => hm
  have halives := fun m (hm : m ∈ s.toReceiver ∨ .recv m ∈ s.receiver.cq) => hm
  cases a with
  | senderStage env => exact good_senderStage h ht
  | receiverStage env => exact good_receiverStage h hsafe ht
  | senderCall =>
    obtain ⟨q, hq, rfl⟩ := Option.map_eq_some_iff.mp ht
    obtain rfl := Party.call_cases hq
    exact h.moves ⟨rfl, rfl, rfl⟩ ⟨rfl, rfl, rfl⟩ (by simp) h.receiverFinal hacks halives
  | receiverCall =>
    obtain ⟨q, hq, rfl⟩ := Option.map_eq_some_iff.mp ht
    obtain rfl := Party.call_cases hq
    exact h.moves ⟨rfl, rfl, rfl⟩ ⟨rfl, rfl, rfl⟩ id (by simp) hacks halives
  | senderCompletes =>
    obtain ⟨q, hq, rfl⟩ := Option.map_eq_some_iff.mp ht
    obtain ⟨n, -, rfl⟩ := Party.complete_cases hq
    exact h.moves ⟨rfl, rfl, rfl⟩ ⟨rfl, rfl, rfl⟩ id h.receiverFinal (by simp) halives
  | receiverCompletes =>
    obtain ⟨q, hq, rfl⟩ := Option.map_eq_some_iff.mp ht
    obtain ⟨n, -, rfl⟩ := Party.complete_cases hq
    exact h.moves ⟨rfl, rfl, rfl⟩ ⟨rfl, rfl, rfl⟩ id h.receiverFinal hacks (by simp)
  | toReceiver =>
    simp only [pairAct] at ht
    split at ht
    · cases ht
    · rename_i m ms hms
      cases ht
      refine h.moves ⟨rfl, rfl, rfl⟩ ⟨rfl, rfl, rfl⟩ id h.receiverFinal hacks
        (fun m' hm => ?_)
      simp only [Party.arrives, hms, List.mem_append, List.mem_cons, Cqe.recv.injEq,
        List.not_mem_nil, or_false] at hm ⊢
      tauto
  | toSender =>
    simp only [pairAct] at ht
    split at ht
    · cases ht
    · rename_i m ms hms
      cases ht
      refine h.moves ⟨rfl, rfl, rfl⟩ ⟨rfl, rfl, rfl⟩ id h.receiverFinal
        (fun m' hm => ?_) halives
      simp only [Party.arrives, hms, List.mem_append, List.mem_cons, Cqe.recv.injEq,
        List.not_mem_nil, or_false] at hm ⊢
      tauto
  | loseToReceiver n =>
    cases ht
    exact h.moves ⟨rfl, rfl, rfl⟩ ⟨rfl, rfl, rfl⟩ id h.receiverFinal hacks
      (fun m hm => hm.imp List.mem_of_mem_drop id)
  | loseToSender n =>
    cases ht
    exact h.moves ⟨rfl, rfl, rfl⟩ ⟨rfl, rfl, rfl⟩ id h.receiverFinal
      (fun m hm => hm.imp List.mem_of_mem_drop id) halives
  | senderError =>
    cases ht
    exact h.moves ⟨rfl, rfl, rfl⟩ ⟨rfl, rfl, rfl⟩ id h.receiverFinal
      (by simp [Party.arrives]) halives
  | receiverError =>
    cases ht
    exact h.moves ⟨rfl, rfl, rfl⟩ ⟨rfl, rfl, rfl⟩ id h.receiverFinal hacks
      (by simp [Party.arrives])

theorem PairInit.good (h : PairInit s) : PairGood s := by
  obtain ⟨sender, receiver, toReceiver, toSender⟩ := s
  obtain ⟨htr, hts, ⟨r, d, time, hs⟩, ⟨r', d', time', hr⟩⟩ := h
  dsimp only at htr hts hs hr
  subst htr hts hs hr
  constructor <;> simp

theorem good_reachable (h : Reachable (ackSystem P) s) : PairGood s :=
  h.invariant (fun _ => PairInit.good) (fun _ _ _ hs ⟨_, hsafe, ht⟩ => good_pairAct hs hsafe ht)

/-! ## The ids of the alive messages -/

/-- The parameters with which no alive message carries the id of the ACK: the sender
posts no message at all, or all its attempts together post few enough. -/
def FewMessages (P : RecoveryParams) : Prop :=
  10 < i32 P.aliveMsgSequenceSize ∨
    1 ≤ i32 P.aliveMsgSequenceSize ∧ i32 P.aliveMsgSequenceSize * max 1 P.attemptsMax ≤
      NCCL_IB_RESILIENCY_PORT_RECOVERY_ACK_MSG_ID

instance (P : RecoveryParams) : Decidable (FewMessages P) :=
  inferInstanceAs (Decidable (_ ∨ _ ∧ _))

/-- The ids so far fit into the attempts so far. -/
def IdsFit (P : RecoveryParams) (ctx : RecoveryContext) : Prop :=
  ctx.state = .Failed ∨
    0 ≤ ctx.nFailedAttempts ∧ ctx.nFailedAttempts + 1 ≤ max 1 P.attemptsMax ∧
    ctx.aliveMsgNextId + (if ctx.aliveMsgPosted then 0 else i32 P.aliveMsgSequenceSize) ≤
      i32 P.aliveMsgSequenceSize * (ctx.nFailedAttempts + 1)

theorem IdsFit.bound (hP : FewMessages P) (hn : i32 P.aliveMsgSequenceSize ≤ 10)
    (hids : IdsFit P ctx) (hs : ctx.state = .AliveMessages) (hp : ctx.aliveMsgPosted = false) :
    ctx.aliveMsgNextId + i32 P.aliveMsgSequenceSize ≤ 0x1234 ∧ 1 ≤ i32 P.aliveMsgSequenceSize := by
  obtain hbig | ⟨hone, hfew⟩ := hP
  · omega
  · obtain hf | ⟨h0, hmax, hids⟩ := hids
    · rw [hs] at hf; cases hf
    · simp only [hp, Bool.false_eq_true, if_false] at hids
      have hmul : i32 P.aliveMsgSequenceSize * (ctx.nFailedAttempts + 1) ≤
          i32 P.aliveMsgSequenceSize * max 1 P.attemptsMax :=
        Int.mul_le_mul_of_nonneg_left hmax (by omega)
      unfold NCCL_IB_RESILIENCY_PORT_RECOVERY_ACK_MSG_ID at hfew
      exact ⟨by omega, hone⟩

/-- No alive message carries the id of the ACK. -/
theorem aliveWrs_lt (hP : FewMessages P) (hids : IdsFit P ctx)
    (h : SenderDoes P env stage ctx ctx' next effects) {id : Nat}
    (he : .aliveMessage id ∈ effects) : id < NCCL_IB_RESILIENCY_PORT_RECOVERY_ACK_MSG_ID := by
  obtain ⟨hs, hp, hn, hid⟩ := h.postsAlive he
  obtain ⟨hbound, hone⟩ := hids.bound hP hn hs hp
  unfold aliveWrs at hid
  rw [if_neg (by omega)] at hid
  obtain ⟨i, hi, rfl⟩ := List.mem_map.mp hid
  have hlt := List.mem_range.mp hi
  have : (ctx.aliveMsgNextId + i) % 2 ^ 32 ≤ ctx.aliveMsgNextId + i := Nat.mod_le ..
  unfold NCCL_IB_RESILIENCY_PORT_RECOVERY_ACK_MSG_ID
  omega

theorem SenderDoes.idsFit (hP : FewMessages P) (h : SenderDoes P env stage ctx ctx' next effects)
    (hids : IdsFit P ctx) : IdsFit P ctx' := by
  cases h with
  | fails _ _ hs _ _ _ => exact .inl hs
  | rest _ => exact hids
  | posts hs hp hn =>
    obtain ⟨hbound, hone⟩ := hids.bound hP hn hs hp
    obtain hf | ⟨h0, hmax, hfit⟩ := hids
    · rw [hs] at hf; cases hf
    · refine .inr ⟨h0, hmax, ?_⟩
      simp only [hp, Bool.false_eq_true, if_false] at hfit
      have hmod : (ctx.aliveMsgNextId + (i32 P.aliveMsgSequenceSize).toNat) % 2 ^ 32 ≤
          ctx.aliveMsgNextId + (i32 P.aliveMsgSequenceSize).toNat := Nat.mod_le ..
      simp only [if_true]
      omega
  | goesBack hs _ _ hleft =>
    obtain hf | ⟨h0, hmax, hfit⟩ := hids
    · rw [hs] at hf; cases hf
    · obtain hbig | ⟨hone, -⟩ := hP
      · refine .inr ⟨by simp only; omega, by simp only; omega, ?_⟩
        simp only [Bool.false_eq_true, if_false, Int.mul_add, Int.mul_one] at hfit ⊢
        split at hfit <;> omega
      · refine .inr ⟨by simp only; omega, by simp only; omega, ?_⟩
        simp only [Bool.false_eq_true, if_false, Int.mul_add, Int.mul_one] at hfit ⊢
        split at hfit <;> omega
  | starts hs =>
    obtain hf | hfit := hids
    · rw [hs] at hf; cases hf
    · exact .inr hfit
  | batchDone hs _ _ | hears hs _ _ _ | answers hs _ _ _ | finishes hs _ _ =>
    obtain hf | hfit := hids
    · rw [hs] at hf; cases hf
    · exact .inr hfit

/-- All alive messages that can come to the receiver have smaller ids than the ACK. -/
structure FewGood (P : RecoveryParams) (s : Pair) : Prop where
  side : s.sender.ctx.isSend = true
  final : s.sender.stage = .final → s.sender.ctx.state = .Ack ∧
    s.sender.ctx.ackReceived = true ∧ s.sender.ctx.ackPosted = true
  alives : ∀ id, .alive id ∈ s.toReceiver ∨ .recv (.alive id) ∈ s.receiver.cq →
    id < NCCL_IB_RESILIENCY_PORT_RECOVERY_ACK_MSG_ID
  ids : IdsFit P s.sender.ctx

theorem FewGood.noFalseAck (h : FewGood P s) (a : PairAct) : NoFalseAck a s := by
  cases a with
  | receiverStage env =>
    rintro ⟨-, -, -, hhead⟩
    exact Nat.lt_irrefl _ (h.alives _ (.inr (List.mem_of_mem_head? (by rw [hhead]; rfl))))
  | _ => trivial

theorem FewGood.moves (h : FewGood P s) {sp rp : Party} {toReceiver toSender : List Msg}
    (hctx : sp.ctx = s.sender.ctx) (hf : sp.stage = .final → s.sender.stage = .final)
    (halives : ∀ m, m ∈ toReceiver ∨ .recv m ∈ rp.cq →
      m ∈ s.toReceiver ∨ .recv m ∈ s.receiver.cq) :
    FewGood P ⟨sp, rp, toReceiver, toSender⟩ := by
  refine ⟨?_, fun hfinal => ?_, fun id hid => h.alives id (halives _ hid), ?_⟩
  · simpa [hctx] using h.side
  · simpa [hctx] using h.final (hf hfinal)
  · simpa [hctx] using h.ids

theorem FewGood.senderStage (hP : FewMessages P) (h : FewGood P s)
    (ht : pairAct P (.senderStage env) s = some t) : FewGood P t := by
  obtain ⟨⟨q, msgs⟩, hq, rfl⟩ := Option.map_eq_some_iff.mp ht
  obtain ⟨rfl, rfl⟩ | ⟨ctx, next, effects, hstage, -, rfl, rfl⟩ := Party.runStage_cases hq
  · exact h.moves rfl id (by simp)
  · have hdoes := sender_does h.side (fun hf => ⟨(h.final hf).1, (h.final hf).2.1⟩) hstage
    refine ⟨hdoes.owner.isSend.trans h.side, hdoes.final, ?_, hdoes.idsFit hP h.ids⟩
    rintro id (hid | hid)
    · rcases List.mem_append.mp hid with hid | hid
      · exact h.alives id (.inl hid)
      · rcases mem_posts hid with ⟨hf, -⟩ | ⟨id', hid', he⟩
        · cases hf
        · cases hid'
          exact aliveWrs_lt hP h.ids hdoes he
    · exact h.alives id (.inr hid)

theorem FewGood.act (hP : FewMessages P) (h : FewGood P s) {a : PairAct}
    (ht : pairAct P a s = some t) : FewGood P t := by
  cases a with
  | senderStage env => exact h.senderStage hP ht
  | receiverStage env =>
    obtain ⟨⟨q, msgs⟩, hq, rfl⟩ := Option.map_eq_some_iff.mp ht
    obtain ⟨rfl, rfl⟩ | ⟨ctx, next, effects, -, -, rfl, rfl⟩ := Party.runStage_cases hq
    · exact h.moves rfl id (fun m hm => hm)
    · exact h.moves rfl id (fun m hm => hm.imp id Party.mem_cqAfter)
  | senderCall =>
    obtain ⟨q, hq, rfl⟩ := Option.map_eq_some_iff.mp ht
    obtain rfl := Party.call_cases hq
    exact h.moves rfl (by simp) (fun m hm => hm)
  | receiverCall =>
    obtain ⟨q, hq, rfl⟩ := Option.map_eq_some_iff.mp ht
    obtain rfl := Party.call_cases hq
    exact h.moves rfl id (fun m hm => hm)
  | senderCompletes =>
    obtain ⟨q, hq, rfl⟩ := Option.map_eq_some_iff.mp ht
    obtain ⟨n, -, rfl⟩ := Party.complete_cases hq
    exact h.moves rfl id (fun m hm => hm)
  | receiverCompletes =>
    obtain ⟨q, hq, rfl⟩ := Option.map_eq_some_iff.mp ht
    obtain ⟨n, -, rfl⟩ := Party.complete_cases hq
    exact h.moves rfl id (by simp)
  | toReceiver =>
    simp only [pairAct] at ht
    split at ht
    · cases ht
    · rename_i m ms hms
      cases ht
      refine h.moves rfl id (fun m' hm => ?_)
      simp only [Party.arrives, hms, List.mem_append, List.mem_cons, Cqe.recv.injEq,
        List.not_mem_nil, or_false] at hm ⊢
      tauto
  | toSender =>
    simp only [pairAct] at ht
    split at ht
    · cases ht
    · cases ht
      exact h.moves rfl id (fun m hm => hm)
  | loseToReceiver n =>
    cases ht
    exact h.moves rfl id (fun m hm => hm.imp List.mem_of_mem_drop id)
  | loseToSender n =>
    cases ht
    exact h.moves rfl id (fun m hm => hm)
  | senderError =>
    cases ht
    exact h.moves rfl id (fun m hm => hm)
  | receiverError =>
    cases ht
    exact h.moves rfl id (by simp [Party.arrives])

theorem PairInit.few (h : PairInit s) : FewGood P s := by
  obtain ⟨sender, receiver, toReceiver, toSender⟩ := s
  obtain ⟨htr, hts, ⟨r, d, time, hs⟩, ⟨r', d', time', hr⟩⟩ := h
  dsimp only at htr hts hs hr
  subst htr hts hs hr
  refine ⟨rfl, by simp, by simp, .inr ⟨Int.le_refl 0, Int.le_max_left 1 P.attemptsMax, ?_⟩⟩
  simp

/-- With few enough messages no run comes to an alive message with the id of the ACK. -/
theorem few_messages_are_no_ack (hP : FewMessages P) (h : Reachable (pairSystem P) s) :
    Reachable (ackSystem P) s ∧ FewGood P s := by
  induction h with
  | init h0 => exact ⟨.init h0, h0.few⟩
  | step _ ht ih =>
    obtain ⟨a, ht⟩ := ht
    exact ⟨ih.1.step ⟨a, ih.2.noFalseAck a, ht⟩, ih.2.act hP ht⟩

/-! ## Success is sound -/

/-- Success of an end tells that the other end has answered, and only an ACK was ever
taken for an ACK. -/
structure SoundSuccess (s : Pair) : Prop where
  receiver : s.receiver.ctx.state = .Success → s.SenderAnswered
  sender : s.sender.ctx.state = .Success → s.ReceiverAnswered
  heard : ∀ m, m ∈ s.sender.heard ∨ m ∈ s.receiver.heard → m = .ack

theorem PairGood.sound (h : PairGood s) : SoundSuccess s :=
  ⟨fun hs => h.receiverHeard (h.receiverDone hs),
    fun hs => (h.senderHeard (h.senderDone hs)).1, h.heard⟩

/-- The receiver takes the alive message for the final ACK. -/
theorem PairGood.takes_alive (h : PairGood s) (htakes : s.receiver.TakesAliveForAck env)
    (ht : pairAct P (.receiverStage env) s = some t) :
    .alive NCCL_IB_RESILIENCY_PORT_RECOVERY_ACK_MSG_ID ∈ t.receiver.heard := by
  obtain ⟨hstage, hs, hworks, hhead⟩ := htakes
  obtain ⟨cq, hcq⟩ : ∃ cq, s.receiver.cq =
      .recv (.alive NCCL_IB_RESILIENCY_PORT_RECOVERY_ACK_MSG_ID) :: cq := by
    cases hcq : s.receiver.cq with
    | nil => rw [hcq] at hhead; cases hhead
    | cons cqe cq => rw [hcq] at hhead; cases hhead; exact ⟨cq, rfl⟩
  have hr : s.receiver.ctx.ackReceived = false := by
    by_contra hne
    have hdone := h.receiverFresh (by simpa using hne)
    simp [RecoveryContext.isDone, hs] at hdone
  have hpolled : s.receiver.polled env =
      .got (Cqe.recv (.alive NCCL_IB_RESILIENCY_PORT_RECOVERY_ACK_MSG_ID)).wc := by
    simp only [Party.polled, if_neg hworks, hcq]
  obtain ⟨⟨q, msgs⟩, hq, rfl⟩ := Option.map_eq_some_iff.mp ht
  unfold Party.runStage at hq
  split at hq
  · cases hq
  · rw [hpolled, hstage] at hq
    simp [contextStage, hs, ackStage, h.receiverSide, ncclIbPortRecoveryProgressAckReceiver,
      ncclIbPortRecoveryPollCq, Cqe.wc, Msg.imm_data, ncclIbPortRecoveryHandleCompletionReceiver,
      ackSwitch, Party.hears, hr, hcq] at hq
    simp [← hq.1]

/-- In every run of the protocol in which the receiver polls no alive message with the
id of the ACK for the final ACK, whatever is lost and whenever the timers run out,
success is sound; a step that polls such a message takes it for the ACK. -/
theorem recovery_success_is_sound (P : RecoveryParams) (s : Pair)
    (h : Reachable (ackSystem P) s) :
    SoundSuccess s ∧ ∀ a t, pairAct P a s = some t → (SoundSuccess t ↔ NoFalseAck a s) := by
  have hgood := good_reachable h
  refine ⟨hgood.sound, fun a t ht => ⟨fun hsound => ?_, fun hsafe => (good_pairAct hgood hsafe ht).sound⟩⟩
  cases a with
  | receiverStage env =>
    intro htakes
    have := hsound.heard _ (.inr (hgood.takes_alive htakes ht))
    cases this
  | _ => trivial

/-- A run of the protocol over a list of steps. -/
def Pair.run (P : RecoveryParams) : List PairAct → Pair → Option Pair
  | [], s => some s
  | a :: as, s => (pairAct P a s).bind (Pair.run P as)

theorem Pair.run_reachable {as : List PairAct} (h : Reachable (pairSystem P) s)
    (hrun : Pair.run P as s = some t) : Reachable (pairSystem P) t := by
  induction as generalizing s with
  | nil => cases hrun; exact h
  | cons a as ih =>
    obtain ⟨u, hu, hrun⟩ := Option.bind_eq_some_iff.mp hrun
    exact ih (h.step ⟨a, hu⟩) hrun

/-- Both ends at their start, with one data QP each. -/
def newPair : Pair where
  sender := { ctx := { resCtx := 0, devIndex := 0, isSend := true } }
  receiver := { ctx := { resCtx := 1, devIndex := 0, isSend := false } }

theorem init_newPair : PairInit newPair :=
  ⟨rfl, rfl, ⟨0, 0, 0, rfl⟩, ⟨1, 0, 0, rfl⟩⟩

/-- What a stage of the sender or of the receiver meets at a time in milliseconds. -/
def senderAt (msec : Nat) : StageEnv where
  now := msec * 10 ^ 6
  nowMsg := msec * 10 ^ 6
  comm := { isSend := true, qps := [⟨0, true⟩] }

def receiverAt (msec : Nat) : StageEnv where
  now := msec * 10 ^ 6
  nowMsg := msec * 10 ^ 6
  comm := { isSend := false, qps := [⟨0, true⟩] }

/-- A whole call of the progress function. -/
def senderCalls (msec : Nat) : List PairAct :=
  [.senderStage (senderAt msec), .senderStage (senderAt msec), .senderStage (senderAt msec),
    .senderCall]

def receiverCalls (msec : Nat) : List PairAct :=
  [.receiverStage (receiverAt msec), .receiverStage (receiverAt msec),
    .receiverStage (receiverAt msec), .receiverCall]

/-- Two batches of five come, and the receiver answers the sixth message. -/
def answersSixth : List PairAct :=
  senderCalls 1000 ++ .senderCompletes :: senderCalls 6001 ++ senderCalls 6001 ++
    List.replicate 6 .toReceiver ++ [.loseToReceiver 4] ++
    (List.replicate 6 (receiverCalls 6001)).flatten ++ .receiverCompletes :: receiverCalls 6001

/-- The sender has the ACK, answers and is done, and so is the receiver. -/
def bothSucceed : List PairAct :=
  answersSixth ++ [.senderCompletes, .toSender] ++ List.replicate 4 (.senderStage (senderAt 6001)) ++
    [.senderCall, .senderCompletes] ++ List.replicate 4 (.senderStage (senderAt 6001)) ++
    .toReceiver :: (receiverCalls 6001).take 3

/-- Both ends can come to success. -/
theorem both_ends_succeed : ∃ s, Reachable (ackSystem {}) s ∧ s.sender.ctx.state = .Success ∧
    s.receiver.ctx.state = .Success ∧ SoundSuccess s := by
  have hrun : ∃ t, Pair.run {} bothSucceed newPair = some t ∧ t.sender.ctx.state = .Success ∧
      t.receiver.ctx.state = .Success := ⟨_, rfl, by decide +kernel, by decide +kernel⟩
  obtain ⟨t, hrun, hs, hr⟩ := hrun
  have hreach := Pair.run_reachable (Reachable.init init_newPair) hrun
  have hacks := (few_messages_are_no_ack (by decide) hreach).1
  exact ⟨t, hacks, hs, hr, (recovery_success_is_sound {} t hacks).1⟩

/-! ## An alive message with the id of the ACK -/

theorem Party.runStage_ok (hdead : p.dead = false)
    (hstage : p.stage ≠ .finish)
    (h : contextStage P { env with poll := p.polled env } p.stage p.ctx = .ok (ctx, next, effects)) :
    p.runStage P env = some ({ p with
        ctx := ctx
        stage := next
        cq := p.cqAfter env effects
        sends := p.sends + signaled effects
        log := p.log ++ effects
        heard := p.heard ++ p.hears ctx }, effects.filterMap Effect.msg) := by
  unfold Party.runStage
  rw [if_neg (by simp [hdead, hstage]), h]

theorem contextStage_start (hs : ctx.state = .AliveMessages) :
    contextStage P env .start ctx = .ok (ctx, .alive, []) := by
  simp [contextStage, startStage, hs]

theorem contextStage_skipsAck (hs : ctx.state = .AliveMessages) :
    contextStage P env .ack ctx = .ok (ctx, .finish, []) := by
  simp [contextStage, hs]

theorem contextStage_batchDone (hs : ctx.state = .AliveMessages) (hside : ctx.isSend = true)
    (hp : ctx.aliveMsgPosted = true) (hc : ctx.aliveMsgCompleted = false)
    (hpoll : env.poll = .got Cqe.send.wc) :
    contextStage P env .alive ctx =
      .ok ({ ctx with aliveMsgCompleted := true, state := .Ack }, .ack, []) := by
  simp [contextStage, ncclIbPortRecoveryProgressAliveMessages,
    ncclIbPortRecoveryProgressAliveMessagesSender, ncclIbPortRecoveryPollCq,
    ncclIbPortRecoveryHandleCompletionSender, Cqe.wc, hs, hside, hp, hc, hpoll]

theorem contextStage_goesBack (hs : ctx.state = .Ack) (hside : ctx.isSend = true)
    (hr : ctx.ackReceived = false) (hpoll : env.poll = .empty)
    (htime : elapsed env.now ctx.timeLastMsg > nanos P.ackTimeout)
    (hleft : ctx.nFailedAttempts + 1 < P.attemptsMax) :
    contextStage P env .ack ctx =
      .ok ({ ctx with
        nFailedAttempts := ctx.nFailedAttempts + 1
        aliveMsgPosted := false
        aliveMsgCompleted := false
        state := .AliveMessages }, .finish, []) := by
  simp [contextStage, ackStage, ackSenderReceive, ncclIbPortRecoveryPollCq, ackSenderTimeout,
    ackSwitch, hs, hside, hr, hpoll, htime, Int.not_le.mpr hleft]

theorem contextStage_posts (hs : ctx.state = .AliveMessages) (hside : ctx.isSend = true)
    (hp : ctx.aliveMsgPosted = false) (hpost : env.postSend = none)
    (hlow : 1 ≤ i32 P.aliveMsgSequenceSize) (hhigh : i32 P.aliveMsgSequenceSize ≤ 10)
    (htime : ¬elapsed env.now ctx.timeLastMsg < nanos P.aliveMsgBatchInterval) :
    contextStage P env .alive ctx = .ok ({ ctx with
        aliveMsgNextId := (ctx.aliveMsgNextId + (i32 P.aliveMsgSequenceSize).toNat) % 2 ^ 32
        timeLastMsg := env.nowMsg
        aliveMsgPosted := true }, .ack,
      ((List.range (i32 P.aliveMsgSequenceSize).toNat).map
        (fun i => (ctx.aliveMsgNextId + i) % 2 ^ 32)).map .aliveMessage) := by
  have h10 : ¬i32 P.aliveMsgSequenceSize >
      NCCL_IB_RESILIENCY_PORT_RECOVERY_ALIVE_MSG_BATCH_SIZE_MAX := by
    unfold NCCL_IB_RESILIENCY_PORT_RECOVERY_ALIVE_MSG_BATCH_SIZE_MAX
    omega
  have h1 : ¬i32 P.aliveMsgSequenceSize < 1 := by omega
  simp only [contextStage, ncclIbPortRecoveryProgressAliveMessages,
    ncclIbPortRecoveryProgressAliveMessagesSender, ncclIbPortRecoveryPostAliveMessages,
    if_pos hs, if_pos hside, hp, hpost, Bool.not_false, if_true, if_neg h10, if_neg h1, if_neg htime]

/-- Batches of ten, and attempts enough to come to message 0x1234. -/
def manyMessages : RecoveryParams := { aliveMsgSequenceSize := 10, attemptsMax := 467 }

/-- The sender has posted its batch `k`, of the messages from `10 * k` on. -/
def batchContext (k : Nat) : RecoveryContext where
  resCtx := 0
  devIndex := 0
  isSend := true
  state := .AliveMessages
  nFailedAttempts := k
  timeLastMsg := 5001 * (k + 1) * 10 ^ 6
  aliveMsgNextId := 10 * (k + 1)
  aliveMsgPosted := true

/-- The ids of batch `k`. -/
def batch (k : Nat) : List Nat := (List.range 10).map (10 * k + ·)

/-- What the sender has posted with its batches up to `k`. -/
def batchLog : Nat → List Effect
  | 0 => (batch 0).map .aliveMessage
  | k + 1 => batchLog k ++ (batch (k + 1)).map .aliveMessage

/-- The sender is alone: its messages are lost and nothing comes. -/
def alone (ctx : RecoveryContext) (stage : Stage) (cq : List Cqe) (sends : Nat)
    (log : List Effect) (msgs : List Msg) : Pair where
  sender := { ctx, stage, cq, sends, log }
  receiver := newPair.receiver
  toReceiver := msgs

/-- The sender has posted batch `k` and the batches before it are lost. -/
def batchPosted (k : Nat) : Pair := alone (batchContext k) .start [] 1 (batchLog k) ((batch k).map .alive)

theorem elapsed_round (k : Nat) :
    elapsed (5001 * (k + 2) * 10 ^ 6) (5001 * (k + 1) * 10 ^ 6) = 5001 * 10 ^ 6 := by
  unfold elapsed u64
  omega

theorem batch_ids {k : Nat} (hk : k < 467) :
    (List.range 10).map (fun i => (10 * k + i) % 2 ^ 32) = batch k := by
  refine List.map_congr_left (fun i hi => ?_)
  have := List.mem_range.mp hi
  omega

theorem posts_batch (ids : List Nat) :
    (ids.map Effect.aliveMessage).filterMap Effect.msg = ids.map .alive := by
  induction ids with
  | nil => rfl
  | cons id ids ih => simp [Effect.msg, ih]

variable {cq cq' : List Cqe} {sends : Nat} {log : List Effect}

theorem alone_stage (h : Reachable (pairSystem P) (alone ctx stage cq sends log msgs))
    (hstage : stage ≠ .finish) (env : StageEnv)
    (hctx : contextStage P { env with poll := (alone ctx stage cq sends log msgs).sender.polled env }
      stage ctx = .ok (ctx', next, effects))
    (hcq : (alone ctx stage cq sends log msgs).sender.cqAfter env effects = cq')
    (hr : ctx'.ackReceived = false) :
    Reachable (pairSystem P) (alone ctx' next cq' (sends + signaled effects) (log ++ effects)
      (msgs ++ effects.filterMap Effect.msg)) := by
  refine h.step ⟨.senderStage env, ?_⟩
  rw [pairAct, Party.runStage_ok rfl hstage hctx, hcq]
  simp [alone, Party.hears, hr]

/-- A stage that does nothing outside of the context. -/
theorem alone_quiet (h : Reachable (pairSystem P) (alone ctx stage cq sends log msgs))
    (hstage : stage ≠ .finish) (env : StageEnv)
    (hctx : contextStage P { env with poll := (alone ctx stage cq sends log msgs).sender.polled env }
      stage ctx = .ok (ctx', next, []))
    (hcq : (alone ctx stage cq sends log msgs).sender.cqAfter env [] = cq')
    (hr : ctx'.ackReceived = false) :
    Reachable (pairSystem P) (alone ctx' next cq' sends log msgs) := by
  simpa [signaled] using alone_stage h hstage env hctx hcq hr

theorem alone_call (h : Reachable (pairSystem P) (alone ctx .finish cq sends log msgs))
    (hdone : ctx.isDone = false) :
    Reachable (pairSystem P) (alone ctx .start cq sends log msgs) := by
  refine h.step ⟨.senderCall, ?_⟩
  simp [pairAct, Party.call, alone, hdone]

theorem batch_lost {k : Nat} (hk : k + 1 < 467)
    (h : Reachable (pairSystem manyMessages) (batchPosted k)) :
    Reachable (pairSystem manyMessages) (batchPosted (k + 1)) := by
  let env := senderAt (5001 * (k + 2))
  -- The batch is lost and its completion comes.
  have hlost : Reachable (pairSystem manyMessages)
      (alone (batchContext k) .start [] 1 (batchLog k) []) :=
    h.step ⟨.loseToReceiver 10, rfl⟩
  have hdone : Reachable (pairSystem manyMessages)
      (alone (batchContext k) .start [.send] 0 (batchLog k) []) :=
    hlost.step ⟨.senderCompletes, rfl⟩
  -- The call that finds the completion and goes back.
  have hpassed : elapsed env.now (batchContext k).timeLastMsg = 5001 * 10 ^ 6 := elapsed_round k
  have hleft : (batchContext k).nFailedAttempts + 1 < 467 := by simp only [batchContext]; omega
  have hack := alone_quiet (alone_quiet hdone (by simp) env (contextStage_start rfl) rfl rfl)
    (by simp) env (contextStage_batchDone rfl rfl rfl rfl rfl) rfl rfl
  have hback := alone_call (alone_quiet hack (by simp) env
    (contextStage_goesBack rfl rfl rfl rfl (hpassed ▸ by decide) hleft) rfl rfl) rfl
  -- The call that posts the next batch.
  have hposts := alone_stage (alone_quiet hback (by simp) env (contextStage_start rfl) rfl rfl)
    (by simp) env (contextStage_posts rfl rfl rfl rfl (by decide) (by decide)
      (hpassed ▸ by decide)) rfl rfl
  have hnext : Reachable (pairSystem manyMessages) (alone
      { batchContext (k + 1) with aliveMsgNextId := (10 * (k + 1) + 10) % 2 ^ 32 } .start [] 1
      (batchLog k ++
        ((List.range 10).map (fun i => (10 * (k + 1) + i) % 2 ^ 32)).map .aliveMessage)
      ((((List.range 10).map (fun i => (10 * (k + 1) + i) % 2 ^ 32)).map
        Effect.aliveMessage).filterMap Effect.msg)) :=
    alone_call (alone_quiet hposts (by simp) env (contextStage_skipsAck rfl) rfl rfl) rfl
  have hid : (10 * (k + 1) + 10) % 2 ^ 32 = 10 * (k + 1 + 1) := by omega
  rw [hid, batch_ids hk, posts_batch] at hnext
  exact hnext

theorem batches_lost {k : Nat} (hk : k < 467) :
    Reachable (pairSystem manyMessages) (batchPosted k) := by
  induction k with
  | zero =>
    have hrun : Pair.run manyMessages (senderCalls 5001) newPair = some (batchPosted 0) := rfl
    exact Pair.run_reachable (Reachable.init init_newPair) hrun
  | succ k ih => exact batch_lost hk (ih (by omega))

/-- Messages 4640 to 4651 come and the receiver answers. Its ACK is lost, and so are
the messages up to 4659; then message 4660 comes. -/
def aliveForAck : List PairAct :=
  .senderCompletes :: senderCalls (5001 * 466) ++ senderCalls (5001 * 466) ++
    List.replicate 12 .toReceiver ++ [.loseToReceiver 8] ++
    (List.replicate 12 (receiverCalls (5001 * 466))).flatten ++
    [.receiverCompletes, .loseToSender 1] ++ receiverCalls (5001 * 466) ++
    .senderCompletes :: senderCalls (5001 * 467) ++ senderCalls (5001 * 467) ++
    .toReceiver :: (receiverCalls (5001 * 467)).take 3

/-- The receiver ends with success while the sender never had an ACK. -/
theorem an_alive_message_is_taken_for_the_ack :
    ¬∀ P s, Reachable (pairSystem P) s → SoundSuccess s := by
  intro h
  have hend : (Pair.run manyMessages aliveForAck (batchPosted 464)).map (fun t =>
      (t.receiver.ctx.state, t.receiver.heard, t.sender.heard)) =
        some (.Success, [.alive 0x1234], []) := by decide +kernel
  obtain ⟨t, hrun, ht⟩ := Option.map_eq_some_iff.mp hend
  have hsound := h manyMessages t (Pair.run_reachable (batches_lost (by omega)) hrun)
  simp only [Prod.mk.injEq] at ht
  have hanswered := hsound.receiver ht.1
  rw [Pair.SenderAnswered, ht.2.2] at hanswered
  cases hanswered.1

end net_ib.recovery
