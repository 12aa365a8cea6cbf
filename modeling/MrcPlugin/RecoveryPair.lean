-- The recovery protocol between the two ends of a device (p2p_resiliency_recovery.cc):
-- the sender, the receiver, their recovery CQs and the messages between them. Each
-- end runs the stages of its context; messages arrive in order and can be lost.
import MrcPlugin.RecoveryStages
import MrcPlugin.Lib.Runs

namespace net_ib.recovery

open p2p runs

/-! ## The two ends -/

/-- A message on the recovery QP: an alive message with its id, or an ACK. -/
inductive Msg
  | alive (id : Nat)
  | ack
deriving DecidableEq, Repr

/-- The immediate data with which a message arrives. -/
def Msg.imm_data : Msg → Nat
  | .alive id => id
  | .ack => NCCL_IB_RESILIENCY_PORT_RECOVERY_ACK_MSG_ID

/-- An entry of a recovery CQ: a post of this end has completed, a message has come,
or a completion with an error. -/
inductive Cqe
  | send
  | recv (m : Msg)
  | error
deriving DecidableEq, Repr

/-- The work completion of an entry. -/
def Cqe.wc : Cqe → IbvWc
  | .send => ⟨true, 0, .IBV_WC_SEND, 0, 0, 0⟩
  | .recv m => ⟨true, 0, .IBV_WC_RECV, m.imm_data, 0, 0⟩
  | .error => ⟨false, 0, .IBV_WC_SEND, 0, 0, 0⟩

/-- One end: its context, the stage of its call, its CQ and its posts that have not
completed. `dead` is that a stage has returned an error, which ends the thread, or has
read a NULL pointer. `log` is what the stages did, and `heard` the messages that were
taken for an ACK. -/
structure Party where
  ctx : RecoveryContext
  stage : Stage := .start
  cq : List Cqe := []
  sends : Nat := 0
  dead : Bool := false
  log : List Effect := []
  heard : List Msg := []
deriving DecidableEq, Repr

/-- The stage calls `ncclIbPortRecoveryPollCq`. -/
def pollsCq (stage : Stage) (ctx : RecoveryContext) : Bool :=
  match stage with
  | .alive => ctx.state = .AliveMessages ∧ (!ctx.isSend ∨ ctx.aliveMsgPosted)
  | .ack => ctx.state = .Ack ∧ (!ctx.isSend ∨ !ctx.ackReceived)
  | .final => !ctx.ackCompleted
  | _ => false

/-- What a poll of the CQ gives, when it does not fail. -/
def Party.polled (p : Party) (env : StageEnv) : Poll :=
  if env.poll = .fails then .fails
  else
    match p.cq with
    | [] => .empty
    | cqe :: _ => .got cqe.wc

/-- The CQ after a stage: a poll takes one entry, and draining takes all. -/
def Party.cqAfter (p : Party) (env : StageEnv) (effects : List Effect) : List Cqe :=
  if .drained ∈ effects then []
  else if pollsCq p.stage p.ctx ∧ env.poll ≠ .fails then p.cq.tail
  else p.cq

/-- The message that an effect posts. -/
def Effect.msg : Effect → Option Msg
  | .aliveMessage id => some (.alive id)
  | .ack => some .ack
  | _ => none

/-- The posts of a stage that give a completion: the last alive message of a batch,
or an ACK. -/
def signaled (effects : List Effect) : Nat := if effects.filterMap Effect.msg = [] then 0 else 1

/-- The message with which a stage sets `ackReceived`. -/
def Party.hears (p : Party) (ctx : RecoveryContext) : List Msg :=
  if !p.ctx.ackReceived ∧ ctx.ackReceived then
    match p.cq with
    | .recv m :: _ => [m]
    | _ => []
  else []

/-- One stage of an end, and the messages it posts. -/
def Party.runStage (P : RecoveryParams) (env : StageEnv) (p : Party) : Option (Party × List Msg) :=
  if p.dead ∨ p.stage = .finish then none
  else
    match contextStage P { env with poll := p.polled env } p.stage p.ctx with
    | .error _ => some ({ p with dead := true }, [])
    | .ok (ctx, next, effects) =>
      some ({ p with
        ctx := ctx
        stage := next
        cq := p.cqAfter env effects
        sends := p.sends + signaled effects
        log := p.log ++ effects
        heard := p.heard ++ p.hears ctx }, effects.filterMap Effect.msg)

/-- The thread calls the progress function again, for a context that is not done. -/
def Party.call (p : Party) : Option Party :=
  if p.stage = .finish ∧ !p.ctx.isDone ∧ !p.dead then some { p with stage := .start }
  else none

/-- A post of the end completes. -/
def Party.complete (p : Party) : Option Party :=
  match p.sends with
  | 0 => none
  | n + 1 => some { p with sends := n, cq := p.cq ++ [.send] }

def Party.arrives (p : Party) (cqe : Cqe) : Party := { p with cq := p.cq ++ [cqe] }

/-! ## The protocol -/

/-- The two ends and the messages on their way. -/
structure Pair where
  sender : Party
  receiver : Party
  toReceiver : List Msg := []
  toSender : List Msg := []
deriving DecidableEq, Repr

inductive PairAct
  | senderStage (env : StageEnv)
  | receiverStage (env : StageEnv)
  | senderCall
  | receiverCall
  | senderCompletes
  | receiverCompletes
  | toReceiver
  | toSender
  | loseToReceiver (n : Nat)
  | loseToSender (n : Nat)
  | senderError
  | receiverError

/-- One step of the protocol. The losses take the first messages. -/
def pairAct (P : RecoveryParams) (a : PairAct) (s : Pair) : Option Pair :=
  match a with
  | .senderStage env =>
    (s.sender.runStage P env).map (fun out =>
      { s with sender := out.1, toReceiver := s.toReceiver ++ out.2 })
  | .receiverStage env =>
    (s.receiver.runStage P env).map (fun out =>
      { s with receiver := out.1, toSender := s.toSender ++ out.2 })
  | .senderCall => s.sender.call.map (fun p => { s with sender := p })
  | .receiverCall => s.receiver.call.map (fun p => { s with receiver := p })
  | .senderCompletes => s.sender.complete.map (fun p => { s with sender := p })
  | .receiverCompletes => s.receiver.complete.map (fun p => { s with receiver := p })
  | .toReceiver =>
    match s.toReceiver with
    | [] => none
    | m :: ms => some { s with receiver := s.receiver.arrives (.recv m), toReceiver := ms }
  | .toSender =>
    match s.toSender with
    | [] => none
    | m :: ms => some { s with sender := s.sender.arrives (.recv m), toSender := ms }
  | .loseToReceiver n => some { s with toReceiver := s.toReceiver.drop n }
  | .loseToSender n => some { s with toSender := s.toSender.drop n }
  | .senderError => some { s with sender := s.sender.arrives .error }
  | .receiverError => some { s with receiver := s.receiver.arrives .error }

/-- Both ends start with a new context. -/
def PairInit (s : Pair) : Prop :=
  s.toReceiver = [] ∧ s.toSender = [] ∧
    (∃ r d time, s.sender = { ctx :=
      { resCtx := r, devIndex := d, isSend := true, timeInit := time } }) ∧
    ∃ r d time, s.receiver = { ctx :=
      { resCtx := r, devIndex := d, isSend := false, timeInit := time } }

/-- The protocol with losses and errors. -/
def pairSystem (P : RecoveryParams) : System Pair where
  init := PairInit
  step s t := ∃ a, pairAct P a s = some t

end net_ib.recovery
