-- The port recovery of one device (p2p_resiliency_recovery.cc): the context, how
-- a completion of the recovery CQ changes it, and the stages that one call of
-- `ncclIbPortRecoveryContextProgress` runs. The sender of the protocol is the
-- send comm, which posts alive messages; the receive comm answers with an ACK.
import MrcPlugin.Completion

namespace net_ib.recovery

open p2p

/-! ## The log level -/

def NCCL_LOG_INFO : Nat := 3

def NCCL_LOG_TRACE : Nat := 5

/-- The level of the plugin, which nothing changes: the logger of NCCL filters. -/
def ncclDebugLevel : Nat := NCCL_LOG_TRACE

/-- Whether INFO evaluates its arguments. -/
def logsInfo : Bool := ncclDebugLevel ≥ NCCL_LOG_INFO

/-! ## The data -/

def MSEC_TO_NSEC : Int := 1000000

def NCCL_IB_RESILIENCY_PORT_RECOVERY_ALIVE_MSG_BATCH_SIZE_MAX : Int := 10

def NCCL_IB_RESILIENCY_PORT_RECOVERY_ACK_MSG_ID : Nat := 0x1234

/-- The `NCCL_IB_RESILIENCY_PORT_RECOVERY_*` parameters that the recovery reads.
The times are in milliseconds. -/
structure RecoveryParams where
  startDelay : Int := 200
  aliveMsgBatchInterval : Int := 500
  aliveMsgSequenceSize : Int := 5
  aliveMsgTimeout : Int := 4000
  ackTimeout : Int := 5000
  attemptsMax : Int := 20
deriving DecidableEq, Repr

/-- `ncclIbPortRecoveryState`. -/
inductive RecoveryState
  | Init
  | AliveMessages
  | Ack
  | Success
  | Failed
deriving DecidableEq, Repr

/-- `ncclIbPortRecoveryContext`, with `isSend` of its comm. The source keeps the
last three fields in a union: the first two are the sender's, the third the
receiver's. -/
structure RecoveryContext where
  resCtx : Nat
  devIndex : Nat
  isSend : Bool
  state : RecoveryState := .Init
  timeInit : Nat := 0
  nFailedAttempts : Int := 0
  timeLastMsg : Nat := 0
  aliveMsgNextId : Nat := 0
  ackReceived : Bool := false
  ackPosted : Bool := false
  ackCompleted : Bool := false
  aliveMsgPosted : Bool := false
  aliveMsgCompleted : Bool := false
  nInOrderMsgsReceived : Int := 0
deriving DecidableEq, Repr

/-- `ncclIbPortRecoveryStateProgressResult`. -/
inductive ProgressResult
  | InProgress
  | GoToNextState
  | GoToPrevState
  | Failed
deriving DecidableEq, Repr

/-- What `wrap_ibv_poll_cq` gives for one completion. -/
inductive Poll
  | fails
  | empty
  | got (wc : IbvWc)
deriving DecidableEq, Repr

/-- A data QP: its device and whether its `qp` pointer is set. A data QP that is an
MRC QP has only `mrcQp`. -/
structure RecoveryQp where
  devIndex : Nat
  qp : Bool
deriving DecidableEq, Repr

/-- What the recovery reads of a comm. `flushQps` is `flushEnabled` and
`flushQpsCreated`; a flush QP is no MRC QP. -/
structure RecoveryComm where
  isSend : Bool
  qps : List RecoveryQp
  flushQps : Bool := false
deriving DecidableEq, Repr

/-- What a stage meets outside of the context: the clock, the recovery CQ, the
data QPs of the comm and which calls of the provider succeed. `postRecvs` is the
loop that posts a batch of receive work requests after `postRecv`, `postSend` how
many work requests a failing `ibv_post_send` takes, `stack` what is posted from a
work request that the code has not filled in, and `qpsReconfigured` the result of
`ncclIbResiliencyQpsReconfigure`, which skips a QP without a pointer. `destroyed` are
the data QPs that a close destroys after INFO has read their number. -/
structure StageEnv where
  now : Nat := 0
  nowMsg : Nat := 0
  poll : Poll := .empty
  postRecv : Bool := true
  postRecvs : Bool := true
  drain : Bool := true
  qpsReconfigured : Bool := true
  comm : RecoveryComm
  destroyed : Nat → Bool := fun _ => false
  reconfigured : Nat → Bool := fun _ => true
  preposted : Nat → Bool := fun _ => true
  flushReconfigured : Bool := true
  postSend : Option Nat := none
  stack : List Nat := []

/-- What a stage does outside of the context, in order. -/
inductive Effect
  | aliveMessage (imm_data : Nat)
  | ack
  | restored
  | drained
deriving DecidableEq, Repr

/-- A time of the source, in `uint64_t` nanoseconds, of a parameter in milliseconds. -/
def nanos (msec : Int) : Nat := u64 (msec * MSEC_TO_NSEC)

/-- `now - then` in `uint64_t`. -/
def elapsed (now before : Nat) : Nat := u64 ((now : Int) - before)

/-! ## The data QPs -/

/-- INFO reads the number of a QP through its `qp` pointer. -/
def readQpNum (qp : RecoveryQp) : Except Stop Unit :=
  if logsInfo ∧ !qp.qp then .error .badPointer else .ok ()

/-- `ncclIbResiliencyQpReconfigure` of a QP; `ok` is whether all its calls of the
provider succeed. -/
def ncclIbResiliencyQpReconfigure (qp ok : Bool) : Except Stop Bool :=
  if !qp then .error (.ret ncclInternalError)
  else .ok ok

/-- The loop of `ncclIbPortRecoveryQpsRestore` over the data QPs from index `qpIndex`. -/
def restoreQps (env : StageEnv) (devIndex : Nat) :
    List RecoveryQp → Nat → Except Stop Bool
  | [], _ => .ok true
  | qp :: qps, qpIndex =>
    if qp.devIndex ≠ devIndex then restoreQps env devIndex qps (qpIndex + 1)
    else
      match readQpNum qp with
      | .error stop => .error stop
      | .ok () =>
        match ncclIbResiliencyQpReconfigure (qp.qp && !env.destroyed qpIndex)
            (env.reconfigured qpIndex) with
        | .error stop => .error stop
        | .ok false => .ok false
        | .ok true =>
          if !env.comm.isSend ∧ !env.preposted qpIndex then .ok false
          else restoreQps env devIndex qps (qpIndex + 1)

/-- `ncclIbPortRecoveryQpsRestore`. It never sets `*success` to true, so on its last
line `*success` is what the caller had there. -/
def ncclIbPortRecoveryQpsRestore (env : StageEnv) (ctx : RecoveryContext) (success : Bool) :
    Except Stop Bool :=
  match restoreQps env ctx.devIndex env.comm.qps 0 with
  | .error stop => .error stop
  | .ok false => .ok false
  | .ok true =>
    if !env.comm.isSend ∧ env.comm.flushQps then
      match ncclIbResiliencyQpReconfigure true env.flushReconfigured with
      | .error stop => .error stop
      | .ok false => .ok false
      | .ok true => .ok success
    else .ok success

/-! ## Completions -/

/-- The part of `ncclIbPortRecoveryHandleCompletionReceiver` that takes an alive
message: it counts the messages that come in order. -/
def takeAliveMessage (env : StageEnv) (ctx : RecoveryContext) (imm_data : Nat) : RecoveryContext :=
  if imm_data = ctx.aliveMsgNextId then
    { ctx with
      nInOrderMsgsReceived := ctx.nInOrderMsgsReceived + 1
      aliveMsgNextId := (ctx.aliveMsgNextId + 1) % 2 ^ 32
      timeLastMsg := env.nowMsg }
  else
    { ctx with
      nInOrderMsgsReceived := 0
      aliveMsgNextId := (imm_data + 1) % 2 ^ 32
      timeLastMsg := env.nowMsg }

/-- `ncclIbPortRecoveryHandleCompletionReceiver`: the context after it and `*success`. -/
def ncclIbPortRecoveryHandleCompletionReceiver (env : StageEnv) (ctx : RecoveryContext)
    (wc : IbvWc) : RecoveryContext × Bool :=
  match ctx.state with
  | .AliveMessages =>
    if ctx.ackPosted then
      if wc.opcode = .IBV_WC_RECV then (ctx, env.postRecv)
      else if wc.opcode ≠ .IBV_WC_SEND then (ctx, false)
      else ({ ctx with ackCompleted := true }, true)
    else if wc.opcode ≠ .IBV_WC_RECV then (ctx, false)
    else (takeAliveMessage env ctx wc.imm_data, env.postRecv)
  | .Ack =>
    if wc.opcode ≠ .IBV_WC_RECV then (ctx, false)
    else if wc.imm_data ≠ NCCL_IB_RESILIENCY_PORT_RECOVERY_ACK_MSG_ID then (ctx, false)
    else ({ ctx with ackReceived := true }, true)
  | _ => (ctx, true)

/-- `ncclIbPortRecoveryHandleCompletionSender`. -/
def ncclIbPortRecoveryHandleCompletionSender (ctx : RecoveryContext) (wc : IbvWc) :
    RecoveryContext × Bool :=
  match ctx.state with
  | .AliveMessages =>
    if wc.opcode = .IBV_WC_SEND then
      if ctx.aliveMsgCompleted then (ctx, false)
      else ({ ctx with aliveMsgCompleted := true }, true)
    else (ctx, false)
  | .Ack =>
    if !ctx.ackReceived then
      if wc.opcode ≠ .IBV_WC_RECV then (ctx, false)
      else if wc.imm_data ≠ NCCL_IB_RESILIENCY_PORT_RECOVERY_ACK_MSG_ID then (ctx, false)
      else ({ ctx with ackReceived := true }, true)
    else if wc.opcode ≠ .IBV_WC_SEND then (ctx, false)
    else ({ ctx with ackCompleted := true }, true)
  | _ => (ctx, true)

/-- `ncclIbPortRecoveryPollCq`. -/
def ncclIbPortRecoveryPollCq (env : StageEnv) (ctx : RecoveryContext) : RecoveryContext × Bool :=
  match env.poll with
  | .fails => (ctx, false)
  | .empty => (ctx, true)
  | .got wc =>
    if !wc.success then (ctx, false)
    else if ctx.isSend then ncclIbPortRecoveryHandleCompletionSender ctx wc
    else ncclIbPortRecoveryHandleCompletionReceiver env ctx wc

/-! ## Posts -/

/-- What a part of a stage gives: the context, `*success` and the effects. -/
structure PostOut where
  ctx : RecoveryContext
  success : Bool
  effects : List Effect

/-- `ncclIbPortRecoveryPostAliveMessages`. With a sequence size below 1 the work
request that is posted was never filled in. -/
def ncclIbPortRecoveryPostAliveMessages (P : RecoveryParams) (env : StageEnv)
    (ctx : RecoveryContext) : Except Stop PostOut :=
  let nMsgsToPost := i32 P.aliveMsgSequenceSize
  if nMsgsToPost > NCCL_IB_RESILIENCY_PORT_RECOVERY_ALIVE_MSG_BATCH_SIZE_MAX then
    .error (.ret ncclInternalError)
  else
    let ids := (List.range nMsgsToPost.toNat).map (fun i => (ctx.aliveMsgNextId + i) % 2 ^ 32)
    let wrs := if nMsgsToPost < 1 then env.stack else ids
    let ctx' := { ctx with
      aliveMsgNextId := (ctx.aliveMsgNextId + nMsgsToPost.toNat) % 2 ^ 32 }
    match env.postSend with
    | some taken => .ok ⟨ctx', false, (wrs.take taken).map .aliveMessage⟩
    | none =>
      .ok ⟨{ ctx' with timeLastMsg := env.nowMsg, aliveMsgPosted := true }, true,
        wrs.map .aliveMessage⟩

/-- `ncclIbPortRecoveryPostAck`. -/
def ncclIbPortRecoveryPostAck (env : StageEnv) (ctx : RecoveryContext) : PostOut :=
  match env.postSend with
  | some _ => ⟨ctx, false, []⟩
  | none => ⟨{ ctx with ackPosted := true }, true, [.ack]⟩

/-- The two calls with which both sides answer: the data QPs are restored and then
the ACK is posted. -/
def restoreAndPostAck (env : StageEnv) (ctx : RecoveryContext) (success : Bool) :
    Except Stop PostOut :=
  match ncclIbPortRecoveryQpsRestore env ctx success with
  | .error stop => .error stop
  | .ok false => .ok ⟨ctx, false, []⟩
  | .ok true =>
    let out := ncclIbPortRecoveryPostAck env ctx
    .ok { out with effects := .restored :: out.effects }

/-! ## The stages -/

/-- What a stage gives: the context, `*outResult` and the effects. -/
structure StageOut where
  ctx : RecoveryContext
  result : ProgressResult
  effects : List Effect := []

/-- `ncclIbPortRecoveryProgressAliveMessagesSender`. -/
def ncclIbPortRecoveryProgressAliveMessagesSender (P : RecoveryParams) (env : StageEnv)
    (ctx : RecoveryContext) : Except Stop StageOut :=
  if !ctx.aliveMsgPosted then
    if elapsed env.now ctx.timeLastMsg < nanos P.aliveMsgBatchInterval then
      .ok ⟨ctx, .InProgress, []⟩
    else
      match ncclIbPortRecoveryPostAliveMessages P env ctx with
      | .error stop => .error stop
      | .ok out => .ok ⟨out.ctx, if out.success then .InProgress else .Failed, out.effects⟩
  else
    let (ctx', success) := ncclIbPortRecoveryPollCq env ctx
    if !success then .ok ⟨ctx', .Failed, []⟩
    else .ok ⟨ctx', if ctx'.aliveMsgCompleted then .GoToNextState else .InProgress, []⟩

/-- The branch of `ncclIbPortRecoveryProgressAliveMessagesReceiver` before the ACK. -/
def aliveBeforeAck (P : RecoveryParams) (env : StageEnv) (ctx : RecoveryContext) :
    Except Stop StageOut :=
  let (ctx', success) := ncclIbPortRecoveryPollCq env ctx
  if !success then .ok ⟨ctx', .Failed, []⟩
  else if ctx'.nInOrderMsgsReceived > P.aliveMsgSequenceSize then
    if !env.drain then .ok ⟨ctx', .Failed, [.drained]⟩
    else
      match restoreAndPostAck env ctx' true with
      | .error stop => .error stop
      | .ok out =>
        .ok ⟨out.ctx, if out.success then .InProgress else .Failed, .drained :: out.effects⟩
  else if elapsed env.now ctx'.timeLastMsg > nanos P.aliveMsgTimeout then
    let failed := { ctx' with nFailedAttempts := ctx'.nFailedAttempts + 1 }
    if failed.nFailedAttempts ≥ P.attemptsMax then .ok ⟨failed, .Failed, []⟩
    else .ok ⟨{ failed with timeLastMsg := env.now }, .InProgress, []⟩
  else .ok ⟨ctx', .InProgress, []⟩

/-- The branch of `ncclIbPortRecoveryProgressAliveMessagesReceiver` after the ACK. -/
def aliveAfterAck (P : RecoveryParams) (env : StageEnv) (ctx : RecoveryContext) : StageOut :=
  let (ctx', success) := ncclIbPortRecoveryPollCq env ctx
  if !success then ⟨ctx', .Failed, []⟩
  else if ctx'.ackCompleted then ⟨ctx', .GoToNextState, []⟩
  else if elapsed env.now ctx'.timeLastMsg > nanos P.ackTimeout then
    let failed := { ctx' with nFailedAttempts := ctx'.nFailedAttempts + 1 }
    if failed.nFailedAttempts ≥ P.attemptsMax then ⟨failed, .Failed, []⟩
    else
      let back := { failed with
        ackPosted := false
        ackCompleted := false
        timeLastMsg := env.now }
      ⟨back, if env.postRecvs then .GoToPrevState else .Failed, []⟩
  else ⟨ctx', .InProgress, []⟩

/-- `ncclIbPortRecoveryProgressAliveMessagesReceiver`. -/
def ncclIbPortRecoveryProgressAliveMessagesReceiver (P : RecoveryParams) (env : StageEnv)
    (ctx : RecoveryContext) : Except Stop StageOut :=
  if !ctx.ackPosted then aliveBeforeAck P env ctx
  else .ok (aliveAfterAck P env ctx)

/-- `ncclIbPortRecoveryProgressAliveMessages`: the context after it and the effects. -/
def ncclIbPortRecoveryProgressAliveMessages (P : RecoveryParams) (env : StageEnv)
    (ctx : RecoveryContext) : Except Stop (RecoveryContext × List Effect) :=
  let out := if ctx.isSend then ncclIbPortRecoveryProgressAliveMessagesSender P env ctx
    else ncclIbPortRecoveryProgressAliveMessagesReceiver P env ctx
  match out with
  | .error stop => .error stop
  | .ok out =>
    match out.result with
    | .GoToPrevState => .error (.ret ncclInternalError)
    | .GoToNextState => .ok ({ out.ctx with state := .Ack }, out.effects)
    | .Failed => .ok ({ out.ctx with state := .Failed }, out.effects)
    | .InProgress => .ok (out.ctx, out.effects)

/-- The branch of `ncclIbPortRecoveryProgressAckSender` in which no ACK has come. -/
def ackSenderTimeout (P : RecoveryParams) (env : StageEnv) (ctx : RecoveryContext) :
    RecoveryContext × ProgressResult :=
  if elapsed env.now ctx.timeLastMsg > nanos P.ackTimeout then
    let failed := { ctx with nFailedAttempts := ctx.nFailedAttempts + 1 }
    if failed.nFailedAttempts ≥ P.attemptsMax then (failed, .Failed)
    else ({ failed with aliveMsgPosted := false, aliveMsgCompleted := false }, .GoToPrevState)
  else (ctx, .InProgress)

/-- The branch of `ncclIbPortRecoveryProgressAckSender` that posts the final ACK.
`none` is that the function goes on to its second poll. -/
def ackSenderPost (env : StageEnv) (ctx : RecoveryContext) (success : Bool) :
    Except Stop (RecoveryContext × Option ProgressResult × List Effect) :=
  if !ctx.ackPosted then
    match restoreAndPostAck env ctx success with
    | .error stop => .error stop
    | .ok out => .ok (out.ctx, if out.success then none else some .Failed, out.effects)
  else .ok (ctx, none, [])

/-- The first part of `ncclIbPortRecoveryProgressAckSender`, up to its second poll:
the sender waits for the ACK, restores its QPs and posts the final ACK. -/
def ackSenderReceive (P : RecoveryParams) (env : StageEnv) (ctx : RecoveryContext) :
    Except Stop (RecoveryContext × Option ProgressResult × List Effect) :=
  if !ctx.ackReceived then
    let (ctx', success) := ncclIbPortRecoveryPollCq env ctx
    if !success then .ok (ctx', some .Failed, [])
    else if !ctx'.ackReceived then
      .ok ((ackSenderTimeout P env ctx').1, some (ackSenderTimeout P env ctx').2, [])
    else ackSenderPost env ctx' success
  else ackSenderPost env ctx false

/-- The second part of `ncclIbPortRecoveryProgressAckSender`: the sender waits for
the completion of its final ACK. A final ACK that has completed leaves the result
that `ncclIbPortRecoveryProgressAck` starts with. -/
def ackSenderFinish (env : StageEnv) (ctx : RecoveryContext) : RecoveryContext × ProgressResult :=
  if !ctx.ackCompleted then
    let (ctx', success) := ncclIbPortRecoveryPollCq env ctx
    if !success then (ctx', .Failed)
    else (ctx', if ctx'.ackCompleted then .GoToNextState else .InProgress)
  else (ctx, .Failed)

/-- `ncclIbPortRecoveryProgressAckReceiver`. -/
def ncclIbPortRecoveryProgressAckReceiver (P : RecoveryParams) (env : StageEnv)
    (ctx : RecoveryContext) : StageOut :=
  let (ctx', success) := ncclIbPortRecoveryPollCq env ctx
  if !success then ⟨ctx', .Failed, []⟩
  else if !ctx'.ackReceived then
    if elapsed env.now ctx'.timeLastMsg > nanos P.ackTimeout then
      let failed := { ctx' with nFailedAttempts := ctx'.nFailedAttempts + 1 }
      if failed.nFailedAttempts ≥ P.attemptsMax then ⟨failed, .Failed, []⟩
      else
        let back := { failed with
          ackPosted := false
          ackCompleted := false
          nInOrderMsgsReceived := 0 }
        ⟨back, if env.drain then .GoToPrevState else .Failed, [.drained]⟩
    else ⟨ctx', .InProgress, []⟩
  else ⟨ctx', .GoToNextState, []⟩

/-- The switch of `ncclIbPortRecoveryProgressAck`. -/
def ackSwitch (ctx : RecoveryContext) : ProgressResult → RecoveryContext
  | .GoToPrevState => { ctx with state := .AliveMessages }
  | .GoToNextState => { ctx with state := .Success }
  | .Failed => { ctx with state := .Failed }
  | .InProgress => ctx

/-- The part of `ncclIbPortRecoveryProgressAck` before the second poll. The flag is
whether the function goes on to that poll. -/
def ackStage (P : RecoveryParams) (env : StageEnv) (ctx : RecoveryContext) :
    Except Stop (RecoveryContext × Bool × List Effect) :=
  if ctx.isSend then
    match ackSenderReceive P env ctx with
    | .error stop => .error stop
    | .ok (ctx', some result, effects) => .ok (ackSwitch ctx' result, false, effects)
    | .ok (ctx', none, effects) => .ok (ctx', true, effects)
  else
    let out := ncclIbPortRecoveryProgressAckReceiver P env ctx
    .ok (ackSwitch out.ctx out.result, false, out.effects)

/-- The part of `ncclIbPortRecoveryProgressAck` from the second poll on. -/
def finalStage (env : StageEnv) (ctx : RecoveryContext) : RecoveryContext :=
  ackSwitch (ackSenderFinish env ctx).1 (ackSenderFinish env ctx).2

/-- The `Init` part of `ncclIbPortRecoveryContextProgress`; `none` is that it returns
since the start delay has not passed. -/
def startStage (P : RecoveryParams) (now : Nat) (reconfigured : Bool) (ctx : RecoveryContext) :
    Option RecoveryContext :=
  if ctx.state = .Init then
    if elapsed now ctx.timeInit < nanos P.startDelay then none
    else if !reconfigured then some { ctx with state := .Failed }
    else if ctx.isSend then some { ctx with timeLastMsg := 0, state := .AliveMessages }
    else some { ctx with state := .AliveMessages }
  else some ctx

/-! ## One call -/

/-- Where a call of `ncclIbPortRecoveryContextProgress` is. Between two stages the
comm, the peer and the hardware can act. -/
inductive Stage
  | start
  | alive
  | ack
  | final
  | finish
deriving DecidableEq, Repr

/-- One stage of `ncclIbPortRecoveryContextProgress`: the context after it, the next
stage and the effects. A stage of another state than the context's is skipped. -/
def contextStage (P : RecoveryParams) (env : StageEnv) (stage : Stage) (ctx : RecoveryContext) :
    Except Stop (RecoveryContext × Stage × List Effect) :=
  match stage with
  | .start =>
    match startStage P env.now env.qpsReconfigured ctx with
    | none => .ok (ctx, .finish, [])
    | some ctx' => .ok (ctx', .alive, [])
  | .alive =>
    if ctx.state = .AliveMessages then
      match ncclIbPortRecoveryProgressAliveMessages P env ctx with
      | .error stop => .error stop
      | .ok (ctx', effects) => .ok (ctx', .ack, effects)
    else .ok (ctx, .ack, [])
  | .ack =>
    if ctx.state = .Ack then
      match ackStage P env ctx with
      | .error stop => .error stop
      | .ok (ctx', goesOn, effects) => .ok (ctx', if goesOn then .final else .finish, effects)
    else .ok (ctx, .finish, [])
  | .final => .ok (finalStage env ctx, .finish, [])
  | .finish => .ok (ctx, .finish, [])

/-- The context has come to an end, as `*outDone` says. -/
def RecoveryContext.isDone (ctx : RecoveryContext) : Bool :=
  ctx.state = .Success ∨ ctx.state = .Failed

end net_ib.recovery
