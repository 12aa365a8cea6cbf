-- The recovery thread (p2p_resiliency_recovery.cc): comms put contexts into a shared
-- inbox and ask for their removal, and one thread moves the contexts into its own
-- queue, serves the close requests and runs the stages of the contexts. An error
-- of a stage ends the thread, and with it its queue.
import MrcPlugin.RecoveryStages
import MrcPlugin.Lib.Runs

namespace net_ib.recovery

open p2p runs

/-! ## The state -/

/-- `ncclIbResiliencyDevState`. -/
inductive DevState
  | Ok
  | Error
  | RecoveryInProgress
  | RecoveryFailed
  | Recovered
  | ErrorPermanent
deriving DecidableEq, Repr

/-- How far a comm is on its way out. `closing` is that `ncclIbCloseSend` or
`ncclIbCloseRecv` has begun, which destroys the data QPs first; `waiting` and
`closed` are inside and after `ncclIbPortRecoveryClose`. -/
inductive CommPhase
  | running
  | closing
  | waiting
  | closed
deriving DecidableEq, Repr

/-- What the thread shares with a comm. `completed` is the flag of the comm's close
request. -/
structure CommState where
  comm : RecoveryComm
  devState : Nat → DevState := fun _ => .Ok
  phase : CommPhase := .running
  completed : Bool := false

/-- Where the thread is in `ncclIbPortRecoveryAsyncThreadMain`: at the wait, in the
loop over its close requests, in the loop over its queue, in a stage of a context,
or returned. `todo` is what the loop has not come to. -/
inductive ThreadPc
  | wait
  | close (reqs todo : List Nat)
  | progress (todo : List Nat)
  | stage (context : Nat) (stage : Stage) (todo : List Nat)
  | returned
deriving DecidableEq, Repr

/-- The shared data and the thread. Comms and contexts are known by their pointers;
`next` is the next new context and `freed` the log of the frees. `queue` is the part
of `recoveryQueue` that the loop of the thread has passed. -/
structure RecoveryThread where
  comms : Nat → CommState
  contexts : Nat → RecoveryContext
  next : Nat := 0
  freed : List Nat := []
  recoveryInbox : List Nat := []
  queue : List Nat := []
  recoveryCloseRequests : List Nat := []
  pc : ThreadPc := .wait

/-- The contexts that the loop of the thread has before it. -/
def ThreadPc.todo : ThreadPc → List Nat
  | .progress todo => todo
  | .stage c _ todo => c :: todo
  | _ => []

/-- The close requests that the thread has taken. -/
def ThreadPc.closeRequests : ThreadPc → List Nat
  | .close reqs _ => reqs
  | _ => []

/-- `recoveryQueue`. -/
def RecoveryThread.recoveryQueue (s : RecoveryThread) : List Nat := s.queue ++ s.pc.todo

/-- The contexts that some list holds. -/
def RecoveryThread.held (s : RecoveryThread) : List Nat := s.recoveryInbox ++ s.recoveryQueue

/-- The comm of a context. -/
def RecoveryThread.owner (s : RecoveryThread) (c : Nat) : Nat := (s.contexts c).resCtx

def RecoveryThread.setComm (s : RecoveryThread) (r : Nat) (comm : CommState) : RecoveryThread :=
  { s with comms := Function.update s.comms r comm }

/-! ## The calls of the comms -/

/-- What `ncclIbPortRecoveryContextInit` meets: the clock and its calls. `toError` is
what `ncclIbQpError` gives for the data QP at an index. -/
structure InitEnv where
  now : Nat := 0
  malloc : Bool := true
  toError : Nat → NcclResult := fun _ => ncclSuccess
  postRecv : NcclResult := ncclSuccess

/-- `ncclIbPortRecoveryQpsToError` over the data QPs from index `qpIndex`. -/
def ncclIbPortRecoveryQpsToError (env : InitEnv) (devIndex : Nat) :
    List RecoveryQp → Nat → Except Stop Unit
  | [], _ => .ok ()
  | qp :: qps, qpIndex =>
    if qp.devIndex ≠ devIndex then ncclIbPortRecoveryQpsToError env devIndex qps (qpIndex + 1)
    else
      match readQpNum qp with
      | .error stop => .error stop
      | .ok () =>
        if env.toError qpIndex ≠ ncclSuccess then .error (.ret (env.toError qpIndex))
        else ncclIbPortRecoveryQpsToError env devIndex qps (qpIndex + 1)

/-- `ncclIbPortRecoveryContextInit`. A context that is freed again has no pointer. -/
def ncclIbPortRecoveryContextInit (env : InitEnv) (resCtx devIndex : Nat) (comm : RecoveryComm) :
    Except Stop RecoveryContext :=
  if !env.malloc then .error (.ret ncclInternalError)
  else
    match ncclIbPortRecoveryQpsToError env devIndex comm.qps 0 with
    | .error stop => .error stop
    | .ok () =>
      if env.postRecv ≠ ncclSuccess then .error (.ret env.postRecv)
      else .ok { resCtx, devIndex, isSend := comm.isSend, timeInit := env.now }

/-- `ncclIbPortRecoveryHandleFailure`, of a comm with recovery. -/
def ncclIbPortRecoveryHandleFailure (env : InitEnv) (r devIndex : Nat) (s : RecoveryThread) :
    Except Stop (NcclResult × RecoveryThread) :=
  if (s.comms r).devState devIndex ≠ .RecoveryInProgress then .ok (ncclInternalError, s)
  else
    match ncclIbPortRecoveryContextInit env r devIndex (s.comms r).comm with
    | .error (.ret res) => .ok (res, s)
    | .error stop => .error stop
    | .ok ctx =>
      .ok (ncclSuccess,
        { s with
          contexts := Function.update s.contexts s.next ctx
          next := s.next + 1
          recoveryInbox := s.recoveryInbox ++ [s.next] })

/-- `ncclIbQpDestroy` of a data QP leaves no pointer in it. -/
def RecoveryComm.destroyQp (comm : RecoveryComm) (q : Nat) : RecoveryComm :=
  { comm with qps := comm.qps.modify q (fun qp => { qp with qp := false }) }

/-! ## The thread -/

/-- The turn of `ncclIbPortRecoveryHandleCloseRequests` for one close request. -/
def closeContexts (s : RecoveryThread) (r : Nat) : RecoveryThread :=
  { s with
    queue := s.queue.filter (fun c => s.owner c ≠ r)
    freed := s.freed ++ s.queue.filter (fun c => s.owner c = r) }

/-- The stores of `ncclIbPortRecoveryContextProgress` for a context that is done. -/
def storeDevState (s : RecoveryThread) (ctx : RecoveryContext) : RecoveryThread :=
  let comm := s.comms ctx.resCtx
  let st := if ctx.state = .Success then DevState.Recovered else DevState.RecoveryFailed
  s.setComm ctx.resCtx { comm with devState := Function.update comm.devState ctx.devIndex st }

/-- The steps of the thread and of the comms. -/
inductive ThreadAct
  | wake
  | closeNext
  | complete
  | take
  | stage (env : StageEnv)
  | retire
  | loop
  | handleFailure (r devIndex : Nat) (env : InitEnv)
  | setDevState (r devIndex : Nat) (st : DevState)
  | beginClose (r : Nat)
  | destroyQp (r q : Nat)
  | requestClose (r : Nat)
  | closeReturns (r : Nat)

/-- What a stage of a context meets: the comm as it is now, of which only a close that
has begun destroys a QP. -/
def RecoveryThread.stageEnv (s : RecoveryThread) (env : StageEnv) (c : Nat) : StageEnv :=
  { env with
    comm := (s.comms (s.owner c)).comm
    destroyed := fun q => env.destroyed q && (s.comms (s.owner c)).phase = .closing }

/-- One step, while `ncclIbPortRecoveryThreadActive` is true. A comm that is closing
reports no failure; other steps of a comm are its own calls in order. The read of a
NULL pointer ends the process, so it is no step. -/
def threadAct (P : RecoveryParams) (a : ThreadAct) (s : RecoveryThread) : Option RecoveryThread :=
  match a with
  | .wake =>
    if s.pc = .wait ∧
        (s.recoveryInbox ≠ [] ∨ s.queue ≠ [] ∨ s.recoveryCloseRequests ≠ []) then
      let reqs := s.recoveryCloseRequests
      let queue := s.queue ++ s.recoveryInbox
      some (if reqs = [] then
        { s with recoveryInbox := [], queue := [], pc := .progress queue }
      else
        { s with
          recoveryInbox := []
          queue := queue
          recoveryCloseRequests := []
          pc := .close reqs reqs })
    else none
  | .closeNext =>
    match s.pc with
    | .close reqs (r :: todo) => some { closeContexts s r with pc := .close reqs todo }
    | _ => none
  | .complete =>
    match s.pc with
    | .close reqs [] =>
      some { s with
        comms := fun r => if r ∈ reqs then { s.comms r with completed := true } else s.comms r
        queue := []
        pc := .progress s.queue }
    | _ => none
  | .take =>
    match s.pc with
    | .progress (c :: todo) => some { s with pc := .stage c .start todo }
    | _ => none
  | .stage env =>
    match s.pc with
    | .stage c stage todo =>
      if stage = .finish then none
      else
        match contextStage P (s.stageEnv env c) stage (s.contexts c) with
        | .error (.ret _) => some { s with queue := [], pc := .returned }
        | .error _ => none
        | .ok (ctx, next, _) =>
          some { s with
            contexts := Function.update s.contexts c ctx
            pc := .stage c next todo }
    | _ => none
  | .retire =>
    match s.pc with
    | .stage c .finish todo =>
      if (s.contexts c).isDone then
        some { storeDevState s (s.contexts c) with freed := s.freed ++ [c], pc := .progress todo }
      else some { s with queue := s.queue ++ [c], pc := .progress todo }
    | _ => none
  | .loop =>
    match s.pc with
    | .progress [] => some { s with pc := .wait }
    | _ => none
  | .handleFailure r devIndex env =>
    if (s.comms r).phase = .running then
      match ncclIbPortRecoveryHandleFailure env r devIndex s with
      | .error _ => none
      | .ok (_, t) => some t
    else none
  | .setDevState r devIndex st =>
    let comm := s.comms r
    some (s.setComm r { comm with devState := Function.update comm.devState devIndex st })
  | .beginClose r =>
    if (s.comms r).phase = .running then
      some (s.setComm r { s.comms r with phase := .closing })
    else none
  | .destroyQp r q =>
    if (s.comms r).phase = .closing then
      some (s.setComm r { s.comms r with comm := (s.comms r).comm.destroyQp q })
    else none
  | .requestClose r =>
    if (s.comms r).phase = .closing then
      some { s.setComm r { s.comms r with phase := .waiting } with
        recoveryCloseRequests := s.recoveryCloseRequests ++ [r] }
    else none
  | .closeReturns r =>
    if (s.comms r).phase = .waiting ∧ (s.comms r).completed = true then
      some (s.setComm r { s.comms r with phase := .closed })
    else none

/-- The first states: the thread waits, and no comm has a context. -/
def ThreadInit (s : RecoveryThread) : Prop :=
  s.next = 0 ∧ s.freed = [] ∧ s.recoveryInbox = [] ∧ s.queue = [] ∧
    s.recoveryCloseRequests = [] ∧ s.pc = .wait ∧
    ∀ r, (s.comms r).phase = .running ∧ (s.comms r).completed = false

/-- The thread and its comms, taking any steps. -/
def threadSystem (P : RecoveryParams) : System RecoveryThread where
  init := ThreadInit
  step s t := ∃ a, threadAct P a s = some t

/-- The step is no stage that meets one of the inputs that end the thread. -/
def StageSafe (P : RecoveryParams) (a : ThreadAct) (s : RecoveryThread) : Prop :=
  ∀ env c stage todo, a = .stage env → s.pc = .stage c stage todo →
    ¬StageBreaks P (s.stageEnv env c) stage (s.contexts c)

/-- The thread and its comms, taking only such steps. -/
def safeThreadSystem (P : RecoveryParams) : System RecoveryThread where
  init := ThreadInit
  step s t := ∃ a, StageSafe P a s ∧ threadAct P a s = some t

end net_ib.recovery
