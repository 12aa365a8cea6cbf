-- Port failover (p2p_resiliency.cc): how a failed device is taken out of use, how
-- a failed send is probed at the receiver, and how what is missing is sent again.
-- Log lines are left out, except those that follow the `qp` pointer of a data QP to
-- its number. Each data QP is an MRC QP, in which that pointer is NULL.
import MrcPlugin.RecoveryThread
import MrcPlugin.Test

namespace net_ib.resiliency

open p2p recovery

/-! ## The data -/

/-- `status` of `ibv_wc`. -/
inductive WcStatus
  | IBV_WC_SUCCESS
  | IBV_WC_WR_FLUSH_ERR
  | IBV_WC_RETRY_EXC_ERR
  | other
deriving DecidableEq, Repr

/-- What the functions meet outside of the context: the parameters, whether `malloc`
and the other calls of `ncclIbPortRecoveryContextInit` succeed, and the clock. -/
structure ResEnv where
  maxAttempts : Int := 1
  probeDelay : Int := 10
  malloc : Bool := true
  recoveryStarts : Bool := true
  now : Nat := 0

/-- `ncclIbResiliencyDev`. `probingResultLkey` is the lkey of `probingResultMr`. -/
structure ResiliencyDev where
  state : DevState := .Ok
  nOutstandingProbes : Nat := 0
  probingResultLkey : Nat := 0
deriving DecidableEq, Repr

/-- `ncclIbResiliency`. -/
structure NcclIbResiliency where
  recoveryEnabled : Bool
  devs : Nat → ResiliencyDev
  ndevs : Nat
  probingQps : Nat → NcclIbQp
  inProgress : Bool
  outstandingRequests : Int
  outstandingRecovery : Int

/-- `ncclIbResiliencyRequestSendState`. -/
inductive RequestState
  | Pending
  | ProbePosted
  | ProbeCompleted
deriving DecidableEq, Repr

/-- `ncclIbResiliencyRequestSend`. `devIndex` and `time` are its `errorInfo`, and
`request` is NULL or the index of the request. -/
structure RequestSend where
  state : RequestState := .Pending
  request : Option Nat := none
  devIndex : Nat := 0
  time : Nat := 0
  failedAttempts : Int := 0
  id : Nat := 0
deriving DecidableEq, Repr

/-- `ncclIbResiliencyRemoteCompletionRecordsInfo`. -/
structure RemCmplRecordsInfo where
  addr : Nat
  rkey : Nat
deriving DecidableEq, Repr

/-- `ncclIbResiliencySend`. `probingResultsAddr` is the address of `probingResults`. -/
structure NcclIbResiliencySend where
  base : NcclIbResiliency
  failedRequests : Nat → RequestSend
  probingResults : Nat → Nat → Bool
  probingResultsAddr : Nat
  remCmplRecordsInfo : Nat → RemCmplRecordsInfo

/-- A send comm and its resiliency context. -/
structure ResSendComm where
  comm : NcclIbSendComm
  res : NcclIbResiliencySend

/-- A receive comm and its resiliency context. -/
structure ResRecvComm where
  comm : NcclIbRecvComm
  res : NcclIbResiliency

/-- The read of a completion record, on the probing QP of a device. -/
structure ProbePost where
  dev : Nat
  wr : IbvSendWr
deriving DecidableEq, Repr

/-- What a function does: the comm after it, its posts, and how it ends. -/
structure ResOut (C P : Type) where
  comm : C
  posts : List P
  ret : Except Stop Unit

def NcclIbResiliency.setState (res : NcclIbResiliency) (d : Nat) (st : DevState) :
    NcclIbResiliency :=
  { res with devs := Function.update res.devs d { res.devs d with state := st } }

def NcclIbResiliencySend.setFailed (res : NcclIbResiliencySend) (slot : Nat) (f : RequestSend) :
    NcclIbResiliencySend :=
  { res with failedRequests := Function.update res.failedRequests slot f }

/-! ## A device fails -/

/-- `ncclIbResiliencyCheckErrorNotFatal`. -/
def ncclIbResiliencyCheckErrorNotFatal (res : NcclIbResiliency) (status : WcStatus)
    (devIndex : Nat) : Except Stop Unit :=
  let nFailedDevices := (List.range res.ndevs).countP
    (fun i => i = devIndex ∨ (res.devs i).state ≠ .Ok)
  let fatalCompletionStatus :=
    ¬ (status = .IBV_WC_WR_FLUSH_ERR ∨ status = .IBV_WC_RETRY_EXC_ERR)
  if nFailedDevices > 1 then .error (.ret ncclRemoteError)
  else if nFailedDevices < res.ndevs ∧ ¬ fatalCompletionStatus then .ok ()
  else .error (.ret ncclRemoteError)

/-- The search for a replacement of QP `failedQpIndex`. It ends at the QP itself,
at the latest at offset `nqps`. -/
def findReplacement (base : NcclIbNetCommBase) (res : NcclIbResiliency) (failedQpIndex : Nat) :
    Nat → Nat → Option Nat
  | 0, _ => none
  | n + 1, offset =>
    let newQpIndex := (failedQpIndex + offset) % base.nqps.getD 0
    if (res.devs (base.qps newQpIndex).devIndex).state = .Ok then some newQpIndex
    else if newQpIndex = failedQpIndex then none
    else findReplacement base res failedQpIndex n (offset + 1)

/-- One turn of the loop of `ncclIbResiliencyReplaceQps`. The pointer difference is
the index of the QP. -/
def replaceQp (base : NcclIbNetCommBase) (res : NcclIbResiliency)
    (failedDevIndex qpIndex : Nat) : Except Stop NcclIbNetCommBase :=
  match base.activeQps qpIndex with
  | none => .error .badPointer
  | some failedQpIndex =>
    if (base.qps failedQpIndex).devIndex ≠ failedDevIndex then .ok base
    else if failedQpIndex ≥ base.nqps.getD 0 then .error (.ret ncclInternalError)
    else
      match findReplacement base res failedQpIndex (base.nqps.getD 0) 1 with
      | none => .error (.ret ncclInternalError)
      | some newQpIndex =>
        if logsInfo then .error .badPointer
        else .ok { base with
          activeQps := Function.update base.activeQps qpIndex (some newQpIndex) }

/-- The loop of `ncclIbResiliencyReplaceQps`. -/
def replaceQps (res : NcclIbResiliency) (failedDevIndex : Nat) :
    List Nat → NcclIbNetCommBase → NcclIbNetCommBase × Except Stop Unit
  | [], base => (base, .ok ())
  | qpIndex :: rest, base =>
    match replaceQp base res failedDevIndex qpIndex with
    | .error e => (base, .error e)
    | .ok base => replaceQps res failedDevIndex rest base

/-- `ncclIbResiliencyReplaceQps`. -/
def ncclIbResiliencyReplaceQps (base : NcclIbNetCommBase) (res : NcclIbResiliency)
    (failedDevIndex : Nat) : NcclIbNetCommBase × Except Stop Unit :=
  replaceQps res failedDevIndex (List.range (base.nqps.getD 0)) base

/-- Whether the comm has a data QP on a device. -/
def hasQpOn (base : NcclIbNetCommBase) (d : Nat) : Bool :=
  (List.range (base.nqps.getD 0)).any (fun q => (base.qps q).devIndex = d)

/-- Whether `ncclIbPortRecoveryHandleFailure` succeeds. `ncclIbPortRecoveryQpsToError`
logs the number of each data QP of the device. -/
def recoveryBegins (env : ResEnv) (base : NcclIbNetCommBase) (devIndex : Nat) : Except Stop Bool :=
  if !env.malloc then .ok false
  else if logsInfo && hasQpOn base devIndex then .error .badPointer
  else .ok env.recoveryStarts

/-- `ncclIbResiliencyHandleDeviceFailure`. -/
def ncclIbResiliencyHandleDeviceFailure (env : ResEnv) (base : NcclIbNetCommBase)
    (res : NcclIbResiliency) (devIndex : Nat) :
    NcclIbNetCommBase × NcclIbResiliency × Except Stop Unit :=
  if (res.devs devIndex).state ≠ .Ok then (base, res, .ok ())
  else
    let res := res.setState devIndex .Error
    match ncclIbResiliencyReplaceQps base res devIndex with
    | (base, .error e) => (base, res, .error e)
    | (base, .ok ()) =>
      if !res.recoveryEnabled then (base, res, .ok ())
      else
        match recoveryBegins env base devIndex with
        | .error e => (base, res.setState devIndex .RecoveryInProgress, .error e)
        | .ok true =>
          (base, { res.setState devIndex .RecoveryInProgress with
            outstandingRecovery := res.outstandingRecovery + 1, inProgress := true }, .ok ())
        | .ok false =>
          -- The loop that marks the device runs over the devices of the context.
          (base, res.setState devIndex
            (if devIndex < res.ndevs then .ErrorPermanent else .RecoveryInProgress), .ok ())

/-- `ncclIbResiliencyActiveQpsRestore`. -/
def ncclIbResiliencyActiveQpsRestore (base : NcclIbNetCommBase) (restoredDevIndex : Nat) :
    NcclIbNetCommBase :=
  { base with
    activeQps := fun q =>
      if q < base.nqps.getD 0 ∧ (base.qps q).devIndex = restoredDevIndex then some q
      else base.activeQps q }

/-- One turn of the loop of `ncclIbResiliencyProgress` over the devices.
`ncclIbResiliencyActiveQpsRestore` logs the number of each QP of the device. -/
def progressDev (base : NcclIbNetCommBase) (res : NcclIbResiliency) (d : Nat) :
    NcclIbNetCommBase × NcclIbResiliency × Except Stop Unit :=
  match (res.devs d).state with
  | .Recovered =>
    if logsInfo && hasQpOn base d then (base, res, .error .badPointer)
    else
      (ncclIbResiliencyActiveQpsRestore base d,
        { res.setState d .Ok with outstandingRecovery := res.outstandingRecovery - 1 }, .ok ())
  | .RecoveryFailed =>
    (base, { res.setState d .ErrorPermanent with
      outstandingRecovery := res.outstandingRecovery - 1 }, .ok ())
  | _ => (base, res, .ok ())

/-! ## A failed send -/

/-- `ncclIbResiliencySendRequestInit`. The id of a slot stays when its request is
done, so that older completions are known. -/
def ncclIbResiliencySendRequestInit (env : ResEnv) (res : NcclIbResiliencySend) (i : Nat)
    (request : NcclIbRequest) (devIndex : Nat) : NcclIbResiliencySend × Except Stop Unit :=
  let slot := slotOf request.id
  let failedSendRequest := res.failedRequests slot
  if failedSendRequest.id = request.id + 1 then (res, .ok ())
  else if request.id + 1 ≤ failedSendRequest.id then (res, .error (.ret ncclInternalError))
  else if request.type ≠ NCCL_NET_IB_REQ_SEND then (res, .error (.ret ncclInternalError))
  else
    ({ res.setFailed slot
        { state := .Pending, request := some i, devIndex, time := env.now, failedAttempts := 0
          id := request.id + 1 } with
      base := { res.base with
        outstandingRequests := res.base.outstandingRequests + 1
        inProgress := true } }, .ok ())

/-- `ncclIbResiliencySendRequestFree`, on the entry of a slot. -/
def ncclIbResiliencySendRequestFree (res : NcclIbResiliencySend) (slot : Nat) :
    NcclIbResiliencySend × Except Stop Unit :=
  let failedSendRequest := res.failedRequests slot
  if failedSendRequest.request = none then (res, .error (.ret ncclInternalError))
  else
    ({ res.setFailed slot { id := failedSendRequest.id } with
      base := { res.base with outstandingRequests := res.base.outstandingRequests - 1 } }, .ok ())

/-- A request with all its counters at zero. -/
def clearEvents (req : NcclIbRequest) : NcclIbRequest := { req with events := fun _ => 0 }

/-- The part `qpIndex` of a request is to be sent again, on device `devIndex`. -/
def resend (req : NcclIbRequest) (qpIndex devIndex : Nat) : NcclIbRequest :=
  ncclIbAddEvent { req with
    send := { req.send with sentData := Function.update req.send.sentData qpIndex false } } devIndex

/-- The loop of `ncclIbResiliencyRepostRequest` over the parts of request `i`. -/
def repostParts (res : NcclIbResiliencySend) (slot i : Nat) :
    List Nat → NcclIbSendComm → NcclIbSendComm × Except Stop Unit
  | [], comm => (comm, .ok ())
  | part :: parts, comm =>
    match ncclIbCommBaseGetQpForRequest comm.base (comm.base.reqs i).id part with
    | .error e => (comm, .error e)
    | .ok (qp, qpIndex) =>
      if res.probingResults slot qpIndex then repostParts res slot i parts comm
      else if logsInfo then (comm, .error .badPointer)
      else
        repostParts res slot i parts (comm.withReqs (Function.update comm.base.reqs i
          (resend (comm.base.reqs i) qpIndex (comm.base.qps qp).devIndex)))

/-- The loop of `ncclIbResiliencyRepostRequest` over the sends of the group. -/
def repostSends (res : NcclIbResiliencySend) (slot : Nat) :
    List Nat → NcclIbSendComm → NcclIbSendComm × Except Stop Unit
  | [], comm => (comm, .ok ())
  | r :: rs, comm =>
    match comm.sendReqs slot r with
    | none => (comm, .error .badPointer)
    | some i =>
      let comm := comm.withReqs
        (Function.update comm.base.reqs i (clearEvents (comm.base.reqs i)))
      match ncclIbCommBaseGetNqpsPerRequest comm.base with
      | .error e => (comm, .error e)
      | .ok nqps =>
        match repostParts res slot i (List.range nqps) comm with
        | (comm, .error e) => (comm, .error e)
        | (comm, .ok ()) => repostSends res slot rs comm

/-- `ncclIbResiliencyRepostRequest` of request `i` of a send comm. -/
def ncclIbResiliencyRepostRequest (net : NetEnv) (s : ResSendComm) (i : Nat) :
    ResOut NcclIbSendComm SendPost :=
  let request := s.comm.base.reqs i
  let slot := slotOf request.id
  if request.type ≠ NCCL_NET_IB_REQ_SEND then ⟨s.comm, [], .error (.ret ncclInternalError)⟩
  else
    match repostSends s.res slot (List.range request.nreqs) s.comm with
    | (comm, .error e) => ⟨comm, [], .error e⟩
    | (comm, .ok ()) =>
      match ncclIbMultiSend net comm slot with
      | .error e => ⟨comm, [], .error e⟩
      | .ok (comm, posts) => ⟨comm, posts, .ok ()⟩

/-! ## The probe of a failed send -/

/-- Whether a part that was sent is missing in the answer of the probe. -/
def missingData (res : NcclIbResiliencySend) (slot : Nat) (request : NcclIbRequest) : Bool :=
  (List.range NCCL_IB_MAX_QPS).any (fun qpIndex =>
    request.send.sentData qpIndex && !res.probingResults slot qpIndex)

/-- The loop of `ncclIbResiliencyHandleProbeCompleted` that clears the events of the
group. -/
def clearGroup (slot : Nat) : List Nat → NcclIbSendComm → NcclIbSendComm × Except Stop Unit
  | [], comm => (comm, .ok ())
  | r :: rs, comm =>
    match comm.sendReqs slot r with
    | none => (comm, .error .badPointer)
    | some i =>
      clearGroup slot rs (comm.withReqs
        (Function.update comm.base.reqs i (clearEvents (comm.base.reqs i))))

/-- `ncclIbResiliencyHandleProbeCompleted`, for the failed request `i`. -/
def ncclIbResiliencyHandleProbeCompleted (net : NetEnv) (s : ResSendComm) (i : Nat) :
    ResOut NcclIbSendComm SendPost :=
  let request := s.comm.base.reqs i
  let slot := slotOf request.id
  if missingData s.res slot request then ncclIbResiliencyRepostRequest net s i
  else
    let (comm, ret) := clearGroup slot (List.range request.nreqs) s.comm
    ⟨comm, [], ret⟩

/-- `sizeof(bool) * NCCL_IB_MAX_QPS`. -/
def probeBytes : Nat := NCCL_IB_MAX_QPS

/-- The read of the flags of completion record `slot`. -/
def probeWr (res : NcclIbResiliencySend) (slot devIndex : Nat) : IbvSendWr :=
  let info := res.remCmplRecordsInfo (res.base.probingQps devIndex).remDevIdx
  { IbvSendWr.zero with
    sge := ⟨res.probingResultsAddr + slot * probeBytes, probeBytes,
      (res.base.devs devIndex).probingResultLkey⟩
    num_sge := 1
    opcode := IBV_WR_RDMA_READ
    wr_id := slot
    signaled := true
    remote_addr := (info.addr + sizeofCompletionRecord * slot + 4 * NCCL_NET_IB_MAX_RECVS) % 2 ^ 64
    rkey := info.rkey }

/-- `ncclIbResiliencyProbePost`, for entry `k` of `failedRequests`, which is in state
`Pending`. -/
def ncclIbResiliencyProbePost (env : ResEnv) (base : NcclIbNetCommBase) (res : NcclIbResiliencySend)
    (k i : Nat) : ResOut NcclIbResiliencySend ProbePost :=
  let failedSendRequest := res.failedRequests k
  if failedSendRequest.failedAttempts > env.maxAttempts then
    ⟨res, [], .error (.ret ncclRemoteError)⟩
  else if elapsed env.now failedSendRequest.time < nanos env.probeDelay then ⟨res, [], .ok ()⟩
  else
    match (List.range res.base.ndevs).find? (fun d => (res.base.devs d).state = .Ok) with
    | none => ⟨res, [], .error (.ret ncclInternalError)⟩
    | some devIndex =>
      let resDev := res.base.devs devIndex
      if resDev.nOutstandingProbes ≥ NET_IB_MAX_REQUESTS then
        ⟨res, [], .error (.ret ncclInternalError)⟩
      else
        ⟨{ res.setFailed k { failedSendRequest with state := .ProbePosted } with
            base := { res.base with
              devs := Function.update res.base.devs devIndex
                { resDev with nOutstandingProbes := resDev.nOutstandingProbes + 1 } } },
          [⟨devIndex, probeWr res (slotOf (base.reqs i).id) devIndex⟩], .ok ()⟩

/-- `ncclIbResiliencyProbeHandleCompletionEvent`. -/
def ncclIbResiliencyProbeHandleCompletionEvent (env : ResEnv) (s : ResSendComm) (status : WcStatus)
    (wr_id devIndex : Nat) : ResSendComm × Except Stop Unit :=
  let k := slotOf wr_id
  let failedRequest := s.res.failedRequests k
  if status = .IBV_WC_SUCCESS then
    ({ s with res := s.res.setFailed k { failedRequest with state := .ProbeCompleted } }, .ok ())
  else
    match ncclIbResiliencyCheckErrorNotFatal s.res.base status devIndex with
    | .error e => (s, .error e)
    | .ok () =>
      match ncclIbResiliencyHandleDeviceFailure env s.comm.base s.res.base devIndex with
      | (base, resBase, .error e) =>
        (⟨{ s.comm with base }, { s.res with base := resBase }⟩, .error e)
      | (base, resBase, .ok ()) =>
        (⟨{ s.comm with base }, { s.res with base := resBase }.setFailed k
          { failedRequest with
            state := .Pending, failedAttempts := failedRequest.failedAttempts + 1 }⟩, .ok ())

/-- One turn of the loop of `ncclIbResiliencyProgress` over the failed requests. -/
def progressRequest (net : NetEnv) (env : ResEnv) (s : ResSendComm) (k : Nat) :
    ResOut ResSendComm (SendPost ⊕ ProbePost) :=
  let failedRequest := s.res.failedRequests k
  match failedRequest.request, failedRequest.state with
  | some i, .Pending =>
    let out := ncclIbResiliencyProbePost env s.comm.base s.res k i
    ⟨{ s with res := out.comm }, out.posts.map .inr, out.ret⟩
  | some i, .ProbeCompleted =>
    let out := ncclIbResiliencyHandleProbeCompleted net s i
    match out.ret with
    | .error e => ⟨{ s with comm := out.comm }, out.posts.map .inl, .error e⟩
    | .ok () =>
      let (res, ret) := ncclIbResiliencySendRequestFree s.res k
      ⟨⟨out.comm, res⟩, out.posts.map .inl, ret⟩
  | _, _ => ⟨s, [], .ok ()⟩

/-! ## A completion with error -/

/-- `ncclIbResiliencyHandleCompletionErrorSender`. -/
def ncclIbResiliencyHandleCompletionErrorSender (env : ResEnv) (s : ResSendComm)
    (wr_id devIndex : Nat) : ResSendComm × Except Stop Unit :=
  match s.comm.sendReqs (wr_id % 2 ^ 8) 0 with
  | none => (s, .ok ())
  | some i =>
    let (res, ret) := ncclIbResiliencySendRequestInit env s.res i (s.comm.base.reqs i) devIndex
    ({ s with res }, ret)

/-- `ncclIbResiliencyHandleCompletionErrorReceiver`. A flush request gives up the
device, and a CTS message is sent again. -/
def ncclIbResiliencyHandleCompletionErrorReceiver (comm : NcclIbRecvComm) (status : WcStatus)
    (wr_id devIndex : Nat) : ResOut NcclIbRecvComm RecvPost :=
  if wr_id = NCCL_IB_RECV_WR_ID_DUMMY then
    ⟨comm, [], if status ≠ .IBV_WC_WR_FLUSH_ERR then .error (.ret ncclInternalError) else .ok ()⟩
  else
    let inFlushRange := NCCL_IB_FLUSH_REQ_WR_ID_OFFSET ≤ wr_id ∧
      wr_id < NCCL_IB_FLUSH_REQ_WR_ID_OFFSET + NET_IB_MAX_REQUESTS
    if ¬ (wr_id < NET_IB_MAX_REQUESTS ∨ inFlushRange) then
      ⟨comm, [], .error (.ret ncclInternalError)⟩
    else
      let request :=
        if inFlushRange then some (wr_id - NCCL_IB_FLUSH_REQ_WR_ID_OFFSET) else comm.recvReqs wr_id
      match request with
      | none => ⟨comm, [], .error .badPointer⟩
      | some i =>
        let req := comm.base.reqs i
        match req.type with
        | NCCL_NET_IB_REQ_FLUSH =>
          ⟨comm.withReqs (Function.update comm.base.reqs i
            { req with events := Function.update req.events devIndex 0 }), [], .ok ()⟩
        | NCCL_NET_IB_REQ_RECV =>
          match ncclIbPostFifo comm req (slotOf req.id) with
          | .error e => ⟨comm, [], .error e⟩
          | .ok cts => ⟨comm, [.send cts], .ok ()⟩
        | NCCL_NET_IB_REQ_UNUSED => ⟨comm, [], .ok ()⟩
        | _ => ⟨comm, [], .error (.ret ncclInternalError)⟩

/-- `ncclIbResiliencyHandleCompletionError` on a send comm. -/
def sendCompletionError (env : ResEnv) (s : ResSendComm) (status : WcStatus)
    (wr_id devIndex : Nat) : ResSendComm × Except Stop Unit :=
  match ncclIbResiliencyCheckErrorNotFatal s.res.base status devIndex with
  | .error e => (s, .error e)
  | .ok () =>
    match ncclIbResiliencyHandleDeviceFailure env s.comm.base s.res.base devIndex with
    | (base, resBase, .error e) =>
      (⟨{ s.comm with base }, { s.res with base := resBase }⟩, .error e)
    | (base, resBase, .ok ()) =>
      ncclIbResiliencyHandleCompletionErrorSender env
        ⟨{ s.comm with base }, { s.res with base := resBase }⟩ wr_id devIndex

/-- `ncclIbResiliencyHandleCompletionError` on a receive comm. -/
def recvCompletionError (env : ResEnv) (s : ResRecvComm) (status : WcStatus)
    (wr_id devIndex : Nat) : ResOut ResRecvComm RecvPost :=
  match ncclIbResiliencyCheckErrorNotFatal s.res status devIndex with
  | .error e => ⟨s, [], .error e⟩
  | .ok () =>
    match ncclIbResiliencyHandleDeviceFailure env s.comm.base s.res devIndex with
    | (base, res, .error e) => ⟨⟨{ s.comm with base }, res⟩, [], .error e⟩
    | (base, res, .ok ()) =>
      let out := ncclIbResiliencyHandleCompletionErrorReceiver { s.comm with base } status
        wr_id devIndex
      ⟨⟨out.comm, res⟩, out.posts, out.ret⟩

/-! ## Completeness -/

/-- `ncclIbResiliencyRequestIsComplete`: no event is left, or the devices that gave
too many make up for those that gave too few. -/
def ncclIbResiliencyRequestIsComplete (ndevs : Nat) (events : Nat → Int) : Bool :=
  let remaining := ((List.range ndevs).map (fun d => if events d < 0 then 0 else events d)).sum
  let negative := ((List.range ndevs).map (fun d => if events d < 0 then events d else 0)).sum
  remaining = 0 || -negative = remaining

/-- `ncclIbRequestIsComplete`, with a resiliency context. -/
def requestIsComplete (res : NcclIbResiliency) (req : NcclIbRequest) : Bool :=
  ncclIbRequestIsComplete req || ncclIbResiliencyRequestIsComplete res.ndevs req.events

end net_ib.resiliency
