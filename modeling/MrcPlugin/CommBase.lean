-- The part of a comm that the send and the receive side share (common.h): its
-- requests, its QPs, and the rules that pick the QPs of a request. Arrays are
-- functions of the index, and a pointer into an array is the index.
import MrcPlugin.Basic
import Mathlib.Logic.Function.Basic

namespace net_ib

/-! ## The data -/

/-- The type of a request. -/
inductive ReqType
  | NCCL_NET_IB_REQ_UNUSED
  | NCCL_NET_IB_REQ_SEND
  | NCCL_NET_IB_REQ_RECV
  | NCCL_NET_IB_REQ_FLUSH
  | NCCL_NET_IB_REQ_GIN_IPUT
  | NCCL_NET_IB_REQ_GIN_IGET
deriving DecidableEq, Repr

export ReqType (NCCL_NET_IB_REQ_UNUSED NCCL_NET_IB_REQ_SEND NCCL_NET_IB_REQ_RECV
  NCCL_NET_IB_REQ_FLUSH)

/-- The values of `ncclIbRequestMatchingScheme`. The field that holds it is an `int`. -/
def BY_INDEX : Int := 0

def BY_ID : Int := 1

/-- What the data path reads of `ncclIbQp`. -/
structure NcclIbQp where
  qpn : Nat
  devIndex : Nat
  remDevIdx : Nat
  maxInlineData : Nat
deriving DecidableEq, Repr

/-- The member `send` of the union in `ncclIbRequest`. -/
structure SendPart where
  size : Int
  data : Nat
  lkeys : Nat → Nat
  sentData : Nat → Bool
  weights : Nat → Nat

/-- The member `recv` of the union in `ncclIbRequest`. The pointer to the
completion record is the slot of the record. -/
structure RecvPart where
  cmplsRecords : Nat
  aggSize : Int

/-- `ncclIbRequest`. Entry `i` of `devBases` is NULL or the base of device `i` of the comm. -/
structure NcclIbRequest where
  type : ReqType
  events : Nat → Int
  devBases : Nat → Bool
  id : Nat
  nreqs : Nat
  send : SendPart
  recv : RecvPart

/-- `ncclIbDevInfo`: what a peer tells about one of its devices. A GID is its 128 bits. -/
structure NcclIbDevInfo where
  lid : Nat
  ib_port : Nat
  mtu : Nat
  link_layer : Nat
  gid : Nat
  rkey : Nat
  remoteGid : Nat
  currSpeed : Nat
  remSpeedBufRkey : Nat
deriving DecidableEq, Repr

/-- `ncclIbNetCommBase`. `nqps` and `nDataQps` are `none` for -1, and
`resiliency` is whether the pointer is set. -/
structure NcclIbNetCommBase where
  ndevs : Nat
  devs : Nat → Nat
  isSend : Bool
  reqs : Nat → NcclIbRequest
  qps : Nat → NcclIbQp
  activeQps : Nat → Option Nat
  fifoHead : Nat
  nqps : Option Nat
  splitDataOnQps : Int
  ready : Bool
  nRemDevs : Nat
  remOooRq : Bool
  localOooRq : Bool
  recvMatchingScheme : Int
  nDataQps : Option Nat
  remDevs : Nat → NcclIbDevInfo
  fatalErrorCount : Nat
  resiliency : Bool
  speedChangeCounter : Nat
  totalSpeed : Nat
  weights : Nat → Nat
  devSpeeds : Nat → Nat

/-- The globals that the data path reads: parameters, the counters of fatal
errors of the devices, and the speeds that the async thread keeps. -/
structure NetEnv where
  asyncEvents : Bool
  eventBasedLb : Bool
  eventBasedLbRemote : Bool
  arThreshold : Int
  devFatalErrorCount : Nat → Nat
  speedChangeCounter : Nat
  currSpeed : Nat → Nat

/-! ## The functions of common.h and common.cc -/

/-- `ncclIbStatsCheckFatalCount`. -/
def ncclIbStatsCheckFatalCount (env : NetEnv) (fatalErrorCount : Nat) : Except Stop Unit :=
  if env.asyncEvents ∧ fatalErrorCount ≠ 0 then .error (.ret ncclSystemError) else .ok ()

/-- `ncclIbCommBaseGetQpByIndex`. The index is relative to the device. -/
def ncclIbCommBaseGetQpByIndex (base : NcclIbNetCommBase) (devIndex qpIndex : Nat) :
    Except Stop (Option Nat) :=
  if devIndex ≥ base.ndevs then .error (.ret ncclInternalError)
  else .ok (base.activeQps (base.ndevs * qpIndex + devIndex))

/-- `ncclIbCommBaseGetNqpsPerRequest`. -/
def ncclIbCommBaseGetNqpsPerRequest (base : NcclIbNetCommBase) : Except Stop Nat :=
  match base.nDataQps, base.nqps with
  | none, _ => .error (.ret ncclInternalError)
  | _, none => .error (.ret ncclInternalError)
  | some nDataQps, some nqps => .ok (if base.splitDataOnQps = 1 then nqps else nDataQps)

/-- `ncclIbCommBaseGetQpForRequest`: the QP that carries part `qpIndex` (a
`uint8_t`) of request `id`, and the index of that part in `qps`. The two differ
when a failed QP is replaced. -/
def ncclIbCommBaseGetQpForRequest (base : NcclIbNetCommBase) (id qpIndex : Nat) :
    Except Stop (Nat × Nat) := do
  let nQps ← ncclIbCommBaseGetNqpsPerRequest base
  let outQpIndex := (id * nQps + qpIndex % 2 ^ 8) % 2 ^ 64 % base.nqps.getD 0
  match base.activeQps outQpIndex with
  | none => .error (.ret ncclInternalError)
  | some outQp => .ok (outQp, outQpIndex)

/-- The QPs of request `id`, as `ncclIbMultiSend`, `ncclIbIsend` and `ncclIbIrecv`
collect them before they change anything. -/
def requestQps (base : NcclIbNetCommBase) (id : Nat) : Except Stop (List (Nat × Nat)) := do
  let nqps ← ncclIbCommBaseGetNqpsPerRequest base
  if nqps > NCCL_IB_MAX_QPS then throw (.ret ncclInternalError)
  (List.range nqps).mapM (fun i => ncclIbCommBaseGetQpForRequest base id i)

/-- The loop of `ncclIbCommBaseGetQpByQpNum`, with `n` QPs of the device left
to look at. -/
def findQpNum (base : NcclIbNetCommBase) (devIndex qpNum : Nat) : Nat → Nat → Option Nat
  | 0, _ => none
  | n + 1, qpIndexInDev =>
    let qp := base.ndevs * qpIndexInDev + devIndex
    if (base.qps qp).qpn = qpNum then some qp
    else findQpNum base devIndex qpNum n (qpIndexInDev + 1)

/-- `ncclIbCommBaseGetQpByQpNum`: the index of the QP in `qps`. -/
def ncclIbCommBaseGetQpByQpNum (base : NcclIbNetCommBase) (devIndex qpNum : Nat) :
    Except Stop Nat :=
  if devIndex ≥ base.ndevs then .error (.ret ncclInternalError)
  else
    match findQpNum base devIndex qpNum (base.nqps.getD 0 / base.ndevs) 0 with
    | none => .error (.ret ncclInternalError)
    | some qp => .ok qp

/-- `ncclIbGetRequest`: the first unused request, with its counters cleared. -/
def ncclIbGetRequest (base : NcclIbNetCommBase) : Except Stop (NcclIbNetCommBase × Nat) :=
  match (List.range NET_IB_MAX_REQUESTS).find?
      (fun i => (base.reqs i).type = NCCL_NET_IB_REQ_UNUSED) with
  | none => .error (.ret ncclInternalError)
  | some i =>
    .ok ({ base with
      reqs := Function.update base.reqs i
        { base.reqs i with events := fun _ => 0, devBases := fun _ => false } }, i)

/-- `ncclIbFreeRequest`. -/
def ncclIbFreeRequest (r : NcclIbRequest) : NcclIbRequest :=
  { r with type := NCCL_NET_IB_REQ_UNUSED }

/-- `ncclIbAddEvent`. -/
def ncclIbAddEvent (req : NcclIbRequest) (devIndex : Nat) : NcclIbRequest :=
  { req with
    events := Function.update req.events devIndex (req.events devIndex + 1)
    devBases := Function.update req.devBases devIndex true }

/-- `ncclIbComputeLbWeights`. The weights and their sum are `uint8_t`. -/
def ncclIbComputeLbWeights (env : NetEnv) (base : NcclIbNetCommBase) : NcclIbNetCommBase :=
  let weight := fun d =>
    (if env.eventBasedLb then base.devSpeeds d * 100 % 2 ^ 64 / base.totalSpeed
      else 100 / base.ndevs) % 2 ^ 8
  let totalWeight := ((List.range base.ndevs).map weight).sum % 2 ^ 8
  let weights := fun d => if d < base.ndevs then weight d else base.weights d
  let last := base.ndevs - 1
  { base with
    weights :=
      if totalWeight < 100 then
        Function.update weights last ((weights last + (100 - totalWeight)) % 2 ^ 8)
      else weights }

/-- `ncclIbComputeDevSpeeds`. -/
def ncclIbComputeDevSpeeds (env : NetEnv) (ibDevN : Nat → Nat) (base : NcclIbNetCommBase) :
    NcclIbNetCommBase :=
  let speed := fun d =>
    let localSpeed := env.currSpeed (ibDevN d)
    let remSpeed := (base.remDevs (base.qps d).remDevIdx).currSpeed
    min localSpeed (if remSpeed > 0 then remSpeed else localSpeed)
  { base with
    devSpeeds := fun d => if d < base.ndevs then speed d else base.devSpeeds d
    totalSpeed := ((List.range base.ndevs).map speed).sum % 2 ^ 64 }

end net_ib
