-- How a comm is made (common.cc, p2p_resiliency.cc), and the sizes of its queues
-- (connect.cc). The warning of ncclIbBaseCommInit says that the failover parameter
-- is ignored for MRC data QPs. The functions read it all the same.
import MrcPlugin.QpLookup
import MrcPlugin.Striping

namespace net_ib

/-! ## The parameters -/

/-- The parameters that the functions below read, as `NCCL_PARAM` gives them
(`int64_t`). -/
structure IbParams where
  splitDataOnQps : Int
  prepostReceiveWorkRequests : Int
  receiverSideMatchingScheme : Int
  oooRq : Int
  resiliencyPortFailover : Int
  eventBasedLb : Int
  eventBasedLbRemote : Int
deriving DecidableEq, Repr

/-- The values when no variable is set. -/
def IbParams.defaults : IbParams :=
  { splitDataOnQps := 0, prepostReceiveWorkRequests := 1, receiverSideMatchingScheme := -2
    oooRq := 0, resiliencyPortFailover := 0, eventBasedLb := 0, eventBasedLbRemote := 1 }

/-! ## The functions of common.cc -/

/-- `ncclIbResiliencyInit`: whether the comm gets a context. -/
def ncclIbResiliencyInit (p : IbParams) : Bool := p.resiliencyPortFailover ≠ 0

/-- `ncclIbBaseCommInit`. common.cc declares three of the parameters as `int`. -/
def ncclIbBaseCommInit (p : IbParams) (base : NcclIbNetCommBase) (isSend : Bool) :
    NcclIbNetCommBase :=
  let scheme := i32 p.receiverSideMatchingScheme
  { base with
    activeQps := fun i => some i
    nqps := none
    splitDataOnQps := i32 p.splitDataOnQps
    nDataQps := none
    isSend
    ready := false
    speedChangeCounter := 0
    totalSpeed := 0
    weights := fun _ => 0
    devSpeeds := fun _ => 0
    resiliency := ncclIbResiliencyInit p
    recvMatchingScheme :=
      if i32 p.oooRq ≠ 0 ∨ i32 p.resiliencyPortFailover = 1 ∨ p.prepostReceiveWorkRequests = 1 then
        BY_ID
      else if scheme = -2 then BY_INDEX else scheme }

/-- `ncclIbSendCommInit`. -/
def ncclIbSendCommInit (p : IbParams) (comm : p2p.NcclIbSendComm) : p2p.NcclIbSendComm :=
  { comm with base := ncclIbBaseCommInit p comm.base true }

/-- `ncclIbRecvCommInit`. -/
def ncclIbRecvCommInit (p : IbParams) (comm : p2p.NcclIbRecvComm) : p2p.NcclIbRecvComm :=
  let base := ncclIbBaseCommInit p comm.base false
  let prepost := p.prepostReceiveWorkRequests
  { comm with
    base
    recvWrId := p2p.NCCL_IB_RECV_WR_ID_DUMMY
    prepostReceiveWorkRequests :=
      base.resiliency || decide (i32 p.oooRq ≠ 0) || decide (prepost ≠ -2 ∧ prepost ≠ 0) }

/-! ## The sizes of the queues -/

/-- `ncclIbResiliencyDataCqSizeGet`. -/
def ncclIbResiliencyDataCqSizeGet (base : NcclIbNetCommBase) : Except Stop Nat := do
  let nqps ← ncclIbCommBaseGetNqpsPerRequest base
  let cqSize := if base.isSend then NET_IB_MAX_REQUESTS * nqps else NET_IB_MAX_REQUESTS * 2 * nqps
  if base.ndevs = 0 then throw (.ret ncclInternalError)
  pure (cqSize * base.ndevs)

/-- `ncclIbResiliencyDataRqSizeGet`. -/
def ncclIbResiliencyDataRqSizeGet (base : NcclIbNetCommBase) : Except Stop Nat := do
  if base.isSend then throw (.ret ncclInternalError)
  let nqps ← ncclIbCommBaseGetNqpsPerRequest base
  if NET_IB_MAX_REQUESTS * nqps = 0 then throw (.ret ncclInternalError)
  pure (NET_IB_MAX_REQUESTS * nqps)

/-- Room for one speed update. -/
def speedUpdateRoom (p : IbParams) : Nat :=
  if p.eventBasedLb ≠ 0 ∧ p.eventBasedLbRemote ≠ 0 then 1 else 0

/-- `cqSize` of `ncclIbConnectImpl` and `ncclIbAcceptImpl`. -/
def dataCqSize (p : IbParams) (base : NcclIbNetCommBase) (nQpsPerDev : Nat) : Except Stop Nat :=
  if base.resiliency then ncclIbResiliencyDataCqSizeGet base
  else if base.isSend then .ok (NET_IB_MAX_REQUESTS * nQpsPerDev)
  else .ok (2 * NET_IB_MAX_REQUESTS * nQpsPerDev + speedUpdateRoom p)

/-- `maxRecvWorkRequest` of `ncclIbReceiverQpsCreateToRts`, which is also the
number of receives that `ncclIbPostReceiveWorkRequestsOnQp` posts. -/
def dataRqSize (base : NcclIbNetCommBase) : Except Stop Nat :=
  if base.resiliency then ncclIbResiliencyDataRqSizeGet base else .ok NET_IB_MAX_REQUESTS

/-- `maxSendWorkRequest` of `ncclIbReceiverQpsCreateToRts`. -/
def ctsSqSize (p : IbParams) (base : NcclIbNetCommBase) : Nat :=
  NET_IB_MAX_REQUESTS * (if base.resiliency then 1 else 2) + speedUpdateRoom p

/-- The device lists are exchanged: the counts of shape `sh` are known. -/
def NcclIbNetCommBase.withShape (base : NcclIbNetCommBase) (sh : Shape) : NcclIbNetCommBase :=
  { base with ndevs := sh.ndevs, nqps := some sh.nqps, nDataQps := some sh.nDataQps }

/-! ## The law -/

/-- With the same other parameters and the failover parameter at 0. -/
def IbParams.noFailover (p : IbParams) : IbParams := { p with resiliencyPortFailover := 0 }

/-- The failover parameter makes no difference: the comms are the ones that 0
gives, without a context, and so are the sizes of their queues. -/
structure FailoverIgnored (p : IbParams) : Prop where
  send : ∀ comm, ncclIbSendCommInit p comm = ncclIbSendCommInit p.noFailover comm
  recv : ∀ comm, ncclIbRecvCommInit p comm = ncclIbRecvCommInit p.noFailover comm
  noContext : ∀ base isSend, (ncclIbBaseCommInit p base isSend).resiliency = false
  cqSize : ∀ base isSend (sh : Shape),
    dataCqSize p ((ncclIbBaseCommInit p base isSend).withShape sh) sh.qpsPerDev =
      dataCqSize p.noFailover ((ncclIbBaseCommInit p.noFailover base isSend).withShape sh)
        sh.qpsPerDev
  rqSize : ∀ base (sh : Shape),
    dataRqSize ((ncclIbBaseCommInit p base false).withShape sh) =
      dataRqSize ((ncclIbBaseCommInit p.noFailover base false).withShape sh)
  sqSize : ∀ base, ctsSqSize p (ncclIbBaseCommInit p base false) =
    ctsSqSize p.noFailover (ncclIbBaseCommInit p.noFailover base false)

/-- The failover parameter is ignored exactly when it is 0. -/
theorem failover_is_ignored_iff_it_is_off (p : IbParams) :
    FailoverIgnored p ↔ p.resiliencyPortFailover = 0 := by
  constructor
  · intro h
    have hnone := h.noContext (freshBase Shape.one true) true
    exact of_not_not (of_decide_eq_false hnone)
  · intro hzero
    have hp : p.noFailover = p := by
      unfold IbParams.noFailover
      rw [← hzero]
    have hnone : ncclIbResiliencyInit p = false :=
      decide_eq_false (fun hne => hne hzero)
    exact
      { send := fun _ => by rw [hp]
        recv := fun _ => by rw [hp]
        noContext := fun _ _ => hnone
        cqSize := fun _ _ _ => by rw [hp]
        rqSize := fun _ _ => by rw [hp]
        sqSize := fun _ => by rw [hp] }

/-- With the failover parameter at 1 and preposting off, a receive comm gets a
context, preposts, matches by id, and has other sizes than with 0. -/
theorem failover_changes_a_receive_comm :
    let p := { IbParams.defaults with prepostReceiveWorkRequests := 0, resiliencyPortFailover := 1 }
    let comm := ncclIbRecvCommInit p (p2p.freshRecv Shape.twoTwo false)
    let comm₀ := ncclIbRecvCommInit p.noFailover (p2p.freshRecv Shape.twoTwo false)
    ¬ FailoverIgnored p ∧ comm.base.resiliency ≠ comm₀.base.resiliency ∧
      comm.prepostReceiveWorkRequests ≠ comm₀.prepostReceiveWorkRequests ∧
      comm.base.recvMatchingScheme ≠ comm₀.base.recvMatchingScheme ∧
      dataCqSize p (comm.base.withShape Shape.twoTwo) 2 = .ok 2048 ∧
      dataCqSize p.noFailover (comm₀.base.withShape Shape.twoTwo) 2 = .ok 1024 := by
  refine ⟨fun h => ?_, by decide, by decide, by decide, by decide, by decide⟩
  exact absurd (h.noContext (freshBase Shape.one true) true) (by decide)

end net_ib
