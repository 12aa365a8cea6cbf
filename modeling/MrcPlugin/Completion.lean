-- How a work completion is processed (p2p.cc): which request it belongs to, and
-- what it changes. A send comm finds the group by its slot. A receive comm finds
-- the request by the immediate value, by the slot or by the flush offset.
import MrcPlugin.Irecv

namespace net_ib.p2p

/-! ## The data -/

inductive IbvWcOpcode
  | IBV_WC_SEND
  | IBV_WC_RDMA_WRITE
  | IBV_WC_RDMA_READ
  | IBV_WC_RECV
  | IBV_WC_RECV_RDMA_WITH_IMM
deriving DecidableEq, Repr

export IbvWcOpcode (IBV_WC_RDMA_WRITE IBV_WC_RDMA_READ IBV_WC_RECV_RDMA_WITH_IMM)

/-- `ibv_wc`. `success` is whether the status is `IBV_WC_SUCCESS`, and
`imm_data` is in the byte order of the host. -/
structure IbvWc where
  success : Bool
  wr_id : Nat
  opcode : IbvWcOpcode
  imm_data : Nat
  byte_len : Nat
  qp_num : Nat
deriving DecidableEq, Repr

/-- What the processing of a completion does: the comm after it, its posts, and
whether it stops the test. -/
structure EventOut (C : Type) where
  comm : C
  posts : List RecvPost
  ret : Except Stop Unit

/-- One event less on a device. -/
def takeEvent (req : NcclIbRequest) (devIndex : Nat) : NcclIbRequest :=
  { req with events := Function.update req.events devIndex (req.events devIndex - 1) }

/-! ## The send side -/

/-- `ncclIbRequestRetrieveFromCompletion` on a send comm. -/
def sendRetrieve (comm : NcclIbSendComm) (wc : IbvWc) : Except Stop (Option Nat) :=
  if !wc.success then .error (.ret ncclInternalError)
  else .ok (comm.sendReqs (wc.wr_id % 2 ^ 8) 0)

/-- The loop of `ncclIbCompletionEventProcess` over the sends of a group. -/
def chargeSends (slot devIndex : Nat) :
    List Nat → NcclIbSendComm → NcclIbSendComm × Except Stop Unit
  | [], comm => (comm, .ok ())
  | j :: js, comm =>
    match comm.sendReqs slot j with
    | none => (comm, .error .badPointer)
    | some i =>
      if !comm.base.resiliency ∧ (comm.base.reqs i).events devIndex ≤ 0 then
        (comm, .error (.ret ncclInternalError))
      else
        chargeSends slot devIndex js (comm.withReqs
          (Function.update comm.base.reqs i (takeEvent (comm.base.reqs i) devIndex)))

/-- `ncclIbCompletionEventProcess` on a send comm. A completion with the id of a
speed update would write to the comm as if it were a receive comm. -/
def sendEventProcess (comm : NcclIbSendComm) (wc : IbvWc) (devIndex : Nat) :
    EventOut NcclIbSendComm :=
  if wc.wr_id = NCCL_IB_SPEED_UPDATE_WR_ID then ⟨comm, [], .error .badPointer⟩
  else
    match sendRetrieve comm wc with
    | .error e => ⟨comm, [], .error e⟩
    | .ok none => ⟨comm, [], .error (.ret ncclInternalError)⟩
    | .ok (some i) =>
      let req := comm.base.reqs i
      if req.type ≠ NCCL_NET_IB_REQ_SEND then ⟨comm, [], .error (.ret ncclInternalError)⟩
      else
        let (comm, ret) := chargeSends (slotOf req.id) devIndex (List.range req.nreqs) comm
        ⟨comm, [], ret⟩

/-- `ncclIbCheckSpeedChanges`. -/
def ncclIbCheckSpeedChanges (env : NetEnv) (comm : NcclIbSendComm) : NcclIbSendComm :=
  let base := comm.base
  let localChange := base.speedChangeCounter ≠ env.speedChangeCounter
  let remoteChange := comm.remoteSpeedCounter ≠ comm.remoteSpeedBuf.counter
  let remDevs := fun i =>
    if remoteChange ∧ i < base.nRemDevs then
      { base.remDevs i with currSpeed := comm.remoteSpeedBuf.speedGbps i * 1000 }
    else base.remDevs i
  let base := { base with speedChangeCounter := env.speedChangeCounter, remDevs }
  { comm with
    remoteSpeedCounter := comm.remoteSpeedBuf.counter
    base :=
      if localChange ∨ remoteChange then
        ncclIbComputeLbWeights env (ncclIbComputeDevSpeeds env comm.ibDevN base)
      else base }

/-- `ncclIbRequestComplete` on a send comm, with the sizes that it reports. The
slot is free again after the last send of its group. -/
def sendRequestComplete (env : NetEnv) (comm : NcclIbSendComm) (i : Nat) :
    NcclIbSendComm × List Int :=
  let req := comm.base.reqs i
  let comm :=
    if req.type = NCCL_NET_IB_REQ_SEND then
      let slot := slotOf req.id
      let cnt := comm.sendReqsCnt slot - 1
      let comm := { comm with sendReqsCnt := Function.update comm.sendReqsCnt slot cnt }
      if cnt = 0 then
        let comm := { comm with
          sendReqs := Function.update comm.sendReqs slot (fun _ => none) }
        if env.eventBasedLb then ncclIbCheckSpeedChanges env comm else comm
      else comm
    else comm
  (comm.withReqs (Function.update comm.base.reqs i (ncclIbFreeRequest (comm.base.reqs i))),
    if req.type = NCCL_NET_IB_REQ_SEND then [req.send.size] else [])

/-! ## The receive side -/

/-- `ncclIbRequestRetrieveAsIndex`. -/
def ncclIbRequestRetrieveAsIndex (reqIndex : Nat) : Except Stop (Option Nat) :=
  if reqIndex ≥ NET_IB_MAX_REQUESTS then .error (.ret ncclInternalError) else .ok (some reqIndex)

/-- `ncclIbRequestRetrieveFromCompletion` on a receive comm. -/
def recvRetrieve (comm : NcclIbRecvComm) (wc : IbvWc) : Except Stop (Option Nat) :=
  if !wc.success then .error (.ret ncclInternalError)
  else if wc.opcode = IBV_WC_RECV_RDMA_WITH_IMM ∧ comm.base.recvMatchingScheme = BY_ID then
    .ok (comm.recvReqs (wc.imm_data % NET_IB_MAX_REQUESTS))
  else if wc.opcode = IBV_WC_RDMA_READ then
    ncclIbRequestRetrieveAsIndex
      ((wc.wr_id + (2 ^ 64 - NCCL_IB_FLUSH_REQ_WR_ID_OFFSET)) % 2 ^ 64 % 2 ^ 32)
  -- A larger number would index past the end of `recvReqs`.
  else if wc.wr_id ≥ NET_IB_MAX_REQUESTS then .error .badPointer
  else .ok (comm.recvReqs wc.wr_id)

/-- `ncclIbPostSpeedUpdateToRemote`. -/
def ncclIbPostSpeedUpdateToRemote (env : NetEnv) (comm : NcclIbRecvComm) :
    NcclIbRecvComm × List RecvPost :=
  if env.speedChangeCounter = comm.base.speedChangeCounter ∨ comm.remSpeedBufAddr = 0 ∨
      comm.postedSpeedUpdate then (comm, [])
  else
    let newSpeedsGbps := fun i => env.currSpeed (comm.base.devs i) / 1000 % 2 ^ 16
    let comm := { comm with
      base := { comm.base with speedChangeCounter := env.speedChangeCounter } }
    if (List.range comm.base.ndevs).all (fun i => newSpeedsGbps i = comm.lastSentSpeeds i) then
      (comm, [])
    else
      let qp := comm.base.qps 0
      let speeds := fun old i => if i < comm.base.ndevs then newSpeedsGbps i else old i
      ({ comm with
          speedUpdateBuf := ⟨comm.lastSentCounter + 1, speeds comm.speedUpdateBuf.speedGbps⟩
          postedSpeedUpdate := true
          lastSentSpeeds := speeds comm.lastSentSpeeds
          lastSentCounter := comm.lastSentCounter + 1 },
        [.send ⟨0, [{ IbvSendWr.zero with
          wr_id := NCCL_IB_SPEED_UPDATE_WR_ID
          signaled := true
          sge := ⟨comm.speedUpdateBufAddr, 32, comm.speedUpdateLkey qp.devIndex⟩
          num_sge := 1
          remote_addr := comm.remSpeedBufAddr
          rkey := (comm.base.remDevs qp.remDevIdx).remSpeedBufRkey }]⟩])

/-- The size that a completion brings for a single receive. -/
def recordSize (comm : NcclIbRecvComm) (i : Nat) (wc : IbvWc) : NcclIbRecvComm :=
  let req := comm.base.reqs i
  let record := comm.cmplsRecords req.recv.cmplsRecords
  if req.nreqs ≠ 1 then comm
  else if comm.base.recvMatchingScheme = BY_INDEX then
    { comm with
      cmplsRecords := Function.update comm.cmplsRecords req.recv.cmplsRecords
        { record with sizes := Function.update record.sizes 0 (i32 wc.imm_data) } }
  else if record.sizes 0 = 0 then
    comm.withReqs (Function.update comm.base.reqs i
      { req with recv := { req.recv with aggSize := i32 (req.recv.aggSize + wc.byte_len) } })
  else comm

/-- A preposted receive is used up: the completion is recorded and another
receive is posted on the same QP. -/
def repost (comm : NcclIbRecvComm) (i : Nat) (wc : IbvWc) (devIndex : Nat) :
    EventOut NcclIbRecvComm :=
  if !comm.prepostReceiveWorkRequests then ⟨comm, [], .ok ()⟩
  else
    match ncclIbCommBaseGetQpByQpNum comm.base devIndex wc.qp_num with
    | .error e => ⟨comm, [], .error e⟩
    | .ok qpIndex =>
      let slot := (comm.base.reqs i).recv.cmplsRecords
      let record := comm.cmplsRecords slot
      ⟨{ comm with
          cmplsRecords := Function.update comm.cmplsRecords slot
            { record with completions := Function.update record.completions qpIndex true } },
        [.recv qpIndex comm.recvWrId], .ok ()⟩

/-- One event less for request `i`. -/
def chargeRecv (comm : NcclIbRecvComm) (i devIndex : Nat) : NcclIbRecvComm :=
  comm.withReqs (Function.update comm.base.reqs i (takeEvent (comm.base.reqs i) devIndex))

/-- A completion of data for request `i`. -/
def recvData (comm : NcclIbRecvComm) (i : Nat) (wc : IbvWc) (devIndex : Nat) :
    EventOut NcclIbRecvComm :=
  let type := (comm.base.reqs i).type
  if type = NCCL_NET_IB_REQ_UNUSED ∧ comm.base.resiliency then ⟨comm, [], .ok ()⟩
  else if type ≠ NCCL_NET_IB_REQ_RECV ∧ !comm.base.resiliency then
    ⟨comm, [], .error (.ret ncclInternalError)⟩
  else
    let out := repost (recordSize comm i wc) i wc devIndex
    match out.ret with
    | .error _ => out
    | .ok () => { out with comm := chargeRecv out.comm i devIndex }

/-- `ncclIbCompletionEventProcess` on a receive comm. -/
def recvEventProcess (env : NetEnv) (comm : NcclIbRecvComm) (wc : IbvWc) (devIndex : Nat) :
    EventOut NcclIbRecvComm :=
  if wc.wr_id = NCCL_IB_SPEED_UPDATE_WR_ID then
    ⟨{ comm with postedSpeedUpdate := false }, [], .ok ()⟩
  else
    match recvRetrieve comm wc with
    | .error e => ⟨comm, [], .error e⟩
    | .ok none => ⟨comm, [], .error (.ret ncclInternalError)⟩
    | .ok (some i) =>
      match wc.opcode with
      | IBV_WC_RECV_RDMA_WITH_IMM => recvData comm i wc devIndex
      | IBV_WC_RDMA_READ => ⟨chargeRecv comm i devIndex, [], .ok ()⟩
      | IBV_WC_RDMA_WRITE =>
        -- A CTS message has arrived. Speed changes of this side are sent now.
        if (comm.base.reqs i).type ≠ NCCL_NET_IB_REQ_UNUSED ∧ env.eventBasedLb ∧
            env.eventBasedLbRemote then
          let (comm, posts) := ncclIbPostSpeedUpdateToRemote env comm
          ⟨comm, posts, .ok ()⟩
        else ⟨comm, [], .ok ()⟩
      | _ => ⟨comm, [], .error (.ret ncclInternalError)⟩

/-- `ncclIbRequestComplete` on a receive comm, with the sizes that it reports. -/
def recvRequestComplete (comm : NcclIbRecvComm) (i : Nat) : NcclIbRecvComm × List Int :=
  let req := comm.base.reqs i
  let record := comm.cmplsRecords req.recv.cmplsRecords
  let sizes :=
    if req.type ≠ NCCL_NET_IB_REQ_RECV then []
    else if req.nreqs > 1 ∨ record.sizes 0 > 0 then (List.range req.nreqs).map record.sizes
    else (List.range req.nreqs).map (fun _ => req.recv.aggSize)
  (comm.withReqs (Function.update comm.base.reqs i (ncclIbFreeRequest req)), sizes)

end net_ib.p2p
