-- The receive side (p2p.cc): ncclIbIrecv publishes a group of receive buffers
-- to the sender with a CTS message, and ncclIbIflush reads back from the device
-- so that received data is visible.
import MrcPlugin.Isend

namespace net_ib.p2p

/-! ## The data -/

/-- `ncclIbRemCtsFifo`. `elemsAddr` is the address of `elems`, and `inlineData`
is the flag `IBV_SEND_INLINE` in `flags`. -/
structure NcclIbRemCtsFifo where
  elems : Nat → Nat → NcclIbSendFifo
  elemsAddr : Nat
  addr : Nat
  inlineData : Bool

/-- `ncclIbRequestCompletionRecord`. -/
structure NcclIbRequestCompletionRecord where
  sizes : Nat → Int
  completions : Nat → Bool

/-- `ncclIbRecvComm`. `ibDevN`, `sgeLkey`, `speedUpdateLkey` and `flushSge` are
fields of `devs`, and `recvWrId` is the `wr_id` of `ibRecvWorkRequest`. -/
structure NcclIbRecvComm where
  base : NcclIbNetCommBase
  ibDevN : Nat → Nat
  sgeLkey : Nat → Nat
  speedUpdateLkey : Nat → Nat
  flushSge : Nat → IbvSge
  recvReqs : Nat → Option Nat
  remCtsFifo : NcclIbRemCtsFifo
  cmplsRecords : Nat → NcclIbRequestCompletionRecord
  flushEnabled : Bool
  flushQpsCreated : Bool
  prepostReceiveWorkRequests : Bool
  recvWrId : Nat
  remSpeedBufAddr : Nat
  speedUpdateBuf : NcclIbRemoteSpeedBuf
  speedUpdateBufAddr : Nat
  lastSentSpeeds : Nat → Nat
  lastSentCounter : Nat
  postedSpeedUpdate : Bool

/-- The comm with other contents of its requests. -/
def NcclIbRecvComm.withReqs (comm : NcclIbRecvComm) (reqs : Nat → NcclIbRequest) :
    NcclIbRecvComm :=
  { comm with base := { comm.base with reqs } }

def NCCL_IB_FLUSH_REQ_WR_ID_OFFSET : Nat := 0x1000

def NCCL_IB_RECV_WR_ID_DUMMY : Nat := 2 ^ 64 - 1

def NCCL_IB_SPEED_UPDATE_WR_ID : Nat := 2 ^ 64 - 2

/-- What the receive side posts: a write on a data QP, a receive work request on
a data QP, or a read on the flush QP of a device. -/
inductive RecvPost
  | send (post : SendPost)
  | recv (qp wr_id : Nat)
  | flush (dev : Nat) (wr : IbvSendWr)
deriving DecidableEq, Repr

/-- One buffer of a call of `ncclIbIrecv`. The memory handle gives one rkey for
each device. -/
structure RecvBuffer where
  data : Nat
  size : Nat
  tag : Int
  rkeys : Nat → Nat

/-- What a call on a receive comm does. -/
structure RecvOut where
  comm : NcclIbRecvComm
  posts : List RecvPost
  ret : Except Stop (Option Nat)

/-! ## ncclIbPostFifo -/

/-- `ncclIbRecvCommGetQpForCts`. The id is cut to 32 bits. -/
def ncclIbRecvCommGetQpForCts (base : NcclIbNetCommBase) (id : Nat) : Except Stop Nat := do
  let devIndex := id % 2 ^ 32 % base.ndevs
  match ← ncclIbCommBaseGetQpByIndex base devIndex 0 with
  | none => throw (.ret ncclInternalError)
  | some qp => return qp

/-- `ncclIbPostFifo`: the write that sends the elements of `slot` to the sender. -/
def ncclIbPostFifo (comm : NcclIbRecvComm) (req : NcclIbRequest) (slot : Nat) :
    Except Stop SendPost := do
  let p ← ncclIbRecvCommGetQpForCts comm.base req.id
  let ctsQp := comm.base.qps p
  let length := req.nreqs * sizeofSendFifo
  let row := slot * NCCL_NET_IB_MAX_RECVS * sizeofSendFifo
  let signaled := slot = ctsQp.devIndex ∨ comm.base.resiliency = true
  return ⟨p, [{ IbvSendWr.zero with
    remote_addr := (comm.remCtsFifo.addr + row) % 2 ^ 64
    rkey := (comm.base.remDevs ctsQp.remDevIdx).rkey
    sge := ⟨(comm.remCtsFifo.elemsAddr + row) % 2 ^ 64, length, comm.sgeLkey ctsQp.devIndex⟩
    num_sge := 1
    inlineData := comm.remCtsFifo.inlineData && length ≤ ctsQp.maxInlineData
    signaled
    wr_id := if signaled then slot else 0 }]⟩

/-! ## ncclIbIrecv -/

/-- The element that tells the sender about buffer `b` of group `id`. -/
def ctsElem (ndevs id n : Nat) (old : NcclIbSendFifo) (b : RecvBuffer) : NcclIbSendFifo :=
  { addr := b.data
    size := b.size
    rkeys := fun j => if j < ndevs then b.rkeys j else old.rkeys j
    nreqs := n
    tag := u32 b.tag
    idx := id + 1 }

/-- The elements of a slot after a call of `ncclIbIrecv` has filled them. -/
def fillElems (ndevs id : Nat) (old : Nat → NcclIbSendFifo) (bufs : List RecvBuffer) (r : Nat) :
    NcclIbSendFifo :=
  match bufs[r]? with
  | none => old r
  | some b => ctsElem ndevs id bufs.length (old r) b

/-- The request of group `id`. -/
def recvRequest (base : NcclIbNetCommBase) (old : NcclIbRequest) (n : Nat)
    (devIndexes : List Nat) : NcclIbRequest :=
  let req := { old with
    id := base.fifoHead
    type := NCCL_NET_IB_REQ_RECV
    nreqs := n
    devBases := fun d => (base.resiliency && decide (d < base.ndevs)) || old.devBases d
    recv := { cmplsRecords := slotOf base.fifoHead, aggSize := 0 } }
  devIndexes.foldl ncclIbAddEvent req

/-- A completion record for a new group: the sizes of its buffers and all flags
are cleared. -/
def clearRecord (n : Nat) (record : NcclIbRequestCompletionRecord) : NcclIbRequestCompletionRecord :=
  { sizes := fun r => if r < n then 0 else record.sizes r, completions := fun _ => false }

/-- `ncclIbIrecv`, on a provider that takes every post. -/
def ncclIbIrecv (env : NetEnv) (comm : NcclIbRecvComm) (bufs : List RecvBuffer) : RecvOut :=
  let n := bufs.length
  if !comm.base.ready then ⟨comm, [], .error (.ret ncclInternalError)⟩
  else if n > NCCL_NET_IB_MAX_RECVS then ⟨comm, [], .error (.ret ncclInternalError)⟩
  else
    match ncclIbStatsCheckFatalCount env comm.base.fatalErrorCount with
    | .error e => ⟨comm, [], .error e⟩
    | .ok () =>
      match requestQps comm.base comm.base.fifoHead with
      | .error e => ⟨comm, [], .error e⟩
      | .ok qps =>
        match ncclIbGetRequest comm.base with
        | .error e => ⟨comm, [], .error e⟩
        | .ok (base, i) =>
          let slot := slotOf base.fifoHead
          let req := recvRequest base (base.reqs i) n (qps.map (fun q => (base.qps q.1).devIndex))
          let comm := { comm with
            base := { base with reqs := Function.update base.reqs i req }
            recvReqs := Function.update comm.recvReqs slot (some i)
            recvWrId := if comm.prepostReceiveWorkRequests then comm.recvWrId else slot
            cmplsRecords := Function.update comm.cmplsRecords slot
              (clearRecord n (comm.cmplsRecords slot))
            remCtsFifo := { comm.remCtsFifo with
              elems := Function.update comm.remCtsFifo.elems slot
                (fillElems base.ndevs base.fifoHead (comm.remCtsFifo.elems slot) bufs) } }
          let recvs :=
            if comm.prepostReceiveWorkRequests then [] else qps.map (fun q => RecvPost.recv q.1 slot)
          match ncclIbPostFifo comm req slot with
          | .error e => ⟨comm, recvs, .error e⟩
          | .ok cts =>
            ⟨{ comm with base := { comm.base with fifoHead := comm.base.fifoHead + 1 } },
              recvs ++ [.send cts], .ok (some i)⟩

/-! ## ncclIbIflush -/

/-- One buffer of a call of `ncclIbIflush`. -/
structure FlushBuffer where
  data : Nat
  size : Int
  rkeys : Nat → Nat

/-- The read on the flush QP of device `d`, for request `i`. -/
def flushWr (comm : NcclIbRecvComm) (b : FlushBuffer) (i d : Nat) : IbvSendWr :=
  { IbvSendWr.zero with
    wr_id := i + NCCL_IB_FLUSH_REQ_WR_ID_OFFSET
    opcode := IBV_WR_RDMA_READ
    signaled := true
    sge := comm.flushSge d
    num_sge := 1
    remote_addr := b.data
    rkey := b.rkeys d }

/-- `ncclIbIflush`. Only the last buffer with a size is read, on every device,
since the device of the data is not known. The flush QPs are there after the
first call that gets this far. -/
def ncclIbIflush (comm : NcclIbRecvComm) (bufs : List FlushBuffer) : RecvOut :=
  match comm.flushEnabled, (bufs.filter (fun b => b.size ≠ 0)).getLast? with
  | false, _ => ⟨comm, [], .ok none⟩
  | _, none => ⟨comm, [], .ok none⟩
  | true, some b =>
    let comm := { comm with flushQpsCreated := true }
    match ncclIbGetRequest comm.base with
    | .error e => ⟨comm, [], .error e⟩
    | .ok (base, i) =>
      let devs := List.range base.ndevs
      let req := devs.foldl ncclIbAddEvent { base.reqs i with type := NCCL_NET_IB_REQ_FLUSH }
      ⟨{ comm with base := { base with reqs := Function.update base.reqs i req } },
        devs.map (fun d => .flush d (flushWr comm b i d)), .ok (some i)⟩

/-! ## A comm as the handshake leaves it -/

/-- A receive comm of shape `sh` before its first call. -/
def freshRecv (sh : Shape) (prepost : Bool) : NcclIbRecvComm :=
  { base := freshBase sh false
    ibDevN := fun d => d
    sgeLkey := fun _ => 0
    speedUpdateLkey := fun _ => 0
    flushSge := fun _ => ⟨0, 0, 0⟩
    recvReqs := fun _ => none
    remCtsFifo := { elems := fun _ _ => blankElem, elemsAddr := 0, addr := 0, inlineData := false }
    cmplsRecords := fun _ => { sizes := fun _ => 0, completions := fun _ => false }
    flushEnabled := true
    flushQpsCreated := false
    prepostReceiveWorkRequests := prepost
    recvWrId := NCCL_IB_RECV_WR_ID_DUMMY
    remSpeedBufAddr := 0
    speedUpdateBuf := { counter := 0, speedGbps := fun _ => 0 }
    speedUpdateBufAddr := 0
    lastSentSpeeds := fun _ => 0
    lastSentCounter := 0
    postedSpeedUpdate := false }

end net_ib.p2p
