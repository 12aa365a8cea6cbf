-- The posting of a group of sends (p2p.cc, ncclIbMultiSend). Every send of the
-- group is cut into one chunk for each QP of the request. Each QP gets one list
-- of work requests, with one data write for each send of the group.
import MrcPlugin.CommBase

namespace net_ib.p2p

/-! ## The data -/

/-- `ibv_sge`. -/
structure IbvSge where
  addr : Nat
  length : Nat
  lkey : Nat
deriving DecidableEq, Repr

/-- The opcodes of the work requests that the transport posts on a send queue. -/
inductive IbvWrOpcode
  | IBV_WR_RDMA_WRITE
  | IBV_WR_RDMA_WRITE_WITH_IMM
  | IBV_WR_RDMA_READ
deriving DecidableEq, Repr

export IbvWrOpcode (IBV_WR_RDMA_WRITE IBV_WR_RDMA_WRITE_WITH_IMM IBV_WR_RDMA_READ)

/-- `ibv_send_wr`, with its only scatter element and with the bits of
`send_flags` that the transport sets. -/
structure IbvSendWr where
  wr_id : Nat
  opcode : IbvWrOpcode
  signaled : Bool
  inlineData : Bool
  imm_data : Nat
  sge : IbvSge
  num_sge : Nat
  remote_addr : Nat
  rkey : Nat
deriving DecidableEq, Repr

/-- A work request after `memset`. -/
def IbvSendWr.zero : IbvSendWr :=
  { wr_id := 0, opcode := IBV_WR_RDMA_WRITE, signaled := false, inlineData := false
    imm_data := 0, sge := ⟨0, 0, 0⟩, num_sge := 0, remote_addr := 0, rkey := 0 }

/-- One call of `wrap_mrc_post_send`: the QP and the list of work requests. -/
structure SendPost where
  qp : Nat
  wrs : List IbvSendWr
deriving DecidableEq, Repr

/-- `ncclIbSendFifo`: one element of a CTS message. -/
structure NcclIbSendFifo where
  addr : Nat
  size : Nat
  rkeys : Nat → Nat
  nreqs : Nat
  tag : Nat
  idx : Nat

/-- `sizeof(struct ncclIbSendFifo)`. -/
def sizeofSendFifo : Nat := 64

/-- `sizeof(struct ncclIbRequestCompletionRecord)`: 8 sizes and 128 flags. -/
def sizeofCompletionRecord : Nat := 160

/-- `ncclIbRemCompletionsRecords`. `elemsAddr` is the address of `elems`. -/
structure NcclIbRemCompletionsRecords where
  elems : Nat → Nat → Int
  elemsAddr : Nat
  addr : Nat
  rkeys : Nat → Nat

/-- `ncclIbRemoteSpeedBuf`. -/
structure NcclIbRemoteSpeedBuf where
  counter : Nat
  speedGbps : Nat → Nat

/-- `ncclIbSendComm`. `ibDevN` and `sgeLkey` are fields of `devs`. -/
structure NcclIbSendComm where
  base : NcclIbNetCommBase
  ibDevN : Nat → Nat
  sgeLkey : Nat → Nat
  ctsFifo : Nat → Nat → NcclIbSendFifo
  sendReqs : Nat → Nat → Option Nat
  sendReqsCnt : Nat → Int
  remCmplsRecords : NcclIbRemCompletionsRecords
  ar : Bool
  remoteSpeedBuf : NcclIbRemoteSpeedBuf
  remoteSpeedCounter : Nat

/-- The comm with other contents of its requests. -/
def NcclIbSendComm.withReqs (comm : NcclIbSendComm) (reqs : Nat → NcclIbRequest) :
    NcclIbSendComm :=
  { comm with base := { comm.base with reqs } }

def IB_WRITE_CHUNK_ALIGNMENT : Nat := 128

/-! ## The chunks of a send -/

/-- The share of a QP: the part of the device by its weight, over the QPs of the
device, rounded up. It is stored in the 32 bits of `sge.length`. -/
def chunkShare (size : Int) (weight qpsOnDev : Nat) : Nat :=
  DIVUP (DIVUP (u64 size * weight % 2 ^ 64) (100 * qpsOnDev)) IB_WRITE_CHUNK_ALIGNMENT *
    IB_WRITE_CHUNK_ALIGNMENT % 2 ^ 32

/-- The length of the chunk: the share, or what is left. -/
def chunkLength (size : Int) (weight qpsOnDev sendOffset : Nat) : Nat :=
  min (u32 (size - sendOffset)) (chunkShare size weight qpsOnDev)

/-! ## ncclIbMultiSend -/

/-- The fixed values of one call of `ncclIbMultiSend`. -/
structure MultiSendCall where
  comm : NcclIbSendComm
  slot : Nat
  nreqs : Nat
  /-- `reqs[r]`, the requests of the group. -/
  reqs : Nat → Nat
  /-- The index of `lastWr` in `wrs`. -/
  lastWr : Nat
  qpsPerDev : Nat → Nat

/-- What the loop over the QPs carries. -/
structure MultiSendState where
  wrs : Nat → IbvSendWr
  sendOffsets : Nat → Nat
  reqs : Nat → NcclIbRequest
  posted : List SendPost

/-- The slot, once for each of the first `r + 1` bytes. -/
def multiSendWrId (slot r : Nat) : Nat :=
  ((List.range (r + 1)).map (fun j => (slot % 2 ^ 8) * 2 ^ (8 * j))).sum % 2 ^ 64

/-- The data write of send `r` before the first QP. -/
def initWr (call : MultiSendCall) (r : Nat) : IbvSendWr :=
  { IbvSendWr.zero with
    sge := ⟨(call.comm.base.reqs (call.reqs r)).send.data, 0, 0⟩
    remote_addr := (call.comm.ctsFifo call.slot r).addr
    wr_id := multiSendWrId call.slot r
    num_sge := 1 }

/-- Whether an extra work request follows the data writes: it carries the sizes
of a multi-receive, or only the immediate value with adaptive routing. -/
def hasExtraWr (env : NetEnv) (comm : NcclIbSendComm) (nreqs : Nat) (size0 : Int) : Bool :=
  nreqs > 1 || (!(comm.base.remOooRq && comm.base.localOooRq) && comm.ar && size0 > env.arThreshold)

/-- The work request that gets the immediate value, before the first QP. -/
def initLastWr (call : MultiSendCall) (immData : Nat) : IbvSendWr :=
  let wr :=
    if call.lastWr < call.nreqs then initWr call call.lastWr
    else if call.nreqs > 1 then
      { IbvSendWr.zero with
        remote_addr :=
          (call.comm.remCmplsRecords.addr + call.slot * sizeofCompletionRecord) % 2 ^ 64
        num_sge := 1 }
    else IbvSendWr.zero
  { wr with
    wr_id := multiSendWrId call.slot (call.nreqs - 1)
    opcode := IBV_WR_RDMA_WRITE_WITH_IMM
    imm_data := immData
    signaled := true }

/-- The data write of send `r` on one QP: the rkey of the remote device, and the
chunk. A write of no bytes loses its scatter element. -/
def chunkWr (call : MultiSendCall) (s : MultiSendState) (qp : NcclIbQp) (origDevIndex r : Nat) :
    IbvSendWr :=
  let send := (call.comm.base.reqs (call.reqs r)).send
  let weights := (call.comm.base.reqs (call.reqs 0)).send.weights
  let length := chunkLength send.size (weights origDevIndex) (call.qpsPerDev origDevIndex)
    (s.sendOffsets r)
  let wr := s.wrs r
  { wr with
    rkey := (call.comm.ctsFifo call.slot r).rkeys qp.remDevIdx
    num_sge := if length = 0 then 0 else wr.num_sge
    sge := { wr.sge with
      length
      lkey := if length = 0 then wr.sge.lkey else send.lkeys qp.devIndex } }

/-- The write of the sizes on one QP. -/
def sizesWr (call : MultiSendCall) (wr : IbvSendWr) (devIndex : Nat) : IbvSendWr :=
  { wr with
    sge := ⟨(call.comm.remCmplsRecords.elemsAddr +
      call.slot * NCCL_NET_IB_MAX_RECVS * 4) % 2 ^ 64, call.nreqs * 4, call.comm.sgeLkey devIndex⟩
    rkey := call.comm.remCmplsRecords.rkeys devIndex }

/-- The work requests as one QP gets them. -/
def qpWrs (call : MultiSendCall) (s : MultiSendState) (qp : NcclIbQp) (origDevIndex r : Nat) :
    IbvSendWr :=
  if r < call.nreqs then chunkWr call s qp origDevIndex r
  else if r = call.lastWr ∧ call.nreqs > 1 then sizesWr call (s.wrs r) qp.devIndex
  else s.wrs r

/-- A data write after its QP: both addresses move on by what was sent. -/
def advanceWr (wr : IbvSendWr) : IbvSendWr :=
  { wr with
    sge := { wr.sge with addr := (wr.sge.addr + wr.sge.length) % 2 ^ 64 }
    remote_addr := (wr.remote_addr + wr.sge.length) % 2 ^ 64 }

/-- `reqs[r]->send.sentData[qpIndex] = true` for every send of the group. -/
def markSent (reqs : Nat → NcclIbRequest) (group : List Nat) (qpIndex : Nat) :
    Nat → NcclIbRequest :=
  group.foldl (fun reqs i =>
    Function.update reqs i { reqs i with send :=
      { (reqs i).send with sentData := Function.update (reqs i).send.sentData qpIndex true } })
    reqs

/-- One turn of the loop over the QPs. Only the resiliency context makes a turn
skip the post: the QP has sent its part before. -/
def postOnQp (call : MultiSendCall) (s : MultiSendState) (q : Nat × Nat) : MultiSendState :=
  let (p, qpIndex) := q
  let base := call.comm.base
  let wrs := qpWrs call s (base.qps p) (base.qps qpIndex).devIndex
  let skip := base.resiliency && (s.reqs (call.reqs 0)).send.sentData qpIndex
  { wrs := fun r => if r < call.nreqs then advanceWr (wrs r) else wrs r
    sendOffsets := fun r =>
      if r < call.nreqs then
        min ((s.sendOffsets r + (wrs r).sge.length) % 2 ^ 32)
          (u32 (base.reqs (call.reqs r)).send.size)
      else s.sendOffsets r
    reqs := markSent s.reqs ((List.range call.nreqs).map call.reqs) qpIndex
    posted :=
      if skip then s.posted
      else s.posted ++ [⟨p, (List.range (call.lastWr + 1)).map wrs⟩] }

/-- The state before the loop over the QPs. -/
def multiSendInit (call : MultiSendCall) (immData : Nat) : MultiSendState :=
  { wrs := fun r => if r = call.lastWr then initLastWr call immData else initWr call r
    sendOffsets := fun _ => 0
    reqs := call.comm.base.reqs
    posted := [] }

/-- The fixed values of a call that has found its requests and its QPs. -/
def multiSendCall (env : NetEnv) (comm : NcclIbSendComm) (slot : Nat) (qps : List (Nat × Nat)) :
    MultiSendCall :=
  let nreqs := (comm.ctsFifo slot 0).nreqs
  let reqs := fun r => (comm.sendReqs slot r).getD 0
  { comm, slot, nreqs, reqs
    lastWr :=
      if hasExtraWr env comm nreqs (comm.base.reqs (reqs 0)).send.size then nreqs else nreqs - 1
    qpsPerDev := fun d => qps.countP (fun q => (comm.base.qps q.2).devIndex = d) }

/-- The immediate value: the id of the request, or the size of its first send. -/
def immDataOf (base : NcclIbNetCommBase) (first : NcclIbRequest) : Nat :=
  if base.recvMatchingScheme = BY_ID then first.id % 2 ^ 32 else u32 first.send.size

/-- The part of `ncclIbMultiSend` after its checks. -/
def multiSendPost (env : NetEnv) (comm : NcclIbSendComm) (slot : Nat) (qps : List (Nat × Nat)) :
    NcclIbSendComm × List SendPost :=
  let call := multiSendCall env comm slot qps
  let s := qps.foldl (postOnQp call)
    (multiSendInit call (immDataOf comm.base (comm.base.reqs (call.reqs 0))))
  (comm.withReqs s.reqs, s.posted)

/-- `ncclIbMultiSend`, on a provider that takes every post. -/
def ncclIbMultiSend (env : NetEnv) (comm : NcclIbSendComm) (slot : Nat) :
    Except Stop (NcclIbSendComm × List SendPost) := do
  let nreqs := (comm.ctsFifo slot 0).nreqs
  if nreqs > NCCL_NET_IB_MAX_RECVS then throw (.ret ncclInternalError)
  let req0 ← deref (comm.sendReqs slot 0)
  let qps ← requestQps comm.base (comm.base.reqs req0).id
  let _ ← (List.range nreqs).mapM (fun r => deref (comm.sendReqs slot r))
  return multiSendPost env comm slot qps

/-- A send that succeeds has found its QPs. -/
theorem multiSend_post {env : NetEnv} {comm comm' : NcclIbSendComm} {slot : Nat}
    {posts : List SendPost} (h : ncclIbMultiSend env comm slot = .ok (comm', posts)) :
    ∃ qps, (comm', posts) = multiSendPost env comm slot qps := by
  unfold ncclIbMultiSend at h
  simp only at h
  split at h
  · cases h
  cases hreq : deref (comm.sendReqs slot 0) with
  | error e =>
    rw [hreq] at h
    cases h
  | ok req0 =>
    rw [hreq] at h
    cases hqps : requestQps comm.base (comm.base.reqs req0).id with
    | error e =>
      simp only [bind, Except.bind, hqps] at h
      cases h
    | ok qps =>
      simp only [bind, Except.bind, hqps] at h
      split at h
      · cases h
      · cases h
        exact ⟨qps, rfl⟩

end net_ib.p2p
