-- A connected pair of comms and the work requests that they post. Every call of the
-- code can come at any time, with any completions, and the elements of the CTS
-- messages reach the FIFO of the sender in any order. The history fields (bufOf and
-- below) are not in the code: they say which buffer an element is for, and what has
-- been posted.
import MrcPlugin.FailoverTest
import MrcPlugin.Handshake
import MrcPlugin.RecvFrames
import MrcPlugin.Lib.Runs

namespace net_ib

open p2p recovery resiliency

/-! ## What is posted -/

/-- The memory of the peer that a work request is for. A completion record has the
sizes, which the sender writes, and the flags, which it reads. -/
inductive Memory
  | buffer (b : RecvBuffer)
  | sizes
  | completions
  | ctsFifo
  | remoteSpeedBuf

/-- A work request on a QP. One that moves no bytes may be for no memory. -/
structure Posting where
  qp : NcclIbQp
  wr : IbvSendWr
  mem : Option Memory

/-- The memory of work request `j` on the list of a QP. -/
def memoryOf (nreqs : Nat) (bufs : Nat → Option RecvBuffer) (j : Nat) : Option Memory :=
  if j < nreqs then (bufs j).map Memory.buffer
  else if nreqs > 1 then some .sizes
  else none

/-- Whether the handshake has created the QP of a post. -/
def isCreated (base : NcclIbNetCommBase) (post : SendPost) : Bool := post.qp < base.nqps.getD 0

/-- The postings of `ncclIbMultiSend` for `slot`. `bufs` are the buffers of its
elements. -/
def sendPostings (comm : NcclIbSendComm) (slot : Nat) (bufs : Nat → Option RecvBuffer)
    (posts : List SendPost) : List Posting :=
  (posts.filter (isCreated comm.base)).flatMap (fun post => post.wrs.zipIdx.map (fun w =>
    { qp := comm.base.qps post.qp
      wr := w.1
      mem := memoryOf (comm.ctsFifo slot 0).nreqs bufs w.2 }))

/-- The postings of a receive comm, which are all for the memory `mem`. The reads of
a flush stay on their device. -/
def recvPostings (comm : NcclIbRecvComm) (mem : Memory) (posts : List RecvPost) : List Posting :=
  ((writesOf posts).filter (isCreated comm.base)).flatMap (fun post =>
    post.wrs.map (fun wr => ⟨comm.base.qps post.qp, wr, some mem⟩))

/-- The posting of a probe. -/
def probePosting (res : NcclIbResiliencySend) (post : ProbePost) : Posting :=
  ⟨res.base.probingQps post.dev, post.wr, some .completions⟩

/-! ## The state -/

/-- `flight` are the elements that were read and are not written yet. -/
structure Pair where
  snd : ResSendComm
  rcv : ResRecvComm
  flight : List (NcclIbSendFifo × Option RecvBuffer)
  bufOf : Nat → Nat → Option RecvBuffer
  sndBufOf : Nat → Nat → Option RecvBuffer
  posted : List Posting

/-- Whether a call of `ncclIbIrecv` gets as far as its elements. -/
def irecvFills (env : NetEnv) (comm : NcclIbRecvComm) (bufs : List RecvBuffer) : Bool :=
  comm.base.ready && decide (bufs.length ≤ NCCL_NET_IB_MAX_RECVS) &&
    (ncclIbStatsCheckFatalCount env comm.base.fatalErrorCount).isOk &&
    (requestQps comm.base comm.base.fifoHead).isOk && (ncclIbGetRequest comm.base).isOk

/-- The slot whose group a piece of `ncclIbTest` may send again. -/
def replaySlot (s : ResSendComm) : FailoverPc → Nat
  | .requests k =>
    slotOf (s.comm.base.reqs ((s.res.failedRequests k).request.getD 0)).id
  | _ => 0

/-! ## The steps -/

inductive PairAct
  | isend (env : NetEnv) (a : IsendArgs)
  | sendTest (env : NetEnv) (cq : List p2p.Cqe) (call : TestCall) (n : Nat)
  | failoverTest (env : FailoverEnv) (q : Cqs) (call : FailoverCall) (n : Nat)
  | sendThread (d : Nat) (st : DevState)
  | speed (buf : NcclIbRemoteSpeedBuf)
  | probeRead (k : Nat) (flags : Nat → Bool)
  | irecv (env : NetEnv) (bufs : List RecvBuffer)
  | iflush (bufs : List FlushBuffer)
  | recvTest (env : NetEnv) (cq : List p2p.Cqe) (call : TestCall) (n : Nat)
  | recvError (env : ResEnv) (status : WcStatus) (wr_id d : Nat)
  | recvProgress (d : Nat)
  | recvThread (d : Nat) (st : DevState)
  | record (slot : Nat) (record : NcclIbRequestCompletionRecord)
  | ctsRead (slot r : Nat)
  | ctsWrite (n slot r : Nat)

/-- One step of a pair. A state after a bad pointer is like any other. -/
def Pair.next : PairAct → Pair → Option Pair
  | .isend env a, x =>
    let out := ncclIbIsend env x.snd.comm a
    let slot := slotOf x.snd.comm.base.fifoHead
    some { x with
      snd := { x.snd with comm := out.comm }
      posted := x.posted ++ sendPostings x.snd.comm slot (x.sndBufOf slot) out.posts }
  | .sendTest env cq call n, x =>
    -- Without a context, a send comm posts nothing here.
    if x.snd.comm.base.resiliency then none
    else some { x with snd := { x.snd with comm := (ncclIbTest env x.snd.comm cq call n).comm } }
  | .failoverTest env q call n, x =>
    if !x.snd.comm.base.resiliency then none
    else
      let out := failoverTest env x.snd q call n
      let slot := replaySlot x.snd call.pc
      some { x with
        snd := out.s
        posted := x.posted ++
          sendPostings x.snd.comm slot (x.sndBufOf slot) (out.posts.filterMap Sum.getLeft?) ++
          (out.posts.filterMap Sum.getRight?).map (probePosting x.snd.res) }
  | .sendThread d st, x =>
    some { x with snd := { x.snd with res := { x.snd.res with base := x.snd.res.base.setState d st } } }
  | .speed buf, x =>
    some { x with snd := { x.snd with comm := { x.snd.comm with remoteSpeedBuf := buf } } }
  | .probeRead k flags, x =>
    some { x with snd := { x.snd with res := { x.snd.res with
      probingResults := Function.update x.snd.res.probingResults k flags } } }
  | .irecv env bufs, x =>
    let comm := x.rcv.comm
    let out := ncclIbIrecv env comm bufs
    let slot := slotOf comm.base.fifoHead
    some { x with
      rcv := { x.rcv with comm := out.comm }
      bufOf :=
        if irecvFills env comm bufs then
          Function.update x.bufOf slot
            (fun r => if r < bufs.length then bufs[r]? else x.bufOf slot r)
        else x.bufOf
      posted := x.posted ++ recvPostings comm .ctsFifo out.posts }
  | .iflush bufs, x =>
    some { x with rcv := { x.rcv with comm := (ncclIbIflush x.rcv.comm bufs).comm } }
  | .recvTest env cq call n, x =>
    let out := ncclIbTest env x.rcv.comm cq call n
    some { x with
      rcv := { x.rcv with comm := out.comm }
      posted := x.posted ++ recvPostings x.rcv.comm .remoteSpeedBuf out.posts }
  | .recvError env status wr_id d, x =>
    let out := recvCompletionError env x.rcv status wr_id d
    some { x with
      rcv := out.comm
      posted := x.posted ++ recvPostings x.rcv.comm .ctsFifo out.posts }
  | .recvProgress d, x =>
    let (base, res, _) := progressDev x.rcv.comm.base x.rcv.res d
    some { x with rcv := ⟨{ x.rcv.comm with base }, res⟩ }
  | .recvThread d st, x =>
    some { x with rcv := { x.rcv with res := x.rcv.res.setState d st } }
  | .record slot record, x =>
    some { x with rcv := { x.rcv with comm := { x.rcv.comm with
      cmplsRecords := Function.update x.rcv.comm.cmplsRecords slot record } } }
  | .ctsRead slot r, x =>
    some { x with flight := x.flight ++ [(x.rcv.comm.remCtsFifo.elems slot r, x.bufOf slot r)] }
  | .ctsWrite n slot r, x =>
    match x.flight[n]? with
    | none => none
    | some (e, b) =>
      some { x with
        snd := { x.snd with comm := { x.snd.comm with
          ctsFifo := Function.update x.snd.comm.ctsFifo slot
            (Function.update (x.snd.comm.ctsFifo slot) r e) } }
        sndBufOf := Function.update x.sndBufOf slot (Function.update (x.sndBufOf slot) r b) }

/-! ## The runs -/

/-- Two comms that are about to exchange their metadata: both have devices, and the
probing QPs and the table of rkeys are as `calloc` left them. -/
structure Connection where
  input : HandshakeInput
  send : ResSendComm
  recv : ResRecvComm
  send_ndevs : 0 < send.comm.base.ndevs
  recv_ndevs : 0 < recv.comm.base.ndevs
  probing_qps : ∀ i, send.res.base.probingQps i = NcclIbQp.zero
  rkeys : ∀ d, send.comm.remCmplsRecords.rkeys d = 0

/-- The number of devices of the sender. -/
def Connection.ndevs (c : Connection) : Nat := c.send.comm.base.ndevs

/-- The number of devices of the receiver. -/
def Connection.nRemDevs (c : Connection) : Nat := c.recv.comm.base.ndevs

/-- The rkey that the peer registered for a memory on its device `d`, if it did. -/
def Connection.rkey (c : Connection) : Memory → Nat → Option Nat
  | .buffer b, d => if d < c.nRemDevs then some (b.rkeys d) else none
  | .sizes, d => if d < c.nRemDevs then some (c.input.recvMem.cmplsRecordsRkey d) else none
  | .completions, d => if d < c.nRemDevs then some (c.input.recvMem.cmplsRecordsRkey d) else none
  | .ctsFifo, d => if d < c.ndevs then some (c.input.sendMem.ctsFifoRkey d) else none
  | .remoteSpeedBuf, d => if d = 0 then c.input.sendMem.remoteSpeed.map Prod.snd else none

/-- The work request carries the rkey of its memory on the remote device of its QP. -/
def Posting.Right (c : Connection) (p : Posting) : Prop :=
  ∀ m, p.mem = some m → c.rkey m p.qp.remDevIdx = some p.wr.rkey

/-- Right after the handshake. -/
structure Pair.Init (c : Connection) (x : Pair) : Prop where
  connected : handshake c.input c.send c.recv = .ok (x.snd, x.rcv)
  flight : x.flight = []
  bufOf : ∀ slot r, x.bufOf slot r = none
  sndBufOf : ∀ slot r, x.sndBufOf slot r = none
  posted : x.posted = []

/-- The runs of a connected pair. -/
def pairSystem (c : Connection) : runs.System Pair where
  init := Pair.Init c
  step := fun x y => ∃ act, x.next act = some y

end net_ib
