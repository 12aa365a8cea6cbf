-- A send comm and a receive comm that are connected. A call on one side changes
-- its own comm, and its work requests reach the other side: the data of a group
-- in the order of each QP, the elements of a CTS message one by one in any order.
import MrcPlugin.SendRuns
import MrcPlugin.RecvReach

namespace net_ib.p2p

open runs

/-! ## The state -/

/-- An element of a CTS message on its way from row `src` of the receiver to row
`dst` of the sender. It is read when it is posted inline, or later. -/
structure CtsMsg where
  id : Nat
  src : Nat
  dst : Nat
  r : Nat
  elem : Option NcclIbSendFifo

/-- Both sides and what is between them. `groups` are the elements that each
receive group has written. -/
structure World where
  snd : SendState
  rcv : RecvState
  cts : List CtsMsg
  groups : List (List NcclIbSendFifo)

/-! ## What reaches the other side -/

/-- The last write of a group on a QP, when it reaches the receiver. QP `q` of the
sender is connected to QP `q` of the receiver. -/
def dataMsgs (base : NcclIbNetCommBase) (id : Nat) (p : SendPost) : List Cqe :=
  (p.wrs.filter (fun wr => wr.opcode = IBV_WR_RDMA_WRITE_WITH_IMM)).map (fun wr =>
    { wc := ⟨true, 0, IBV_WC_RECV_RDMA_WITH_IMM, wr.imm_data,
        if wr.num_sge = 0 then 0 else wr.sge.length, (base.qps p.qp).qpn⟩
      qp := p.qp
      dev := (base.qps p.qp).devIndex
      flush := false
      cause := .data id })

/-- The row that an address in a CTS FIFO is in. -/
def rowOf (addr base : Nat) : Nat := (addr + (2 ^ 64 - base % 2 ^ 64)) % 2 ^ 64 / rowBytes

/-- The elements that a post of group `id` sends. -/
def ctsMsgs (comm : NcclIbRecvComm) (id : Nat) : RecvPost → List CtsMsg
  | .send p => p.wrs.flatMap (fun wr =>
    let src := rowOf wr.sge.addr comm.remCtsFifo.elemsAddr
    (List.range (wr.sge.length / sizeofSendFifo)).map (fun r =>
      { id, src, r
        dst := rowOf wr.remote_addr comm.remCtsFifo.addr
        elem := if wr.inlineData then some (comm.remCtsFifo.elems src r) else none }))
  | _ => []

/-! ## The steps -/

inductive WorldAct
  | send (act : SendAct)
  | recv (act : RecvAct)
  | ctsRead (n : Nat)
  | ctsWrite (n : Nat)

/-- The data of a call of `ncclIbIsend` reaches the receiver. -/
def World.afterIsend (w : World) (out : IsendOut) : RecvState :=
  if out.posts = [] then w.rcv
  else w.rcv.arrives
    (out.posts.flatMap (dataMsgs w.rcv.comm.base w.snd.comm.base.fifoHead))

/-- The elements of a call of `ncclIbIrecv` are on their way. -/
def World.afterIrecv (w : World) (rcv : RecvState) (n : Nat) (out : RecvOut) : World :=
  let id := w.rcv.comm.base.fifoHead
  match out.ret with
  | .ok (some _) =>
    { w with
      rcv
      cts := w.cts ++ out.posts.flatMap (ctsMsgs out.comm id)
      groups := w.groups ++ [(List.range n).map (out.comm.remCtsFifo.elems (slotOf id))] }
  | _ => { w with rcv }

/-- One step of the two sides. -/
def World.next : WorldAct → World → Option World
  | .send act, w =>
    -- Only `ctsWrite` writes to the FIFO of the sender.
    match w.snd.next (fun _ => []) act with
    | none => none
    | some snd =>
      match act with
      | .isend env a => some { w with snd, rcv := w.afterIsend (ncclIbIsend env w.snd.comm a) }
      | _ => some { w with snd }
  | .recv act, w =>
    match w.rcv.next act with
    | none => none
    | some rcv =>
      match act with
      | .irecv env bufs => some (w.afterIrecv rcv bufs.length (ncclIbIrecv env w.rcv.comm bufs))
      | _ => some { w with rcv }
  | .ctsRead n, w =>
    match w.cts[n]? with
    | some ⟨id, src, dst, r, none⟩ =>
      some { w with cts := w.cts.set n ⟨id, src, dst, r, some (w.rcv.comm.remCtsFifo.elems src r)⟩ }
    | _ => none
  | .ctsWrite n, w =>
    match w.cts[n]? with
    | some ⟨_, _, dst, r, some e⟩ =>
      some { w with
        cts := w.cts.eraseIdx n
        snd := { w.snd with comm := { w.snd.comm with
          ctsFifo := Function.update w.snd.comm.ctsFifo dst
            (Function.update (w.snd.comm.ctsFifo dst) r e) } } }
    | _ => none

/-! ## The runs -/

/-- Every call that is not reported done is one of the last 256 of its side. -/
structure World.InWindow (w : World) : Prop where
  send : ∀ a ∈ w.snd.log, a.serial ∉ w.snd.reported → ∀ b ∈ w.snd.log,
    b.id < a.id + NET_IB_MAX_REQUESTS
  recv : ∀ id < w.rcv.comm.base.fifoHead, .data id ∉ w.rcv.reported →
    w.rcv.comm.base.fifoHead ≤ id + NET_IB_MAX_REQUESTS

/-- Both sides right after the handshake, with equal configurations. -/
structure World.Init (sh : Shape) (pre : Bool) (w : World) : Prop where
  snd : w.snd.Init sh
  rcv : w.rcv.Init sh.swap pre
  cts : w.cts = []
  groups : w.groups = []
  split : w.rcv.comm.base.splitDataOnQps = w.snd.comm.base.splitDataOnQps
  scheme : w.rcv.comm.base.recvMatchingScheme = w.snd.comm.base.recvMatchingScheme

/-- The runs of a connection that stay in the window. -/
def worldSystem (sh : Shape) (pre : Bool) : runs.System World where
  init := World.Init sh pre
  step := fun w t => (∃ act, w.next act = some t) ∧ t.InWindow

/-! ## A first exchange -/

/-- A connection with one device on each side, before the first call. -/
def firstWorld : World :=
  { snd := startSend Shape.one, rcv := startRecv Shape.one, cts := [], groups := [] }

/-- One receive, whose element goes to the sender, and one send. -/
def firstActs : List WorldAct :=
  [.recv (.irecv plainEnv [{ data := 1, size := 8, tag := 0, rkeys := fun _ => 1 }]),
    .ctsRead 0, .ctsWrite 0, .send (.isend plainEnv (sendOf 0))]

theorem init_firstWorld : World.Init Shape.one false firstWorld where
  snd := init_startSend _
  rcv := init_startRecv _
  cts := rfl
  groups := rfl
  split := rfl
  scheme := rfl

/-- No call is past the first 256 groups. -/
def World.Small (w : World) : Prop :=
  (∀ b ∈ w.snd.log, b.id < NET_IB_MAX_REQUESTS) ∧
    w.rcv.comm.base.fifoHead ≤ NET_IB_MAX_REQUESTS

instance (w : World) : Decidable w.Small := inferInstanceAs (Decidable (_ ∧ _))

theorem World.Small.inWindow {w : World} (h : w.Small) : w.InWindow := by
  refine ⟨fun a _ _ b hb => ?_, fun id _ _ => ?_⟩
  · have := h.1 b hb
    omega
  · have := h.2
    omega

/-- The steps one after the other, as long as the state is small. -/
def World.run : List WorldAct → World → Option World
  | [], w => some w
  | act :: acts, w =>
    match w.next act with
    | some t => if t.Small then t.run acts else none
    | none => none

theorem World.run_reachable {sh : Shape} {pre : Bool} {acts : List WorldAct} {w t : World}
    (h : Reachable (worldSystem sh pre) w) (hrun : w.run acts = some t) :
    Reachable (worldSystem sh pre) t := by
  induction acts generalizing w with
  | nil =>
    cases hrun
    exact h
  | cons act acts ih =>
    unfold World.run at hrun
    split at hrun
    · rename_i next hnext
      split at hrun
      · rename_i hsmall
        exact ih (h.step ⟨⟨act, hnext⟩, hsmall.inWindow⟩) hrun
      · cases hrun
    · cases hrun

end net_ib.p2p
