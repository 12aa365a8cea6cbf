-- A connection with the memories of its two sides. The writes that ncclIbIsend posts
-- are on their way until the provider places them in the memory of the receiver, in
-- any order and as often as it likes. Completions come after the writes that they
-- are for. The fields from sent on are history.
import MrcPlugin.WorldGood
import MrcPlugin.Lib.Memory

namespace net_ib.p2p

open queues runs memory

/-! ## The state -/

/-- The bytes that both sides can address. -/
def addresses : Nat := 2 ^ 64

/-- Work request `j` of the list that group `id` posts on a QP, when it is on its way. -/
structure Flight where
  id : Nat
  qp : Nat
  j : Nat
  wr : IbvSendWr
deriving DecidableEq, Repr

/-- The writes of a post. -/
def flightsOf (id : Nat) (p : SendPost) : List Flight :=
  p.wrs.zipIdx.map (fun x => ⟨id, p.qp, x.2, x.1⟩)

/-- The bytes that a work request moves. One without a scatter element moves none. -/
def bytesOf (wr : IbvSendWr) : Nat := if wr.num_sge = 0 then 0 else wr.sge.length

/-- A connection with the memory of the sender, `src`, and that of the receiver, `dst`. -/
structure DataWorld where
  world : World
  wires : List Flight
  src : Nat → UInt8
  dst : Nat → UInt8
  /-- The bytes of each send, by its serial, when it was accepted. -/
  sent : Nat → Nat → UInt8
  /-- The memory of the receiver when each receive group was opened. -/
  opened : Nat → Nat → UInt8
  /-- The memory of the receiver when each receive group was reported done. -/
  taken : List (Nat × (Nat → UInt8))

/-- The buffer that an element of a CTS message tells the sender about. -/
def NcclIbSendFifo.buffer (e : NcclIbSendFifo) : Buffer := ⟨e.addr, e.size⟩

/-- The completion records of the receiver, as the sender addresses them. -/
def recordsAt (addr : Nat) : Buffer := ⟨addr, NET_IB_MAX_REQUESTS * sizeofCompletionRecord⟩

/-- Element `r` of receive group `k`. -/
def World.Entry (w : World) (k r : Nat) (e : NcclIbSendFifo) : Prop :=
  ∃ group, w.groups[k]? = some group ∧ group[r]? = some e

/-- An entry of a group that is not reported done. -/
def World.Waits (w : World) (k r : Nat) (e : NcclIbSendFifo) : Prop :=
  w.Entry k r e ∧ .data k ∉ w.rcv.reported

/-! ## The steps -/

inductive DataAct
  | world (act : WorldAct)
  /-- The provider places a write, for the last time or not. -/
  | place (n : Nat) (again : Bool)
  /-- The memory of the sender changes. -/
  | sndStore (mem : Nat → UInt8)
  /-- The memory of the receiver changes other than by a write of the sender. -/
  | rcvStore (mem : Nat → UInt8)

/-- No write that a completion is for is on its way. -/
def DataWorld.placed (m : DataWorld) (c : Cqe) : Bool :=
  m.wires.all (fun f => !(f.qp == c.qp && c.cause == .data f.id))

/-- Whether the provider can make a step: a completion waits for its writes. -/
def DataWorld.ready (m : DataWorld) : WorldAct → Bool
  | .send (.complete q) =>
    match popFirst (fun c => c.qp = q) m.world.snd.sq with
    | some (c, _) => m.placed c
    | none => true
  | .recv (.deliver q) =>
    match popFirst (fun c => c.qp = q) m.world.rcv.data with
    | some (c, _) => m.placed c
    | none => true
  | _ => true

/-- The group that a completion is for, when it is for data. -/
def Cause.groupId : Cause → Option Nat
  | .data id => some id
  | _ => none

/-- The receive groups that are reported in `t` and not in `s`. -/
def newlyDone (s t : RecvState) : List Nat :=
  (t.reported.drop s.reported.length).filterMap Cause.groupId

/-- The state after a step of the two sides, which goes to `t`. -/
def DataWorld.afterWorld (m : DataWorld) (act : WorldAct) (t : World) : DataWorld :=
  let taken := m.taken ++ (newlyDone m.world.rcv t.rcv).map (fun k => (k, m.dst))
  match act with
  | .send (.isend env a) =>
    { m with
      world := t
      wires := m.wires ++ (ncclIbIsend env m.world.snd.comm a).posts.flatMap
        (flightsOf m.world.snd.comm.base.fifoHead)
      sent := Function.update m.sent m.world.snd.nextSerial
        (fun o => m.src (cell addresses a.data o))
      taken }
  | .recv (.irecv _ _) =>
    { m with
      world := t
      opened := Function.update m.opened m.world.rcv.comm.base.fifoHead m.dst
      taken }
  | _ => { m with world := t, taken }

/-- One step of a connection with its memories. -/
def DataWorld.next : DataAct → DataWorld → Option DataWorld
  | .world act, m =>
    match m.world.next act with
    | none => none
    | some t => if m.ready act then some (m.afterWorld act t) else none
  | .place n again, m =>
    match m.wires[n]? with
    | none => none
    | some f =>
      some { m with
        dst := copy addresses m.src m.dst f.wr.sge.addr f.wr.remote_addr (bytesOf f.wr)
        wires := if again then m.wires else m.wires.eraseIdx n }
  | .sndStore mem, m => some { m with src := mem }
  | .rcvStore mem, m => some { m with dst := mem }

/-! ## The runs -/

/-- The buffers of a new receive group: they fit in the memory, and no two buffers that
wait for data have a byte in common with each other or with the completion records. -/
structure Buffers (m : DataWorld) (bufs : List RecvBuffer) : Prop where
  size_le : ∀ b ∈ bufs, b.size ≤ addresses
  each_other : bufs.Pairwise (fun b c => Apart addresses ⟨b.data, b.size⟩ ⟨c.data, c.size⟩)
  waiting : ∀ b ∈ bufs, ∀ k r e, m.world.Waits k r e →
    Apart addresses e.buffer ⟨b.data, b.size⟩
  records : ∀ b ∈ bufs,
    Apart addresses (recordsAt m.world.snd.comm.remCmplsRecords.addr) ⟨b.data, b.size⟩

/-- What the users of the two sides promise: the buffers of receives that wait are apart,
and nobody else changes them or the buffers of sends that are not reported done. -/
def Promise (act : DataAct) (m : DataWorld) : Prop :=
  match act with
  | .world (.recv (.irecv _ bufs)) => Buffers m bufs
  | .world _ => True
  | .place _ _ => True
  | .sndStore mem => ∀ a ∈ m.world.snd.log, a.serial ∉ m.world.snd.reported →
    ∀ o < a.args.size, mem (cell addresses a.args.data o) = m.src (cell addresses a.args.data o)
  | .rcvStore mem => ∀ k r e, m.world.Waits k r e →
    ∀ o < e.size, mem (cell addresses e.addr o) = m.dst (cell addresses e.addr o)

/-- Right after the handshake nothing is on its way. -/
structure DataWorld.Init (sh : Shape) (pre : Bool) (m : DataWorld) : Prop where
  world : m.world.Init sh pre
  wires : m.wires = []
  taken : m.taken = []

/-- The runs of a connection with its memories, which stay in the window. -/
def dataSystem (sh : Shape) (pre : Bool) : runs.System DataWorld where
  init := DataWorld.Init sh pre
  step := fun m t => ∃ act, Promise act m ∧ m.next act = some t ∧ t.world.InWindow

/-! ## What is said about the data -/

/-- What the users of group `k` keep to, for its bytes to be cut into chunks: sizes of
less than 2 GiB, and weights that cover the whole. -/
structure Sendable (sh : Shape) (w : World) (k : Nat) : Prop where
  id_lt : k < 2 ^ 56
  sizes : ∀ a ∈ w.snd.log, a.id = k → ∀ e, w.Entry k a.r e → sendBytes a.args e < 2 ^ 31
  weights : ∀ a ∈ w.snd.log, a.id = k → a.r = 0 → GoodWeights sh a.weights

/-- In the memory `mem`, every buffer of group `k` has the bytes of the send that was
matched with it, and behind them what was there when the group was opened. -/
def DataWorld.Delivered (m : DataWorld) (k : Nat) (mem : Nat → UInt8) : Prop :=
  ∀ r e, m.world.Entry k r e → ∃ a ∈ m.world.snd.log, a.id = k ∧ a.r = r ∧
    ∀ o < e.size, mem (cell addresses e.addr o) =
      if o < sendBytes a.args e then m.sent a.serial o else m.opened k (cell addresses e.addr o)

end net_ib.p2p
