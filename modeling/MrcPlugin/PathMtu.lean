-- The path MTU of the data QPs (connect.cc). The MTU of a device stands in `ncclIbDevs`,
-- which all comms of a process share. A receiver lowers the entry while it connects its
-- QPs and tells the peer what stands there afterwards, other comms do the same in
-- between, and a change of the GID table publishes the MTU of the port again.
import MrcPlugin.GidRefresh
import MrcPlugin.QpAddress

namespace net_ib.path_mtu

open runs

/-! ## The data -/

/-- A connection: the processes of its two sides, the entries of `ncclIbDevs` behind the
devices of both comms, and how many data QPs there are. -/
structure Connection where
  sender : Nat
  receiver : Nat
  senderDevs : Nat → Nat
  receiverDevs : Nat → Nat
  senderNdevs : Nat
  receiverNdevs : Nat
  nqps : Nat
  senderPos : 0 < senderNdevs
  receiverPos : 0 < receiverNdevs

/-- The turn of a QP in the loop of `ncclIbReceiverQpsCreateToRts`: its MTU is lowered
with a read and a write of the entry, and then read again. -/
inductive Turn
  | start
  | loaded (mtu : Nat)
  | stored
deriving DecidableEq, Repr

/-- How far a handshake is, and the MTUs that it has told and configured. -/
structure Handshake where
  told : Nat
  senderMeta : Nat → Nat
  accepted : Nat
  turn : Turn
  receiverQps : Nat → Nat
  reported : Nat
  receiverMeta : Nat → Nat
  connected : Nat
  senderQps : Nat → Nat

/-- The entries of `ncclIbDevs` in each process, and the handshakes. -/
structure MtuWorld where
  ibDevs : Nat → Nat → NcclIbDev
  conns : Nat → Handshake

def setMtu (dev : NcclIbDev) (mtu : Nat) : NcclIbDev :=
  { dev with portAttr := { dev.portAttr with active_mtu := mtu } }

def MtuWorld.mtu (w : MtuWorld) (p d : Nat) : Nat := (w.ibDevs p d).portAttr.active_mtu

def MtuWorld.setConn (w : MtuWorld) (c : Nat) (h : Handshake) : MtuWorld :=
  { w with conns := Function.update w.conns c h }

def MtuWorld.setDev (w : MtuWorld) (p d : Nat) (dev : NcclIbDev) : MtuWorld :=
  { w with ibDevs := Function.update w.ibDevs p (Function.update (w.ibDevs p) d dev) }

/-! ## The steps -/

/-- The device of a side that QP `q` is on, as an entry of `ncclIbDevs`. -/
def Connection.senderDev (k : Connection) (q : Nat) : Nat := k.senderDevs (q % k.senderNdevs)

def Connection.receiverDev (k : Connection) (q : Nat) : Nat :=
  k.receiverDevs (q % k.receiverNdevs)

/-- What reads or writes the MTU of a device: the loop of `ncclIbConnectImpl` that fills
in the devices, the three accesses of a turn of `ncclIbReceiverQpsCreateToRts`, the loop
of `ncclIbAcceptImpl` that fills in the devices, a turn of `ncclIbSenderQpsToRts`, and
`ncclIbEventGidChange`. -/
inductive MtuAct
  | senderDevice (c : Nat)
  | loadMtu (c : Nat)
  | storeMtu (c : Nat)
  | receiverRtr (c : Nat)
  | receiverDevice (c : Nat)
  | senderRtr (c : Nat)
  | gidChange (p d : Nat) (x : GidRefresh)

/-- One access. The peer goes on when all metadata have come, and a port whose
attributes are told has its own active MTU. -/
def MtuWorld.next (conf : Nat → Connection) (port : Nat → Nat → Nat) :
    MtuAct → MtuWorld → Option MtuWorld
  | .senderDevice c, w =>
    let k := conf c
    let h := w.conns c
    if h.told < k.senderNdevs then
      some (w.setConn c { h with
        told := h.told + 1
        senderMeta :=
          Function.update h.senderMeta h.told (w.mtu k.sender (k.senderDevs h.told)) })
    else none
  | .loadMtu c, w =>
    let k := conf c
    let h := w.conns c
    if h.told = k.senderNdevs ∧ h.accepted < k.nqps ∧ h.turn = .start then
      some (w.setConn c { h with
        turn := .loaded (w.mtu k.receiver (k.receiverDev h.accepted)) })
    else none
  | .storeMtu c, w =>
    let k := conf c
    let h := w.conns c
    let d := k.receiverDev h.accepted
    match h.turn with
    | .loaded mtu =>
      let dev := setMtu (w.ibDevs k.receiver d)
        (min mtu (h.senderMeta (h.accepted % k.senderNdevs)))
      some ((w.setDev k.receiver d dev).setConn c { h with turn := .stored })
    | _ => none
  | .receiverRtr c, w =>
    let k := conf c
    let h := w.conns c
    if h.turn = .stored then
      some (w.setConn c { h with
        accepted := h.accepted + 1
        turn := .start
        receiverQps := Function.update h.receiverQps h.accepted
          (w.mtu k.receiver (k.receiverDev h.accepted)) })
    else none
  | .receiverDevice c, w =>
    let k := conf c
    let h := w.conns c
    if h.told = k.senderNdevs ∧ h.accepted = k.nqps ∧ h.reported < k.receiverNdevs then
      some (w.setConn c { h with
        reported := h.reported + 1
        receiverMeta := Function.update h.receiverMeta h.reported
          (w.mtu k.receiver (k.receiverDevs h.reported)) })
    else none
  | .senderRtr c, w =>
    let k := conf c
    let h := w.conns c
    let q := h.connected
    if h.reported = k.receiverNdevs ∧ q < k.nqps then
      some (w.setConn c { h with
        connected := q + 1
        senderQps := Function.update h.senderQps q
          (min (h.receiverMeta (q % k.receiverNdevs)) (w.mtu k.sender (k.senderDev q))) })
    else none
  | .gidChange p d x, w =>
    if ∀ portAttr ∈ x.portAttr, portAttr.active_mtu = port p d then
      some (w.setDev p d (x.run (w.ibDevs p d)).1)
    else none

/-- The handshakes have not begun, and the entries are as `ncclIbInitDevices` makes
them. -/
structure StartMtu (port : Nat → Nat → Nat) (w : MtuWorld) : Prop where
  mtu : ∀ p d, w.mtu p d = port p d
  told : ∀ c, (w.conns c).told = 0
  accepted : ∀ c, (w.conns c).accepted = 0
  turn : ∀ c, (w.conns c).turn = .start
  reported : ∀ c, (w.conns c).reported = 0
  connected : ∀ c, (w.conns c).connected = 0

/-- The runs of all processes, each of whose steps meets `guard`. -/
def mtuSystem (conf : Nat → Connection) (port : Nat → Nat → Nat)
    (guard : (Nat → Connection) → MtuAct → MtuWorld → Prop) : System MtuWorld where
  init := StartMtu port
  step := fun w w' => ∃ act, guard conf act w ∧ w.next conf port act = some w'

/-! ## The functions that connect -/

/-- The three accesses with nothing between them are one turn of the loop. -/
theorem turn_alone {port : Nat → Nat → Nat} {conf : Nat → Connection} {w : MtuWorld} {c : Nat}
    {ibFifoTc : Int} {nums : QpNums} {remMeta : AddrMetadata} {comm : ConnComm}
    (htold : (w.conns c).told = (conf c).senderNdevs)
    (hlt : (w.conns c).accepted < (conf c).nqps) (hturn : (w.conns c).turn = .start)
    (hdev : (comm.devs ((w.conns c).accepted % comm.ndevs)).ibDev =
      w.ibDevs (conf c).receiver ((conf c).receiverDev (w.conns c).accepted))
    (hmeta : (remMeta.devs (remMeta.qpInfo (w.conns c).accepted).devIndex).mtu =
      (w.conns c).senderMeta ((w.conns c).accepted % (conf c).senderNdevs)) :
    ∃ w', follow (fun act w => w.next conf port act) [.loadMtu c, .storeMtu c, .receiverRtr c] w =
        some w' ∧
      w'.ibDevs (conf c).receiver ((conf c).receiverDev (w.conns c).accepted) =
        ((receiverDataQp ibFifoTc nums remMeta comm (w.conns c).accepted).devs
          ((w.conns c).accepted % comm.ndevs)).ibDev ∧
      (w'.conns c).receiverQps (w.conns c).accepted =
        ((receiverDataQp ibFifoTc nums remMeta comm (w.conns c).accepted).qps
          (w.conns c).accepted).rtrAttr.mtu := by
  simp [follow, MtuWorld.next, htold, hlt, hturn, MtuWorld.setConn, MtuWorld.setDev,
    MtuWorld.mtu, setMtu, receiverDataQp, CommDev.reduceMtu, connectedRtrAttr, hdev, hmeta]

/-! ## The property -/

/-- The MTUs of the two QPs of a number. The one of the sender may be the lower one, when a
later QP lowers the entry that the receiver's QP has taken its MTU from. -/
structure PathMtuFits (port : Nat → Nat → Nat) (k : Connection) (h : Handshake) (q : Nat) :
    Prop where
  sender : h.senderQps q ≤ port k.sender (k.senderDev q)
  receiver : h.receiverQps q ≤ port k.receiver (k.receiverDev q)
  le : h.senderQps q ≤ h.receiverQps q
  equal : h.senderQps q = h.receiverQps q ↔
    ∀ q' < k.nqps, q < q' → k.receiverDev q' = k.receiverDev q →
      h.receiverQps q ≤ h.senderMeta (q' % k.senderNdevs)

def PathMtusFit (port : Nat → Nat → Nat) (conf : Nat → Connection) (w : MtuWorld) : Prop :=
  ∀ c q, q < (w.conns c).connected → PathMtuFits port (conf c) (w.conns c) q

/-- The sender has told the device, and not all of its QPs are connected. -/
def Connection.TellsDev (k : Connection) (h : Handshake) (p d : Nat) : Prop :=
  p = k.sender ∧ h.connected < k.nqps ∧ ∃ i < h.told, k.senderDevs i = d

/-- The receiver has begun with its QPs, and has not told the device. -/
def Connection.LowersDev (k : Connection) (h : Handshake) (p d : Nat) : Prop :=
  p = k.receiver ∧ (0 < h.accepted ∨ h.turn ≠ .start) ∧
    ∃ j < k.receiverNdevs, h.reported ≤ j ∧ k.receiverDevs j = d

/-- A write leaves the MTU of the entry as it is, or no handshake depends on the entry.
Handshake `own` may lower the devices of its receiver. -/
def Spares (conf : Nat → Connection) (w : MtuWorld) (own : Option Nat) (p d mtu : Nat) : Prop :=
  mtu = w.mtu p d ∨ ∀ c, ¬ (conf c).TellsDev (w.conns c) p d ∧
    (own ≠ some c → ¬ (conf c).LowersDev (w.conns c) p d)

/-- The step spares the devices of every handshake. -/
def Undisturbed (conf : Nat → Connection) : MtuAct → MtuWorld → Prop
  | .storeMtu c, w =>
    let k := conf c
    let h := w.conns c
    ∀ mtu, h.turn = .loaded mtu →
      Spares conf w (some c) k.receiver (k.receiverDev h.accepted)
        (min mtu (h.senderMeta (h.accepted % k.senderNdevs)))
  | .gidChange p d x, w => Spares conf w none p d (x.run (w.ibDevs p d)).1.portAttr.active_mtu
  | _, _ => True

/-! ## The invariant -/

/-- The MTU that the sender is told for QP `q`: the one that it has been told, or the one
that the entry has. -/
def Connection.lowered (k : Connection) (mtu : Nat → Nat → Nat) (h : Handshake) (q : Nat) : Nat :=
  if q % k.receiverNdevs < h.reported then h.receiverMeta (q % k.receiverNdevs)
  else mtu k.receiver (k.receiverDev q)

/-- How many QPs have lowered the entry of their device. -/
def Handshake.stores (h : Handshake) : Nat := h.accepted + if h.turn = .stored then 1 else 0

/-- What holds of a handshake at every point, when the entries have these MTUs. What the
sender is told for a QP is the MTU of this QP, or that of a device of a later QP. -/
structure HandshakeGood (port mtu : Nat → Nat → Nat) (k : Connection) (h : Handshake) : Prop where
  told : ∀ i < h.told, h.senderMeta i ≤ port k.sender (k.senderDevs i)
  entries : h.connected < k.nqps → ∀ i < h.told, mtu k.sender (k.senderDevs i) = h.senderMeta i
  waiting : h.told < k.senderNdevs → h.accepted = 0 ∧ h.turn = .start
  count : h.accepted ≤ k.nqps
  turn : h.turn ≠ .start → h.accepted < k.nqps
  loaded : ∀ m, h.turn = .loaded m → m = mtu k.receiver (k.receiverDev h.accepted)
  unreported : h.accepted < k.nqps → h.reported = 0
  low : ∀ q < h.stores, ∀ q' < h.stores, k.receiverDev q' = k.receiverDev q →
    k.lowered mtu h q ≤ h.senderMeta (q' % k.senderNdevs)
  accepted : ∀ q < h.accepted, h.receiverQps q ≤ port k.receiver (k.receiverDev q)
  below : ∀ q < h.accepted, k.lowered mtu h q ≤ h.receiverQps q
  reason : ∀ q < h.accepted, k.lowered mtu h q = h.receiverQps q ∨
    ∃ q', q < q' ∧ q' < h.stores ∧ k.receiverDev q' = k.receiverDev q ∧
      k.lowered mtu h q = h.senderMeta (q' % k.senderNdevs)
  finished : 0 < h.connected → h.reported = k.receiverNdevs
  connected : ∀ q < h.connected, q < h.accepted ∧ h.senderQps q = k.lowered mtu h q

/-- No entry is above the MTU of its port, and the handshakes are good. -/
structure MtuGood (port : Nat → Nat → Nat) (conf : Nat → Connection) (w : MtuWorld) : Prop where
  mtu : ∀ p d, w.mtu p d ≤ port p d
  conns : ∀ c, HandshakeGood port w.mtu (conf c) (w.conns c)

section
variable {port mtu mtu' : Nat → Nat → Nat} {conf : Nat → Connection} {k : Connection}
  {h : Handshake} {w w' : MtuWorld} {c p d m : Nat}

/-- Once a QP is accepted, the sender has told all its devices. -/
theorem HandshakeGood.all_told (hg : HandshakeGood port mtu k h) (hq : 0 < h.accepted) :
    k.senderNdevs ≤ h.told := by
  by_contra hlt
  have := (hg.waiting (Nat.lt_of_not_le hlt)).1
  omega

/-- No QP is connected while the receiver still accepts. -/
theorem HandshakeGood.unconnected (hg : HandshakeGood port mtu k h) (hlt : h.accepted < k.nqps) :
    h.connected = 0 := by
  by_contra hne
  have hall := hg.finished (Nat.pos_of_ne_zero hne)
  have hnone := hg.unreported hlt
  have := k.receiverPos
  omega

/-- Once a QP is connected, all have been accepted. -/
theorem HandshakeGood.all_accepted (hg : HandshakeGood port mtu k h) (hq : 0 < h.connected) :
    h.accepted = k.nqps ∧ h.stores = k.nqps := by
  have hall : h.accepted = k.nqps := by
    by_contra hne
    have := hg.unconnected (Nat.lt_of_le_of_ne hg.count hne)
    omega
  refine ⟨hall, ?_⟩
  unfold Handshake.stores
  rw [if_neg, Nat.add_zero, hall]
  intro hturn
  have := hg.turn (by rw [hturn]; exact Turn.noConfusion)
  omega

/-- The invariant says what the MTUs of connected QPs are. -/
theorem HandshakeGood.fits (hg : HandshakeGood port mtu k h) {q : Nat} (hq : q < h.connected) :
    PathMtuFits port k h q := by
  obtain ⟨hacc, hsend⟩ := hg.connected q hq
  obtain ⟨hall, hstores⟩ := hg.all_accepted (Nat.zero_lt_of_lt hq)
  have htold := hg.all_told (Nat.zero_lt_of_lt hacc)
  have hdev := hg.told (q % k.senderNdevs)
    (Nat.lt_of_lt_of_le (Nat.mod_lt q k.senderPos) htold)
  have hlow : ∀ q' < k.nqps, k.receiverDev q' = k.receiverDev q →
      h.senderQps q ≤ h.senderMeta (q' % k.senderNdevs) := by
    intro q' hq' hsame
    rw [hsend]
    exact hg.low q (by omega) q' (by omega) hsame
  refine ⟨Nat.le_trans (hlow q (by omega) rfl) hdev, hg.accepted q hacc, ?_, ?_, ?_⟩
  · rw [hsend]
    exact hg.below q hacc
  · intro heq q' hq' _ hsame
    rw [← heq]
    exact hlow q' hq' hsame
  · intro hlater
    rcases hg.reason q hacc with heq | ⟨q', hlt, hq', hsame, heq⟩
    · rw [hsend, heq]
    · have hle := hlater q' (by omega) hlt hsame
      have hge := hg.below q hacc
      omega

/-! ## A write of an entry -/

/-- What the sender is told of a QP does not change with an entry that is spared. -/
theorem lowered_spared (hspared : ∀ p d, k.LowersDev h p d → mtu' p d = mtu p d) {q : Nat}
    (hq : q < h.stores) :
    k.lowered mtu' h q = k.lowered mtu h q := by
  unfold Connection.lowered
  split
  · rfl
  · rename_i hrep
    refine hspared _ _ ⟨rfl, ?_, q % k.receiverNdevs, Nat.mod_lt q k.receiverPos, by omega, rfl⟩
    unfold Handshake.stores at hq
    by_cases hturn : h.turn = .start
    · rw [hturn, if_neg Turn.noConfusion] at hq
      exact .inl (by omega)
    · exact .inr hturn

/-- A write that spares the devices of a handshake keeps its invariant. -/
theorem HandshakeGood.spared (hg : HandshakeGood port mtu k h)
    (htells : ∀ p d, k.TellsDev h p d → mtu' p d = mtu p d)
    (hlowers : ∀ p d, k.LowersDev h p d → mtu' p d = mtu p d) :
    HandshakeGood port mtu' k h := by
  have hsame : ∀ q < h.stores, k.lowered mtu' h q = k.lowered mtu h q :=
    fun q hq => lowered_spared hlowers hq
  have hacc : ∀ q < h.accepted, k.lowered mtu' h q = k.lowered mtu h q :=
    fun q hq => hsame q (Nat.lt_of_lt_of_le hq (Nat.le_add_right _ _))
  exact
    { told := hg.told
      entries := fun hlt i hi => by
        rw [htells _ _ ⟨rfl, hlt, i, hi, rfl⟩]
        exact hg.entries hlt i hi
      waiting := hg.waiting
      count := hg.count
      turn := hg.turn
      loaded := fun m hm => by
        have hturn : h.turn ≠ .start := by
          rw [hm]
          exact Turn.noConfusion
        have hnone := hg.unreported (hg.turn hturn)
        have hentry := hlowers k.receiver (k.receiverDev h.accepted)
          ⟨rfl, .inr hturn, _, Nat.mod_lt _ k.receiverPos, by omega, rfl⟩
        rw [hentry]
        exact hg.loaded m hm
      unreported := hg.unreported
      low := fun q hq q' hq' hdev => by
        rw [hsame q hq]
        exact hg.low q hq q' hq' hdev
      accepted := hg.accepted
      below := fun q hq => by
        rw [hacc q hq]
        exact hg.below q hq
      reason := fun q hq => by
        rw [hacc q hq]
        exact hg.reason q hq
      finished := hg.finished
      connected := fun q hq => by
        obtain ⟨hlt, heq⟩ := hg.connected q hq
        rw [hacc q hlt]
        exact ⟨hlt, heq⟩ }

@[simp] theorem setConn_mtu : (w.setConn c h).mtu = w.mtu := rfl

theorem setMtu_mtu {dev : NcclIbDev} : (setMtu dev m).portAttr.active_mtu = m := rfl

/-- The entry that is written, and the others. -/
theorem setDev_mtu (dev : NcclIbDev) (p' d' : Nat) :
    (w.setDev p d dev).mtu p' d' =
      if p' = p ∧ d' = d then dev.portAttr.active_mtu else w.mtu p' d' := by
  unfold MtuWorld.setDev MtuWorld.mtu
  by_cases hp : p' = p
  · subst hp
    by_cases hd : d' = d
    · subst hd
      simp
    · simp [hd]
  · simp [hp]

/-- An entry that is written leaves the devices of a handshake that the write spares. -/
theorem setDev_spares {dev : NcclIbDev} {own : Option Nat} (hspares : Spares conf w own p d m)
    (hdev : dev.portAttr.active_mtu = m) :
    (∀ p' d', (conf c).TellsDev (w.conns c) p' d' →
      (w.setDev p d dev).mtu p' d' = w.mtu p' d') ∧
    (own ≠ some c → ∀ p' d', (conf c).LowersDev (w.conns c) p' d' →
      (w.setDev p d dev).mtu p' d' = w.mtu p' d') := by
  refine ⟨fun p' d' huses => ?_, fun hown p' d' huses => ?_⟩
  all_goals
    rw [setDev_mtu]
    split
    case isFalse => rfl
    rename_i hentry
    obtain ⟨rfl, rfl⟩ := hentry
    rcases hspares with hsame | hnone
    · exact hdev.trans hsame
  · exact absurd huses (hnone c).1
  · exact absurd huses ((hnone c).2 hown)

/-- The entries stay within the MTUs of their ports. -/
theorem setDev_le {dev : NcclIbDev} (hg : MtuGood port conf w)
    (hdev : dev.portAttr.active_mtu ≤ port p d) (p' d' : Nat) :
    (w.setDev p d dev).mtu p' d' ≤ port p' d' := by
  rw [setDev_mtu]
  split
  · rename_i hentry
    obtain ⟨rfl, rfl⟩ := hentry
    exact hdev
  · exact hg.mtu p' d'

/-! ## One step -/

/-- A step of one handshake leaves the others alone. -/
theorem MtuGood.setConn (hg : MtuGood port conf w)
    (hh : HandshakeGood port w.mtu (conf c) h) : MtuGood port conf (w.setConn c h) := by
  refine ⟨hg.mtu, fun c' => ?_⟩
  rw [setConn_mtu]
  unfold MtuWorld.setConn
  simp only
  by_cases hc : c' = c
  · subst hc
    rw [Function.update_self]
    exact hh
  · rw [Function.update_of_ne hc]
    exact hg.conns c'

/-- The event thread publishes the attributes that it has asked for, or none. -/
theorem gidChange_portAttr (x : GidRefresh) (dev : NcclIbDev) :
    (x.run dev).1.portAttr = dev.portAttr ∨ x.portAttr = some (x.run dev).1.portAttr := by
  by_cases heth : dev.gidInfo.link_layer = IBV_LINK_LAYER_ETHERNET
  · cases hattr : x.portAttr with
    | none =>
      rw [refresh_untold heth hattr]
      exact .inl rfl
    | some portAttr =>
      cases hstop : x.stops portAttr dev.gidInfo.localGidIndex with
      | none =>
        obtain ⟨gidInfo, -, -, hrun⟩ := refresh_answered heth hattr hstop
        rw [hrun]
        exact .inr rfl
      | some j =>
        obtain ⟨res, -, hrun⟩ := refresh_refused heth hattr hstop
        rw [hrun]
        exact .inl rfl
  · rw [refresh_ignored heth]
    exact .inl rfl

/-- The sender tells a device. No QP is accepted yet. -/
theorem HandshakeGood.senderDevice (hg : HandshakeGood port mtu k h)
    (hlt : h.told < k.senderNdevs)
    (hport : mtu k.sender (k.senderDevs h.told) ≤ port k.sender (k.senderDevs h.told)) :
    HandshakeGood port mtu k { h with
      told := h.told + 1
      senderMeta := Function.update h.senderMeta h.told (mtu k.sender (k.senderDevs h.told)) } := by
  obtain ⟨hacc, hturn⟩ := hg.waiting hlt
  have hnone : ∀ q, ¬ q < h.stores := by
    unfold Handshake.stores
    rw [hacc, hturn]
    exact fun q => Nat.not_lt_zero q
  exact
    { told := fun i hi => by
        simp only at hi ⊢
        by_cases hi' : i = h.told
        · subst hi'
          rw [Function.update_self]
          exact hport
        · rw [Function.update_of_ne hi']
          exact hg.told i (by omega)
      entries := fun hrest i hi => by
        simp only at hi ⊢
        by_cases hi' : i = h.told
        · subst hi'
          rw [Function.update_self]
        · rw [Function.update_of_ne hi']
          exact hg.entries hrest i (by omega)
      waiting := fun _ => ⟨hacc, hturn⟩
      count := hg.count
      turn := hg.turn
      loaded := hg.loaded
      unreported := hg.unreported
      low := fun q hq => absurd hq (hnone q)
      accepted := hg.accepted
      below := hg.below
      reason := fun q hq => by
        simp only at hq
        omega
      finished := hg.finished
      connected := hg.connected }

/-- The receiver reads the entry for its next QP. -/
theorem HandshakeGood.loadMtu (hg : HandshakeGood port mtu k h) (htold : h.told = k.senderNdevs)
    (hlt : h.accepted < k.nqps) (hturn : h.turn = .start) :
    HandshakeGood port mtu k
      { h with turn := .loaded (mtu k.receiver (k.receiverDev h.accepted)) } := by
  have hstores : Handshake.stores
      { h with turn := .loaded (mtu k.receiver (k.receiverDev h.accepted)) } = h.stores := by
    unfold Handshake.stores
    rw [hturn]
    simp
  exact
    { told := hg.told
      entries := hg.entries
      waiting := fun hw => absurd hw (by simp only [htold]; exact Nat.lt_irrefl _)
      count := hg.count
      turn := fun _ => hlt
      loaded := fun m hm => by
        cases hm
        rfl
      unreported := hg.unreported
      low := fun q hq q' hq' hdev => by
        rw [hstores] at hq hq'
        exact hg.low q hq q' hq' hdev
      accepted := hg.accepted
      below := hg.below
      reason := fun q hq => by
        rw [hstores]
        exact hg.reason q hq
      finished := hg.finished
      connected := hg.connected }

/-- The receiver lowers the entry for its next QP. -/
theorem HandshakeGood.storeMtu (hg : HandshakeGood port mtu k h) (hturn : h.turn = .loaded m)
    (htells : ∀ p d, k.TellsDev h p d → mtu' p d = mtu p d)
    (hmtu : ∀ d, mtu' k.receiver d = if d = k.receiverDev h.accepted
      then min m (h.senderMeta (h.accepted % k.senderNdevs)) else mtu k.receiver d) :
    HandshakeGood port mtu' k { h with turn := .stored } := by
  have hlt := hg.turn (by rw [hturn]; exact Turn.noConfusion)
  have hnone := hg.unreported hlt
  have hstores : h.stores = h.accepted := by
    unfold Handshake.stores
    rw [hturn, if_neg Turn.noConfusion, Nat.add_zero]
  have hstores' : Handshake.stores { h with turn := .stored } = h.accepted + 1 := by
    unfold Handshake.stores
    rw [if_pos rfl]
  have hm := hg.loaded m hturn
  -- Nothing is told yet, so it is the entries that count.
  have hlow : ∀ q, k.lowered mtu h q = mtu k.receiver (k.receiverDev q) := by
    intro q
    unfold Connection.lowered
    rw [if_neg (by omega)]
  have hlow' : ∀ q, k.lowered mtu' { h with turn := .stored } q =
      if k.receiverDev q = k.receiverDev h.accepted
      then min m (h.senderMeta (h.accepted % k.senderNdevs))
      else mtu k.receiver (k.receiverDev q) := by
    intro q
    unfold Connection.lowered
    rw [if_neg (by simp only; omega)]
    exact hmtu _
  exact
    { told := hg.told
      entries := fun hrest i hi => by
        rw [htells _ _ ⟨rfl, hrest, i, hi, rfl⟩]
        exact hg.entries hrest i hi
      waiting := fun hw => by
        have := (hg.waiting hw).2
        rw [hturn] at this
        cases this
      count := hg.count
      turn := fun _ => hlt
      loaded := fun _ => Turn.noConfusion
      unreported := hg.unreported
      low := fun q hq q' hq' hdev => by
        rw [hstores'] at hq hq'
        rw [hlow']
        by_cases hlast : q' = h.accepted
        · subst hlast
          rw [if_pos hdev.symm]
          exact Nat.min_le_right _ _
        have hold := hg.low q' (by omega) q' (by omega) rfl
        rw [hlow, hdev] at hold
        split
        · rename_i hsame
          rw [hsame, ← hm] at hold
          exact Nat.le_trans (Nat.min_le_left _ _) hold
        · exact hold
      accepted := hg.accepted
      below := fun q hq => by
        have hold := hg.below q hq
        rw [hlow] at hold
        rw [hlow']
        split
        · rename_i hsame
          rw [hsame, ← hm] at hold
          exact Nat.le_trans (Nat.min_le_left _ _) hold
        · exact hold
      reason := fun q hq => by
        rw [hlow', hstores']
        have hold := hg.reason q hq
        rw [hlow, hstores] at hold
        have hkeep : ∀ {v}, (v = h.receiverQps q ∨ ∃ q', q < q' ∧ q' < h.accepted ∧
            k.receiverDev q' = k.receiverDev q ∧ v = h.senderMeta (q' % k.senderNdevs)) →
            v = h.receiverQps q ∨ ∃ q', q < q' ∧ q' < h.accepted + 1 ∧
              k.receiverDev q' = k.receiverDev q ∧ v = h.senderMeta (q' % k.senderNdevs) := by
          rintro v (heq | ⟨q', hlt', hq', hdev, heq⟩)
          · exact .inl heq
          · exact .inr ⟨q', hlt', by omega, hdev, heq⟩
        split
        · rename_i hsame
          rw [hsame, ← hm] at hold
          rcases Nat.le_total m (h.senderMeta (h.accepted % k.senderNdevs)) with hle | hge
          · rw [Nat.min_eq_left hle]
            exact hkeep (hsame ▸ hold)
          · rw [Nat.min_eq_right hge]
            exact .inr ⟨h.accepted, hq, Nat.lt_succ_self _, hsame.symm, rfl⟩
        · exact hkeep hold
      finished := hg.finished
      connected := fun q hq => by
        have := hg.unconnected hlt
        simp only at hq
        omega }

/-- The receiver configures its next QP with the entry. -/
theorem HandshakeGood.receiverRtr (hg : HandshakeGood port mtu k h) (hturn : h.turn = .stored)
    (hport : mtu k.receiver (k.receiverDev h.accepted) ≤
      port k.receiver (k.receiverDev h.accepted)) :
    HandshakeGood port mtu k { h with
      accepted := h.accepted + 1
      turn := .start
      receiverQps := Function.update h.receiverQps h.accepted
        (mtu k.receiver (k.receiverDev h.accepted)) } := by
  have hlt := hg.turn (by rw [hturn]; exact Turn.noConfusion)
  have hzero := hg.unreported hlt
  have hunconnected := hg.unconnected hlt
  have hstores : h.stores = h.accepted + 1 := by
    unfold Handshake.stores
    rw [if_pos hturn]
  have hown : k.lowered mtu h h.accepted = mtu k.receiver (k.receiverDev h.accepted) := by
    unfold Connection.lowered
    rw [if_neg (by omega)]
  have hstores' : Handshake.stores { h with
      accepted := h.accepted + 1
      turn := .start
      receiverQps := Function.update h.receiverQps h.accepted
        (mtu k.receiver (k.receiverDev h.accepted)) } = h.stores := by
    rw [hstores]
    rfl
  exact
    { told := hg.told
      entries := hg.entries
      waiting := fun hw => by
        have := (hg.waiting hw).2
        rw [hturn] at this
        cases this
      count := hlt
      turn := fun hne => absurd rfl hne
      loaded := fun _ => Turn.noConfusion
      unreported := fun _ => hzero
      low := fun q hq q' hq' hdev => by
        rw [hstores'] at hq hq'
        exact hg.low q hq q' hq' hdev
      accepted := fun q hq => by
        simp only at hq ⊢
        by_cases hq' : q = h.accepted
        · subst hq'
          rw [Function.update_self]
          exact hport
        · rw [Function.update_of_ne hq']
          exact hg.accepted q (by omega)
      below := fun q hq => by
        simp only at hq ⊢
        by_cases hq' : q = h.accepted
        · subst hq'
          rw [Function.update_self]
          exact le_of_eq hown
        · rw [Function.update_of_ne hq']
          exact hg.below q (by omega)
      reason := fun q hq => by
        rw [hstores']
        simp only at hq ⊢
        by_cases hq' : q = h.accepted
        · subst hq'
          rw [Function.update_self]
          exact .inl hown
        · rw [Function.update_of_ne hq']
          exact hg.reason q (by omega)
      finished := hg.finished
      connected := fun q hq => by
        simp only at hq
        omega }

/-- The receiver tells a device what its entry has now. -/
theorem HandshakeGood.receiverDevice (hg : HandshakeGood port mtu k h)
    (hall : h.accepted = k.nqps) (hlt : h.reported < k.receiverNdevs) :
    HandshakeGood port mtu k { h with
      reported := h.reported + 1
      receiverMeta := Function.update h.receiverMeta h.reported
        (mtu k.receiver (k.receiverDevs h.reported)) } := by
  have hsame : ∀ q, k.lowered mtu { h with
      reported := h.reported + 1
      receiverMeta := Function.update h.receiverMeta h.reported
        (mtu k.receiver (k.receiverDevs h.reported)) } q = k.lowered mtu h q := by
    intro q
    unfold Connection.lowered
    simp only
    by_cases hdev : q % k.receiverNdevs = h.reported
    · rw [hdev, if_pos (Nat.lt_succ_self _), if_neg (Nat.lt_irrefl _), Function.update_self, ← hdev]
      rfl
    · rw [Function.update_of_ne hdev]
      by_cases hrep : q % k.receiverNdevs < h.reported
      · rw [if_pos (by omega), if_pos hrep]
      · rw [if_neg (by omega), if_neg hrep]
  exact
    { told := hg.told
      entries := hg.entries
      waiting := hg.waiting
      count := hg.count
      turn := hg.turn
      loaded := hg.loaded
      unreported := fun hrest => by
        simp only at hrest
        omega
      low := fun q hq q' hq' hdev => by
        rw [hsame]
        exact hg.low q hq q' hq' hdev
      accepted := hg.accepted
      below := fun q hq => by
        rw [hsame]
        exact hg.below q hq
      reason := fun q hq => by
        rw [hsame]
        exact hg.reason q hq
      finished := fun hpos => by
        have := hg.finished hpos
        omega
      connected := fun q hq => by
        rw [hsame]
        exact hg.connected q hq }

/-- The sender configures its next QP. Its entry gives what it has told, which is no less
than what it is told for this QP. -/
theorem HandshakeGood.senderRtr (hg : HandshakeGood port mtu k h)
    (hall : h.reported = k.receiverNdevs) (hlt : h.connected < k.nqps) :
    HandshakeGood port mtu k { h with
      connected := h.connected + 1
      senderQps := Function.update h.senderQps h.connected
        (min (h.receiverMeta (h.connected % k.receiverNdevs))
          (mtu k.sender (k.senderDev h.connected))) } := by
  -- All QPs are accepted, or nothing would be reported.
  have hacc : h.connected < h.accepted := by
    by_contra hge
    have := hg.unreported (by omega)
    have := k.receiverPos
    omega
  have hstores : h.connected < h.stores := Nat.lt_of_lt_of_le hacc (Nat.le_add_right _ _)
  have htold := hg.all_told (Nat.zero_lt_of_lt hacc)
  have hentry := hg.entries hlt (h.connected % k.senderNdevs)
    (Nat.lt_of_lt_of_le (Nat.mod_lt _ k.senderPos) htold)
  have hlow := hg.low h.connected hstores h.connected hstores rfl
  have hlowered : k.lowered mtu h h.connected =
      h.receiverMeta (h.connected % k.receiverNdevs) := by
    unfold Connection.lowered
    rw [if_pos (by rw [hall]; exact Nat.mod_lt _ k.receiverPos)]
  have hmin : min (h.receiverMeta (h.connected % k.receiverNdevs))
      (mtu k.sender (k.senderDev h.connected)) = k.lowered mtu h h.connected := by
    unfold Connection.senderDev
    rw [hentry, ← hlowered]
    exact Nat.min_eq_left hlow
  exact
    { told := hg.told
      entries := fun hrest => hg.entries (by simp only at hrest; omega)
      waiting := hg.waiting
      count := hg.count
      turn := hg.turn
      loaded := hg.loaded
      unreported := hg.unreported
      low := hg.low
      accepted := hg.accepted
      below := hg.below
      reason := hg.reason
      finished := fun _ => hall
      connected := fun q hq => by
        simp only at hq ⊢
        by_cases hq' : q = h.connected
        · subst hq'
          rw [Function.update_self]
          exact ⟨hacc, hmin⟩
        · rw [Function.update_of_ne hq']
          exact hg.connected q (by omega) }

/-- The store of a turn, which spares the devices of the others. -/
theorem MtuGood.storeMtu (hg : MtuGood port conf w) (hturn : (w.conns c).turn = .loaded m)
    (hspares : Spares conf w (some c) (conf c).receiver
      ((conf c).receiverDev (w.conns c).accepted)
      (min m ((w.conns c).senderMeta ((w.conns c).accepted % (conf c).senderNdevs)))) :
    MtuGood port conf ((w.setDev (conf c).receiver ((conf c).receiverDev (w.conns c).accepted)
      (setMtu (w.ibDevs (conf c).receiver ((conf c).receiverDev (w.conns c).accepted))
        (min m ((w.conns c).senderMeta ((w.conns c).accepted % (conf c).senderNdevs))))).setConn c
          { w.conns c with turn := .stored }) := by
  have hport : min m ((w.conns c).senderMeta ((w.conns c).accepted % (conf c).senderNdevs)) ≤
      port (conf c).receiver ((conf c).receiverDev (w.conns c).accepted) := by
    rw [(hg.conns c).loaded m hturn]
    exact Nat.le_trans (Nat.min_le_left _ _) (hg.mtu _ _)
  refine ⟨setDev_le hg hport, fun c' => ?_⟩
  rw [setConn_mtu]
  unfold MtuWorld.setConn
  simp only
  by_cases hc : c' = c
  · subst hc
    rw [Function.update_self]
    refine (hg.conns c').storeMtu hturn (setDev_spares hspares setMtu_mtu).1 fun d => ?_
    rw [setDev_mtu]
    simp only [true_and, setMtu_mtu]
  · rw [Function.update_of_ne hc]
    obtain ⟨htells, hlowers⟩ := setDev_spares (c := c') hspares setMtu_mtu
    exact (hg.conns c').spared htells (hlowers fun h => hc (Option.some.inj h).symm)

/-- A step that is undisturbed keeps the invariant. -/
theorem MtuGood.next (hg : MtuGood port conf w) {act : MtuAct} (hfree : Undisturbed conf act w)
    (hn : w.next conf port act = some w') : MtuGood port conf w' := by
  cases act with
  | senderDevice c =>
    obtain ⟨hlt, hn⟩ := Option.ite_none_right_eq_some.mp hn
    cases hn
    exact hg.setConn ((hg.conns c).senderDevice hlt (hg.mtu _ _))
  | loadMtu c =>
    obtain ⟨⟨htold, hlt, hturn⟩, hn⟩ := Option.ite_none_right_eq_some.mp hn
    cases hn
    exact hg.setConn ((hg.conns c).loadMtu htold hlt hturn)
  | storeMtu c =>
    unfold MtuWorld.next at hn
    simp only at hn
    split at hn
    · rename_i m hturn
      cases hn
      exact hg.storeMtu hturn (hfree m hturn)
    · cases hn
  | receiverRtr c =>
    obtain ⟨hturn, hn⟩ := Option.ite_none_right_eq_some.mp hn
    cases hn
    exact hg.setConn ((hg.conns c).receiverRtr hturn (hg.mtu _ _))
  | receiverDevice c =>
    obtain ⟨⟨-, hall, hlt⟩, hn⟩ := Option.ite_none_right_eq_some.mp hn
    cases hn
    exact hg.setConn ((hg.conns c).receiverDevice hall hlt)
  | senderRtr c =>
    obtain ⟨⟨hall, hlt⟩, hn⟩ := Option.ite_none_right_eq_some.mp hn
    cases hn
    exact hg.setConn ((hg.conns c).senderRtr hall hlt)
  | gidChange p d x =>
    obtain ⟨hport, hn⟩ := Option.ite_none_right_eq_some.mp hn
    cases hn
    have hle : (x.run (w.ibDevs p d)).1.portAttr.active_mtu ≤ port p d := by
      rcases gidChange_portAttr x (w.ibDevs p d) with hsame | hnew
      · rw [hsame]
        exact hg.mtu p d
      · rw [hport _ hnew]
    refine ⟨setDev_le hg hle, fun c => ?_⟩
    obtain ⟨htells, hlowers⟩ := setDev_spares (c := c) hfree rfl
    exact (hg.conns c).spared htells (hlowers (by simp))

/-! ## Every run -/

theorem StartMtu.good (hs : StartMtu port w) : MtuGood port conf w := by
  refine ⟨fun p d => le_of_eq (hs.mtu p d), fun c => ?_⟩
  have htold := hs.told c
  have hacc := hs.accepted c
  have hturn := hs.turn c
  have hconn := hs.connected c
  have hnone : ∀ q, ¬ q < (w.conns c).stores := by
    unfold Handshake.stores
    rw [hacc, hturn]
    exact fun q => Nat.not_lt_zero q
  have haccepted : ∀ q, ¬ q < (w.conns c).accepted := fun q => by omega
  exact
    { told := fun i hi => by omega
      entries := fun _ i hi => by omega
      waiting := fun _ => ⟨hacc, hturn⟩
      count := by omega
      turn := fun hne => absurd hturn hne
      loaded := fun m hm => by
        rw [hturn] at hm
        cases hm
      unreported := fun _ => hs.reported c
      low := fun q hq => absurd hq (hnone q)
      accepted := fun q hq => absurd hq (haccepted q)
      below := fun q hq => absurd hq (haccepted q)
      reason := fun q hq => absurd hq (haccepted q)
      finished := fun hpos => by omega
      connected := fun q hq => by omega }

end

/-- In every run in which no step changes the MTU of a device that a handshake depends on,
other than the turns of its own receiver, the sender configures a QP with at most the MTU
of the receiver. The two are the same just when no later QP of the receiver's device goes
to a device of the sender with a lower MTU. -/
theorem path_mtus_fit (conf : Nat → Connection) (port : Nat → Nat → Nat) (w : MtuWorld)
    (hr : Reachable (mtuSystem conf port Undisturbed) w) : PathMtusFit port conf w := by
  have hg : MtuGood port conf w := by
    refine hr.invariant (fun w h0 => StartMtu.good h0) (fun w w' _ hg hstep => ?_)
    obtain ⟨act, hfree, hn⟩ := hstep
    exact hg.next hfree hn
  exact fun c q hq => (hg.conns c).fits hq

/-! ## Two handshakes with two devices each -/

/-- Both senders are in process 0, on the devices 0 and 1. The receivers are in process 1,
one on device 0 and the other on the devices 1 and 2. No other handshake uses these. -/
def twoHandshakes (c : Nat) : Connection :=
  if c = 0 then ⟨0, 1, id, id, 2, 1, 2, Nat.two_pos, Nat.one_pos⟩
  else ⟨0, c, id, fun j => j + 1, 2, 2, 2, Nat.two_pos, Nat.two_pos⟩

/-- Device 1 of process 0 has the active MTU 3, and all others have 5. -/
def portMtus (p d : Nat) : Nat := if p = 0 ∧ d = 1 then 3 else 5

def startWorld : MtuWorld where
  ibDevs := fun p d =>
    { oldDev with
      portAttr := { roceAttr with active_mtu := portMtus p d } }
  conns := fun _ => ⟨0, fun _ => 0, 0, .start, fun _ => 0, 0, fun _ => 0, 0, fun _ => 0⟩

theorem startWorld_start : StartMtu portMtus startWorld :=
  ⟨fun _ _ => rfl, fun _ => rfl, fun _ => rfl, fun _ => rfl, fun _ => rfl, fun _ => rfl⟩

/-- The port has its MTU of 5 again after a change of the GID table. -/
def sameMtu : GidRefresh := ⟨oneAddress, wantsV2, some { roceAttr with active_mtu := 5 }⟩

def twoShakesActs : List MtuAct :=
  [.senderDevice 0, .senderDevice 1, .senderDevice 0, .loadMtu 0, .senderDevice 1, .storeMtu 0,
    .loadMtu 1, .receiverRtr 0, .storeMtu 1, .loadMtu 0, .gidChange 0 0 sameMtu, .receiverRtr 1,
    .storeMtu 0, .loadMtu 1, .receiverRtr 0, .storeMtu 1, .receiverDevice 0, .receiverRtr 1,
    .senderRtr 0, .receiverDevice 1, .receiverDevice 1, .senderRtr 1, .senderRtr 0, .senderRtr 1]

/-- A turn of the two handshakes, or a publication of the same MTU. -/
def Expected : MtuAct → MtuWorld → Prop
  | .storeMtu c, _ => c < 2
  | .gidChange p d x, w => (x.run (w.ibDevs p d)).1.portAttr.active_mtu = w.mtu p d
  | _, _ => True

instance (act : MtuAct) (w : MtuWorld) : Decidable (Expected act w) :=
  match act with
  | .storeMtu c => inferInstanceAs (Decidable (c < 2))
  | .gidChange _ _ _ => inferInstanceAs (Decidable (_ = _))
  | .senderDevice _ => inferInstanceAs (Decidable True)
  | .loadMtu _ => inferInstanceAs (Decidable True)
  | .receiverRtr _ => inferInstanceAs (Decidable True)
  | .receiverDevice _ => inferInstanceAs (Decidable True)
  | .senderRtr _ => inferInstanceAs (Decidable True)

theorem twoHandshakes_sender (c : Nat) : (twoHandshakes c).sender = 0 := by
  unfold twoHandshakes
  split <;> rfl

theorem twoHandshakes_receiver (c : Nat) :
    (twoHandshakes c).receiver = if c = 0 then 1 else c := by
  unfold twoHandshakes
  split <;> rfl

/-- Neither receiver lowers a device of a sender, or of the other receiver. -/
theorem expected_undisturbed {act : MtuAct} {w : MtuWorld} (h : Expected act w) :
    Undisturbed twoHandshakes act w := by
  cases act with
  | storeMtu c =>
    intro m _
    refine .inr fun c' => ⟨fun htells => ?_, fun hown hlowers => ?_⟩
    · have hsender := htells.1
      rw [twoHandshakes_sender, twoHandshakes_receiver] at hsender
      split at hsender <;> omega
    · obtain ⟨hreceiver, -, j, hj, -, hdev⟩ := hlowers
      have hne : c ≠ c' := fun heq => hown (congrArg some heq)
      rw [twoHandshakes_receiver, twoHandshakes_receiver] at hreceiver
      unfold Connection.receiverDev twoHandshakes at hdev
      unfold twoHandshakes at hj
      match c, h with
      | 0, _ =>
        rw [if_neg hne.symm] at hdev
        simp [Nat.mod_one] at hdev
      | 1, _ =>
        by_cases hc' : c' = 0
        · simp [hc'] at hj hdev
          omega
        · simp [hc'] at hreceiver
          omega
  | gidChange p d x => exact .inl h
  | senderDevice c => trivial
  | loadMtu c => trivial
  | receiverRtr c => trivial
  | receiverDevice c => trivial
  | senderRtr c => trivial

/-- With one device at the receiver, QP 1 lowers the MTU of the device after QP 0 has taken
it: the sender configures QP 0 with 3 and the receiver with 5. With two devices each QP has
its own. -/
theorem a_later_qp_lowers_the_mtu :
    ∃ w, Reachable (mtuSystem twoHandshakes portMtus Undisturbed) w ∧
      ((w.conns 0).connected = 2 ∧ (w.conns 0).senderQps 0 = 3 ∧ (w.conns 0).receiverQps 0 = 5) ∧
      ((w.conns 1).connected = 2 ∧ (w.conns 1).senderQps 0 = 5 ∧ (w.conns 1).receiverQps 0 = 5) ∧
      PathMtusFit portMtus twoHandshakes w := by
  have hrun : (follow (fun act (w : MtuWorld) =>
      if Expected act w then w.next twoHandshakes portMtus act else none)
      twoShakesActs startWorld).any
        (fun w => ((w.conns 0).connected == 2 && (w.conns 0).senderQps 0 == 3 &&
          (w.conns 0).receiverQps 0 == 5) && ((w.conns 1).connected == 2 &&
            (w.conns 1).senderQps 0 == 5 && (w.conns 1).receiverQps 0 == 5)) = true := by
    decide
  obtain ⟨w, hw, hend⟩ := (Option.any_eq_true _ _).mp hrun
  simp only [Bool.and_eq_true, beq_iff_eq, and_assoc] at hend
  obtain ⟨hconn, hsend, hrecv, hconn', hsend', hrecv'⟩ := hend
  have hreach : Reachable (mtuSystem twoHandshakes portMtus Undisturbed) w := by
    refine (Reachable.init startWorld_start).follow (fun act s t hn => ?_) hw
    obtain ⟨hexpected, hn⟩ := Option.ite_none_right_eq_some.mp hn
    exact ⟨act, expected_undisturbed hexpected, hn⟩
  exact ⟨w, hreach, ⟨hconn, hsend, hrecv⟩, ⟨hconn', hsend', hrecv'⟩,
    path_mtus_fit twoHandshakes portMtus w hreach⟩

end net_ib.path_mtu
