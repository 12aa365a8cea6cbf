-- The handshake does not depend on how the socket cuts its messages, nor on the order of
-- the calls of the two sides. Each side has sent a part of one stream and received a part
-- of another, and its stage says where in the streams it is.
import MrcPlugin.HandshakeWire

namespace net_ib.wire

open p2p resiliency lifecycle streams layouts

/-! ## A message -/

section
variable {C : Type}

/-- The side sends a message that its memory holds. -/
structure Sends (x : Side C) (p : Place) (msg : List Byte) : Prop where
  held : (x.load p).take msg.length = msg
  lt : x.offset < msg.length

/-- The side receives the first `size` bytes of `part`, and its memory holds those that
have come. -/
structure Receives (x : Side C) (p : Place) (size : Nat) (part : List Byte) : Prop where
  held : (x.load p).take x.offset = part.take x.offset
  lt : x.offset < size
  room : size ≤ (x.load p).length

variable {Q : View C → Prop} {p : Place} {msg rest full : List Byte} {base sent got size k : Nat}
  {v : View C} {done : View C → View C}

/-- A turn of a message that is sent: it is not out yet, or it is out. -/
theorem sendMessage_spec (hs : Sends v.side p msg) (hsize : msg.length = size)
    (hfull : full.drop base = msg ++ rest) (hflow : Flow full (base + v.side.offset) got v.out)
    (hwait : ∀ offset out, offset < size → k < size → Flow full (base + offset) got out →
      Q { v with side := { v.side with offset }, out })
    (hdone : ∀ out, Flow full (base + size) got out →
      Q (done { v with side := { v.side with offset := size }, out })) :
    Q (sendMessage p size k v done) := by
  subst hsize
  have hlt := hs.lt
  have hle := outLen_le (k := k) (Nat.le_of_lt hlt)
  have hnext := hflow.send hfull hs.held (Nat.le_of_lt hlt) k
  unfold sendMessage
  simp only
  split
  · rename_i hout
    have hshort : k < msg.length := by
      unfold outLen at hout
      omega
    exact hwait _ _ (by omega) hshort hnext
  · rename_i hout
    rw [not_not] at hout
    rw [hout] at hnext ⊢
    exact hdone _ hnext

/-- A turn of a message that is received: it is not there yet, or it is there. -/
theorem recvMessage_spec (hr : Receives v.side p size (full.drop base))
    (hflow : Flow full sent (base + v.side.offset) v.inp)
    (hwait : ∀ offset bytes inp, bytes.length = (v.side.load p).length → offset < size →
      (size ≤ k → inp = []) → bytes.take offset = (full.drop base).take offset →
      Flow full sent (base + offset) inp →
      Q { v with side := { v.side.store bytes p with offset }, inp })
    (hdone : ∀ bytes inp, bytes.length = (v.side.load p).length →
      bytes.take size = (full.drop base).take size → Flow full sent (base + size) inp →
      Q (done { v with side := { v.side.store bytes p with offset := size }, inp })) :
    Q (recvMessage p size k v done) := by
  have hlt := hr.lt
  have hroom := hr.room
  have hle : v.side.offset + inLen size v.side.offset k v.inp ≤ size := inLen_le (Nat.le_of_lt hlt)
  obtain ⟨hnext, hheld⟩ := hflow.recv hr.held (by omega) size k
  have hlen : (write (v.side.load p) v.side.offset
      (v.inp.take (inLen size v.side.offset k v.inp))).length = (v.side.load p).length := by
    refine write_length ?_
    rw [List.length_take]
    omega
  unfold recvMessage
  rw [if_neg (Nat.not_le.mpr hlt)]
  simp only
  split
  · rename_i hin
    have hdrained : size ≤ k → v.inp.drop (inLen size v.side.offset k v.inp) = [] := by
      intro hk
      refine List.drop_eq_nil_of_le ?_
      unfold inLen at hin ⊢
      omega
    exact hwait _ _ _ hlen (by omega) hdrained hheld hnext
  · rename_i hin
    rw [not_not] at hin
    rw [hin] at hheld hnext ⊢
    exact hdone _ _ hlen hheld hnext

end

/-! ## The streams -/

/-- All that the connecting side sends. -/
def toAcceptStream (i : WireInput) : List Byte :=
  ((connectListed i).elim [] fun x => devListLayout.encode x.2) ++
    (connectSent i).elim [] fun x => metadataLayout.encode x.2 ++ (word 4).encode 1

/-- All that the accepting side sends. -/
def toConnectStream (i : WireInput) : List Byte :=
  ((acceptListed i).elim [] fun x => devListLayout.encode x.2) ++
    (acceptSent i).elim [] fun x => metadataLayout.encode x.2

variable {i : WireInput} {e : CallEnv} {sent got : Nat} {w w' : WireWorld}

/-- The metadata comes behind both device lists. -/
theorem connectSent_listed {x : SenderComm × Metadata} (h : connectSent i = some x) :
    (∃ y, connectListed i = some y) ∧ ∃ z, acceptListed i = some z := by
  obtain ⟨_, -, h⟩ := Option.bind_eq_some_iff.mp h
  obtain ⟨y, hy, h⟩ := Option.bind_eq_some_iff.mp h
  obtain ⟨z, hz, -⟩ := Option.bind_eq_some_iff.mp h
  exact ⟨⟨y, hy⟩, z, hz⟩

theorem acceptSent_listed {x : ReceiverComm × Metadata} (h : acceptSent i = some x) :
    ∃ y, acceptListed i = some y := by
  obtain ⟨y, hy, -⟩ := Option.bind_eq_some_iff.mp h
  exact ⟨y, hy⟩

theorem toAcceptStream_list {s : SenderComm} {list : DevList} (h : connectListed i = some (s, list)) :
    ∃ rest, (toAcceptStream i).drop 0 = devListLayout.encode list ++ rest := by
  unfold toAcceptStream
  rw [h]
  exact ⟨_, rfl⟩

theorem toConnectStream_list {r : ReceiverComm} {list : DevList}
    (h : acceptListed i = some (r, list)) :
    ∃ rest, (toConnectStream i).drop 0 = devListLayout.encode list ++ rest := by
  unfold toConnectStream
  rw [h]
  exact ⟨_, rfl⟩

theorem toAcceptStream_metadata {s : SenderComm} {info : Metadata}
    (h : connectSent i = some (s, info)) : (toAcceptStream i).drop devListLayout.size =
      metadataLayout.encode info ++ (word 4).encode 1 := by
  obtain ⟨⟨⟨_, list⟩, hlist⟩, -⟩ := connectSent_listed h
  unfold toAcceptStream
  rw [h, hlist, Option.elim_some, ← devListLayout.length_encode list, List.drop_left,
    Option.elim_some]

theorem toAcceptStream_ready {s : SenderComm} {info : Metadata}
    (h : connectSent i = some (s, info)) :
    (toAcceptStream i).drop (devListLayout.size + metadataLayout.size) = (word 4).encode 1 ++ [] := by
  rw [← List.drop_drop, toAcceptStream_metadata h, ← metadataLayout.length_encode info,
    List.drop_left, List.append_nil]

theorem toConnectStream_metadata {r : ReceiverComm} {info : Metadata}
    (h : acceptSent i = some (r, info)) :
    (toConnectStream i).drop devListLayout.size = metadataLayout.encode info ++ [] := by
  obtain ⟨⟨_, list⟩, hlist⟩ := acceptSent_listed h
  unfold toConnectStream
  rw [h, hlist, Option.elim_some, ← devListLayout.length_encode list, List.drop_left,
    List.append_nil, Option.elim_some]

/-- The first message of a stream is a device list, if there is one. -/
theorem elim_list_le {α : Type} (x : Option (α × DevList)) :
    (x.elim [] fun y => devListLayout.encode y.2).length ≤ devListLayout.size := by
  cases x with
  | none => exact Nat.zero_le _
  | some y => exact le_of_eq (devListLayout.length_encode y.2)

/-- When anything has come from the connecting side, it has sent its device list. -/
theorem connectListed_of_flow {chan : List Byte}
    (h : Flow (toAcceptStream i) sent got chan) (hgot : 0 < got) :
    ∃ s list, connectListed i = some (s, list) := by
  cases hlist : connectListed i with
  | some x => exact ⟨x.1, x.2, rfl⟩
  | none =>
    have hnone : connectSent i = none := by
      unfold connectSent
      cases connectingDev i with
      | none => rfl
      | some dev =>
        simp only [hlist]
        rfl
    have hlen : (toAcceptStream i).length = 0 := by
      unfold toAcceptStream
      rw [hlist, hnone]
      rfl
    have := h.got_le
    have := h.sent_le
    omega

theorem acceptListed_of_flow {chan : List Byte}
    (h : Flow (toConnectStream i) sent got chan) (hgot : 0 < got) :
    ∃ r list, acceptListed i = some (r, list) := by
  cases hlist : acceptListed i with
  | some x => exact ⟨x.1, x.2, rfl⟩
  | none =>
    have hnone : acceptSent i = none := by
      unfold acceptSent
      rw [hlist]
      rfl
    have hlen : (toConnectStream i).length = 0 := by
      unfold toConnectStream
      rw [hlist, hnone]
      rfl
    have := h.got_le
    have := h.sent_le
    omega

/-- When more than the device list has come from the connecting side, it has sent
metadata. -/
theorem connectSent_of_flow {chan : List Byte} {n : Nat}
    (h : Flow (toAcceptStream i) sent (devListLayout.size + n) chan) (hn : 0 < n) :
    ∃ s info, connectSent i = some (s, info) := by
  cases hsent : connectSent i with
  | some x => exact ⟨x.1, x.2, rfl⟩
  | none =>
    have hlen : (toAcceptStream i).length ≤ devListLayout.size := by
      unfold toAcceptStream
      rw [hsent, Option.elim_none, List.append_nil]
      exact elim_list_le _
    have := h.got_le
    have := h.sent_le
    omega

theorem acceptSent_of_flow {chan : List Byte} {n : Nat}
    (h : Flow (toConnectStream i) sent (devListLayout.size + n) chan) (hn : 0 < n) :
    ∃ r info, acceptSent i = some (r, info) := by
  cases hsent : acceptSent i with
  | some x => exact ⟨x.1, x.2, rfl⟩
  | none =>
    have hlen : (toConnectStream i).length ≤ devListLayout.size := by
      unfold toConnectStream
      rw [hsent, Option.elim_none, List.append_nil]
      exact elim_list_le _
    have := h.got_le
    have := h.sent_le
    omega

theorem devList_pos : 0 < devListLayout.size := by
  decide

theorem metadata_pos : 0 < metadataLayout.size := by
  decide

theorem devList_le : devListLayout.size ≤ metadataLayout.size := by
  decide

theorem ready_le : 4 ≤ metadataLayout.size := by
  decide

-- From here on the sizes are not evaluated.
attribute [local irreducible] devListLayout metadataLayout

/-! ## A call that waits for nothing but its peer -/

/-- The provider does all that it is asked. -/
def Granted (e : CallEnv) : Prop := ∀ m, e.ok m = true

/-- Also the socket is connected and takes or gives all it can. -/
structure Serves (e : CallEnv) : Prop where
  connected : e.connected = true
  moves : ∀ m, metadataLayout.size ≤ e.moves m
  granted : Granted e

/-- The stages that receive a message. -/
def receives : NcclIbCommState → Bool
  | .recvDevList | .recv | .connecting | .pendingReady => true
  | _ => false

/-- The side has returned, or it receives a message and has taken all that has come. -/
def Rests {C : Type} (x : Side C) (inp : List Byte) : Prop :=
  x.outcome = some true ∨ (x.outcome = none ∧ receives x.state = true ∧ inp = [])

theorem Serves.devList (h : Serves e) (m : Wait) : devListLayout.size ≤ e.moves m :=
  Nat.le_trans devList_le (h.moves m)

/-- The provider has done what it was asked, so an error comes from the messages. -/
theorem Granted.none {α : Type} (h : Granted e) {m : Wait} {x : Option α}
    (hnone : (if e.ok m then x else none) = none) : x = none := by
  rw [if_pos (h m)] at hnone
  exact hnone

/-- How a call ends when the handshake in one piece has the comm of the side. -/
structure Ends {C : Type} (e : CallEnv) (done : Bool) (x : Side C) (inp : List Byte) : Prop where
  noError : Granted e → done = true → x.outcome ≠ some false
  rests : Serves e → done = true → Rests x inp

section
variable {C : Type} {done : Bool} {x : Side C} {inp : List Byte}

theorem Ends.waiting (h : x.outcome = Option.none) (hrests : Serves e → Rests x inp) :
    Ends e done x inp := by
  refine ⟨fun _ _ hfalse => ?_, fun he _ => hrests he⟩
  rw [h] at hfalse
  cases hfalse

theorem Ends.returned (h : x.outcome = some true) : Ends e done x inp := by
  refine ⟨fun _ _ hfalse => ?_, fun _ _ => Or.inl h⟩
  rw [h] at hfalse
  cases hfalse

theorem Ends.failed (h : Granted e → done = false) : Ends e done x inp := by
  refine ⟨fun he hdone => ?_, fun he hdone => ?_⟩
  · rw [h he] at hdone
    cases hdone
  · rw [h he.granted] at hdone
    cases hdone

end

section
variable {C : Type} {v : View C} {p : Place} {state : NcclIbCommState}

/-- A side goes on from the start of a message. -/
theorem sends_enter {msg : List Byte} (h : (v.side.load p).take msg.length = msg)
    (hpos : 0 < msg.length) : Sends (v.enter state).side p msg :=
  ⟨by cases p <;> exact h, hpos⟩

theorem receives_enter {part : List Byte} {size : Nat} (hpos : 0 < size)
    (hroom : size ≤ (v.side.load p).length) : Receives (v.enter state).side p size part :=
  ⟨rfl, hpos, by cases p <;> exact hroom⟩

/-- A message that is copied to the staging buffer. -/
theorem staged {α : Type} (l : Layout α) (a : α) {buffer : List Byte}
    (h : l.size ≤ buffer.length) :
    (write buffer 0 (l.encode a)).take (l.encode a).length = l.encode a ∧
      (write buffer 0 (l.encode a)).length = buffer.length := by
  refine ⟨?_, write_length (by rw [l.length_encode]; omega)⟩
  have htake : (write buffer 0 (l.encode a)).take (0 + (l.encode a).length) =
      buffer.take 0 ++ l.encode a := write_take (Nat.zero_le buffer.length)
  rw [Nat.zero_add, List.take_zero, List.nil_append] at htake
  exact htake

theorem encode_pos {α : Type} {l : Layout α} (h : 0 < l.size) (a : α) :
    0 < (l.encode a).length := by
  rw [l.length_encode]
  exact h

end

/-! ## The connecting side -/

/-- Where the connecting side is when it has sent `sent` bytes and received `got`. -/
inductive ConnectAt (i : WireInput) (x : Side SenderComm) : Nat → Nat → Prop
  | failed {sent got : Nat} (houtcome : x.outcome = some false)
    (hsent : sent ≤ devListLayout.size + metadataLayout.size) : ConnectAt i x sent got
  | idle (houtcome : x.outcome = none) (hstate : x.state = .start) : ConnectAt i x 0 0
  | socket (houtcome : x.outcome = none) (hstate : x.state = .connect) (hcomm : x.comm = i.send) :
    ConnectAt i x 0 0
  | devListOut {list : DevList} (houtcome : x.outcome = none) (hstate : x.state = .sendDevList)
    (hcomm : connectListed i = some (x.comm, list)) (hroom : metadataLayout.size ≤ x.buffer.length)
    (hsends : Sends x .staging (devListLayout.encode list)) : ConnectAt i x (0 + x.offset) 0
  | devListIn {list : DevList} (houtcome : x.outcome = none) (hstate : x.state = .recvDevList)
    (hcomm : connectListed i = some (x.comm, list)) (hroom : metadataLayout.size ≤ x.buffer.length)
    (hreceives : Receives x .staging devListLayout.size ((toConnectStream i).drop 0)) :
    ConnectAt i x devListLayout.size (0 + x.offset)
  | metaOut {info : Metadata} (houtcome : x.outcome = none) (hstate : x.state = .send)
    (hcomm : connectSent i = some (x.comm, info)) (hroom : metadataLayout.size ≤ x.buffer.length)
    (hsends : Sends x .staging (metadataLayout.encode info)) :
    ConnectAt i x (devListLayout.size + x.offset) devListLayout.size
  | metaIn {info : Metadata} (houtcome : x.outcome = none) (hstate : x.state = .connecting)
    (hcomm : connectSent i = some (x.comm, info))
    (hreceives : Receives x .staging metadataLayout.size
      ((toConnectStream i).drop devListLayout.size)) :
    ConnectAt i x (devListLayout.size + metadataLayout.size) (devListLayout.size + x.offset)
  | readyOut {s : SenderComm} {info : Metadata} (houtcome : x.outcome = none)
    (hstate : x.state = .connected) (hsent : connectSent i = some (s, info))
    (hcomm : connectDone i = some x.comm) (hsends : Sends x .ready ((word 4).encode 1)) :
    ConnectAt i x (devListLayout.size + metadataLayout.size + x.offset)
      (devListLayout.size + metadataLayout.size)
  | returned (houtcome : x.outcome = some true) (hcomm : connectDone i = some x.comm) :
    ConnectAt i x (devListLayout.size + metadataLayout.size + 4)
      (devListLayout.size + metadataLayout.size)

/-- A side that has sent anything has a device list. -/
theorem ConnectAt.unlisted {x : Side SenderComm} (h : ConnectAt i x sent got)
    (hlisted : connectListed i = none) (houtcome : x.outcome = none) :
    sent ≤ devListLayout.size + metadataLayout.size := by
  cases h with
  | failed _ hle => exact hle
  | idle | socket => exact Nat.zero_le _
  | devListOut _ _ hcomm | devListIn _ _ hcomm =>
    rw [hlisted] at hcomm
    cases hcomm
  | metaIn => exact Nat.le_refl _
  | metaOut _ _ hcomm | readyOut _ _ hcomm =>
    obtain ⟨⟨y, hy⟩, -⟩ := connectSent_listed hcomm
    rw [hlisted] at hy
    cases hy
  | returned hreturned =>
    rw [houtcome] at hreturned
    cases hreturned

/-- The connecting side and its streams, of which the peer has received `peerGot` bytes
and sent `peerSent`. -/
def ConnectLinked (i : WireInput) (peerGot peerSent : Nat) (v : View SenderComm) : Prop :=
  ∃ sent got, ConnectAt i v.side sent got ∧ Flow (toAcceptStream i) sent peerGot v.out ∧
    Flow (toConnectStream i) peerSent got v.inp

/-- After a call. -/
def ConnectCalled (i : WireInput) (e : CallEnv) (peerGot peerSent : Nat) (v : View SenderComm) :
    Prop :=
  ConnectLinked i peerGot peerSent v ∧ Ends e (connectDone i).isSome v.side v.inp

section
variable {peerGot peerSent : Nat} {v : View SenderComm}

theorem connect_fail {sent got : Nat} (hle : sent ≤ devListLayout.size + metadataLayout.size)
    (hout : Flow (toAcceptStream i) sent peerGot v.out)
    (hin : Flow (toConnectStream i) peerSent got v.inp)
    (hnone : Granted e → connectDone i = none) : ConnectCalled i e peerGot peerSent v.fail :=
  ⟨⟨sent, got, .failed rfl hle, hout, hin⟩, .failed fun he => by rw [hnone he]; rfl⟩

/-- Without a device list there is no handshake. -/
theorem connect_unlisted (h : connectListed i = none) : connectDone i = none := by
  have hsent : connectSent i = none := by
    cases hs : connectSent i with
    | none => rfl
    | some x =>
      obtain ⟨⟨y, hy⟩, -⟩ := connectSent_listed hs
      rw [h] at hy
      cases hy
  unfold connectDone
  rw [hsent]
  rfl

namespace connect

theorem ib_send_ready_linked {s : SenderComm} {info : Metadata} (houtcome : v.side.outcome = none)
    (hstate : v.side.state = .connected) (hsent : connectSent i = some (s, info))
    (hcomm : connectDone i = some v.side.comm) (hsends : Sends v.side .ready ((word 4).encode 1))
    (hout : Flow (toAcceptStream i) (devListLayout.size + metadataLayout.size + v.side.offset)
      peerGot v.out)
    (hin : Flow (toConnectStream i) peerSent (devListLayout.size + metadataLayout.size) v.inp) :
    ConnectCalled i e peerGot peerSent (ib_send_ready e v) := by
  refine sendMessage_spec hsends ((word 4).length_encode 1) (toAcceptStream_ready hsent) hout
    (fun offset out hlt hshort hflow => ⟨?_, .waiting houtcome fun he => ?_⟩)
    (fun out hflow => ⟨?_, .returned rfl⟩)
  · refine ⟨_, _, .readyOut houtcome hstate hsent hcomm ⟨hsends.held, ?_⟩, hflow, hin⟩
    rw [(word 4).length_encode]
    exact hlt
  · have := he.moves .ready
    have := ready_le
    omega
  · exact ⟨_, _, .returned rfl hcomm, hflow, hin⟩

/-- The two halves of a handshake, one behind the other. -/
theorem both_halves {α β γ δ ε : Type} {x : Option (α × β)} {y : Option (γ × δ)} {a : α} {b : β}
    {c : γ} {d : δ} (take : δ → α → Option ε) (hx : x = some (a, b)) (hy : y = some (c, d)) :
    (do let (a, _) ← x; let (_, d) ← y; take d a) = take d a := by
  rw [hx, hy]
  rfl

theorem connectDone_eq {s : SenderComm} {r : ReceiverComm} {info info' : Metadata}
    (hsent : connectSent i = some (s, info)) (hacc : acceptSent i = some (r, info')) :
    connectDone i = connectMetadata i (copy metadataLayout info') s := by
  unfold connectDone
  exact both_halves (fun d a => connectMetadata i (copy metadataLayout d) a) hsent hacc

theorem ib_connect_linked {info : Metadata} (houtcome : v.side.outcome = none)
    (hstate : v.side.state = .connecting) (hcomm : connectSent i = some (v.side.comm, info))
    (hreceives : Receives v.side .staging metadataLayout.size
      ((toConnectStream i).drop devListLayout.size))
    (hout : Flow (toAcceptStream i) (devListLayout.size + metadataLayout.size) peerGot v.out)
    (hin : Flow (toConnectStream i) peerSent (devListLayout.size + v.side.offset) v.inp) :
    ConnectCalled i e peerGot peerSent (ib_connect i e v) := by
  refine recvMessage_spec hreceives hin
    (fun offset bytes inp hlen hlt hdrained hheld hflow =>
      ⟨?_, .waiting houtcome fun he => ?_⟩)
    (fun bytes inp hlen hheld hflow => ?_)
  · exact ⟨_, _, .metaIn houtcome hstate hcomm ⟨hheld, hlt, hlen ▸ hreceives.room⟩, hout, hflow⟩
  · exact Or.inr ⟨houtcome, congrArg receives hstate, hdrained (he.moves .metaIn)⟩
  · obtain ⟨r, info', hacc⟩ := acceptSent_of_flow hflow metadata_pos
    -- The metadata of the peer has come whole.
    have hmsg : metadataLayout.decode (bytes.take metadataLayout.size) =
        copy metadataLayout info' := by
      unfold copy
      rw [hheld, toConnectStream_metadata hacc, ← metadataLayout.length_encode info',
        List.take_left]
    have hdone : connectDone i =
        connectMetadata i (copy metadataLayout info') v.side.comm := connectDone_eq hcomm hacc
    simp only [Side.store]
    rw [hmsg]
    split
    · rename_i hnone
      exact connect_fail (Nat.le_refl _) hout hflow fun he => hdone.trans (he.none hnone)
    · rename_i s hs
      obtain ⟨-, hs⟩ := Option.ite_none_right_eq_some.mp hs
      exact ib_send_ready_linked houtcome rfl hcomm (hdone.trans hs)
        (sends_enter List.take_length (encode_pos (by decide) 1)) hout hflow

theorem ib_send_linked {info : Metadata} (houtcome : v.side.outcome = none)
    (hstate : v.side.state = .send) (hcomm : connectSent i = some (v.side.comm, info))
    (hroom : metadataLayout.size ≤ v.side.buffer.length)
    (hsends : Sends v.side .staging (metadataLayout.encode info))
    (hout : Flow (toAcceptStream i) (devListLayout.size + v.side.offset) peerGot v.out)
    (hin : Flow (toConnectStream i) peerSent devListLayout.size v.inp) :
    ConnectCalled i e peerGot peerSent (ib_send i e v) := by
  refine sendMessage_spec hsends (metadataLayout.length_encode info)
    (toAcceptStream_metadata hcomm) hout
    (fun offset out hlt hshort hflow => ⟨?_, .waiting houtcome fun he => ?_⟩) (fun out hflow => ?_)
  · refine ⟨_, _, .metaOut houtcome hstate hcomm hroom ⟨hsends.held, ?_⟩, hflow, hin⟩
    rw [metadataLayout.length_encode]
    exact hlt
  · exact absurd (he.moves .metaOut) (Nat.not_le.mpr hshort)
  · refine ib_connect_linked houtcome rfl hcomm (receives_enter metadata_pos ?_) hflow hin
    exact le_of_eq List.length_replicate.symm

theorem connectSent_eq {dev : Nat} {s : SenderComm} {r : ReceiverComm} {list list' : DevList}
    (hdev : connectingDev i = some dev) (hlist : connectListed i = some (s, list))
    (hacc : acceptListed i = some (r, list')) :
    connectSent i = connectDevList i dev (copy devListLayout list') s := by
  unfold connectSent
  rw [hdev]
  exact both_halves (fun d a => connectDevList i dev (copy devListLayout d) a) hlist hacc

theorem connectDone_none (h : connectSent i = none) : connectDone i = none := by
  unfold connectDone
  rw [h]
  rfl

theorem ib_recv_dev_list_linked {dev : Nat} {list : DevList} (hdev : connectingDev i = some dev)
    (houtcome : v.side.outcome = none) (hstate : v.side.state = .recvDevList)
    (hcomm : connectListed i = some (v.side.comm, list))
    (hroom : metadataLayout.size ≤ v.side.buffer.length)
    (hreceives : Receives v.side .staging devListLayout.size ((toConnectStream i).drop 0))
    (hout : Flow (toAcceptStream i) devListLayout.size peerGot v.out)
    (hin : Flow (toConnectStream i) peerSent (0 + v.side.offset) v.inp) :
    ConnectCalled i e peerGot peerSent (ib_recv_dev_list i dev e v) := by
  refine recvMessage_spec hreceives hin
    (fun offset bytes inp hlen hlt hdrained hheld hflow =>
      ⟨?_, .waiting houtcome fun he => ?_⟩)
    (fun bytes inp hlen hheld hflow => ?_)
  · exact ⟨_, _, .devListIn houtcome hstate hcomm (hlen ▸ hroom)
      ⟨hheld, hlt, hlen ▸ hreceives.room⟩, hout, hflow⟩
  · exact Or.inr ⟨houtcome, congrArg receives hstate, hdrained (he.devList .devListIn)⟩
  · rw [Nat.zero_add] at hflow
    obtain ⟨r, list', hacc⟩ := acceptListed_of_flow hflow devList_pos
    have hmsg : devListLayout.decode (bytes.take devListLayout.size) =
        copy devListLayout list' := by
      obtain ⟨rest, hrest⟩ := toConnectStream_list hacc
      rw [hheld, hrest, ← devListLayout.length_encode list', List.take_left]
      rfl
    have hsent : connectSent i = connectDevList i dev (copy devListLayout list') v.side.comm :=
      connectSent_eq hdev hcomm hacc
    simp only [Side.store]
    rw [hmsg]
    split
    · rename_i hnone
      exact connect_fail (Nat.le_add_right _ _) hout hflow fun he =>
        connectDone_none (hsent.trans (he.none hnone))
    · rename_i s info hs
      obtain ⟨-, hs⟩ := Option.ite_none_right_eq_some.mp hs
      have hbuffer : metadataLayout.size ≤ bytes.length := hlen ▸ hroom
      obtain ⟨htake, hsame⟩ := staged metadataLayout info hbuffer
      exact ib_send_linked houtcome rfl (hsent.trans hs) (hsame ▸ hbuffer)
        (sends_enter htake (encode_pos metadata_pos info)) hout hflow

theorem ib_send_dev_list_linked {dev : Nat} {list : DevList} (hdev : connectingDev i = some dev)
    (houtcome : v.side.outcome = none) (hstate : v.side.state = .sendDevList)
    (hcomm : connectListed i = some (v.side.comm, list))
    (hroom : metadataLayout.size ≤ v.side.buffer.length)
    (hsends : Sends v.side .staging (devListLayout.encode list))
    (hout : Flow (toAcceptStream i) (0 + v.side.offset) peerGot v.out)
    (hin : Flow (toConnectStream i) peerSent 0 v.inp) :
    ConnectCalled i e peerGot peerSent (ib_send_dev_list i dev e v) := by
  obtain ⟨rest, hrest⟩ := toAcceptStream_list hcomm
  refine sendMessage_spec hsends (devListLayout.length_encode list) hrest hout
    (fun offset out hlt hshort hflow => ⟨?_, .waiting houtcome fun he => ?_⟩) (fun out hflow => ?_)
  · refine ⟨_, _, .devListOut houtcome hstate hcomm hroom ⟨hsends.held, ?_⟩, hflow, hin⟩
    rw [devListLayout.length_encode]
    exact hlt
  · exact absurd (he.devList .devListOut) (Nat.not_le.mpr hshort)
  · rw [Nat.zero_add] at hflow
    exact ib_recv_dev_list_linked hdev houtcome rfl hcomm hroom
      (receives_enter devList_pos (Nat.le_trans devList_le hroom)) hflow hin

theorem ib_connect_check_linked {dev : Nat} (hdev : connectingDev i = some dev)
    (houtcome : v.side.outcome = none) (hstate : v.side.state = .connect)
    (hcomm : v.side.comm = i.send) (hout : Flow (toAcceptStream i) 0 peerGot v.out)
    (hin : Flow (toConnectStream i) peerSent 0 v.inp) :
    ConnectCalled i e peerGot peerSent (ib_connect_check i dev e v) := by
  have hlisted : connectListed i = connectStart i dev v.side.comm := by
    unfold connectListed
    rw [hdev, hcomm]
    rfl
  unfold ib_connect_check
  split
  · rename_i hconnected
    refine ⟨⟨0, 0, .socket houtcome hstate hcomm, hout, hin⟩, .waiting houtcome fun he => ?_⟩
    rw [he.connected] at hconnected
    cases hconnected
  split
  · rename_i hnone
    exact connect_fail (Nat.zero_le _) hout hin fun he =>
      connect_unlisted (hlisted.trans (he.none hnone))
  · rename_i s list hs
    obtain ⟨-, hs⟩ := Option.ite_none_right_eq_some.mp hs
    have hroom : metadataLayout.size ≤
        (List.replicate metadataLayout.size (0 : Byte)).length :=
      le_of_eq List.length_replicate.symm
    obtain ⟨htake, hsame⟩ := staged devListLayout list (Nat.le_trans devList_le hroom)
    exact ib_send_dev_list_linked hdev houtcome rfl (hlisted.trans hs)
      (hsame ▸ hroom) (sends_enter htake (encode_pos devList_pos _)) hout hin

end connect

/-- A call of the connecting side, wherever it is. -/
theorem connect_call (houtcome : v.side.outcome = none) (h : ConnectLinked i peerGot peerSent v) :
    ConnectCalled i e peerGot peerSent (ncclIbConnectImpl i e v) := by
  obtain ⟨sent, got, hat, hout, hin⟩ := h
  unfold ncclIbConnectImpl
  cases hdev : connectingDev i with
  | none =>
    -- Then no call has sent anything.
    have hlisted : connectListed i = none := by
      unfold connectListed
      rw [hdev]
      rfl
    exact connect_fail (hat.unlisted hlisted houtcome) hout hin fun _ => connect_unlisted hlisted
  | some dev =>
    cases hat with
    | failed hfailed =>
      rw [houtcome] at hfailed
      cases hfailed
    | returned hreturned =>
      rw [houtcome] at hreturned
      cases hreturned
    | idle _ hstate =>
      simp only [hstate]
      exact connect.ib_connect_check_linked hdev houtcome rfl rfl hout hin
    | socket _ hstate hcomm =>
      simp only [hstate]
      exact connect.ib_connect_check_linked hdev houtcome hstate hcomm hout hin
    | devListOut _ hstate hcomm hroom hsends =>
      simp only [hstate]
      exact connect.ib_send_dev_list_linked hdev houtcome hstate hcomm hroom hsends hout hin
    | devListIn _ hstate hcomm hroom hreceives =>
      simp only [hstate]
      exact connect.ib_recv_dev_list_linked hdev houtcome hstate hcomm hroom hreceives hout hin
    | metaOut _ hstate hcomm hroom hsends =>
      simp only [hstate]
      exact connect.ib_send_linked houtcome hstate hcomm hroom hsends hout hin
    | metaIn _ hstate hcomm hreceives =>
      simp only [hstate]
      exact connect.ib_connect_linked houtcome hstate hcomm hreceives hout hin
    | readyOut _ hstate hsent hcomm hsends =>
      simp only [hstate]
      exact connect.ib_send_ready_linked houtcome hstate hsent hcomm hsends hout hin

end

/-! ## The accepting side -/

/-- The accepting side when it has called for its comm and not returned it. -/
structure AcceptOpen (x : Side ReceiverComm) (state : NcclIbCommState) : Prop where
  outcome : x.outcome = none
  state : x.state = state
  ready : 4 ≤ x.ready.length

/-- Where the accepting side is when it has sent `sent` bytes and received `got`. -/
inductive AcceptAt (i : WireInput) (x : Side ReceiverComm) : Nat → Nat → Prop
  | failed {sent got : Nat} (houtcome : x.outcome = some false) : AcceptAt i x sent got
  | idle (houtcome : x.outcome = none) (hstate : x.state = .start) : AcceptAt i x 0 0
  | socket (hopen : AcceptOpen x .accept) (hcomm : x.comm = i.recv)
    (hroom : metadataLayout.size ≤ x.buffer.length) : AcceptAt i x 0 0
  | devListIn (hopen : AcceptOpen x .recvDevList) (hcomm : x.comm = i.recv)
    (hroom : metadataLayout.size ≤ x.buffer.length)
    (hreceives : Receives x .staging devListLayout.size ((toAcceptStream i).drop 0)) :
    AcceptAt i x 0 (0 + x.offset)
  | devListOut {list : DevList} (hopen : AcceptOpen x .sendDevList)
    (hcomm : acceptListed i = some (x.comm, list)) (hroom : metadataLayout.size ≤ x.buffer.length)
    (hsends : Sends x .staging (devListLayout.encode list)) :
    AcceptAt i x (0 + x.offset) devListLayout.size
  | metaIn {list : DevList} (hopen : AcceptOpen x .recv)
    (hcomm : acceptListed i = some (x.comm, list))
    (hreceives : Receives x .staging metadataLayout.size
      ((toAcceptStream i).drop devListLayout.size)) :
    AcceptAt i x devListLayout.size (devListLayout.size + x.offset)
  | metaOut {info : Metadata} (hopen : AcceptOpen x .send)
    (hcomm : acceptSent i = some (x.comm, info))
    (hsends : Sends x .staging (metadataLayout.encode info)) :
    AcceptAt i x (devListLayout.size + x.offset) (devListLayout.size + metadataLayout.size)
  | readyIn {info : Metadata} (hopen : AcceptOpen x .pendingReady)
    (hcomm : acceptSent i = some (x.comm, info))
    (hreceives : Receives x .ready 4
      ((toAcceptStream i).drop (devListLayout.size + metadataLayout.size))) :
    AcceptAt i x (devListLayout.size + metadataLayout.size)
      (devListLayout.size + metadataLayout.size + x.offset)
  | returned {r : ReceiverComm} {info : Metadata} (houtcome : x.outcome = some true)
    (hsent : acceptSent i = some (r, info)) (hcomm : x.comm = acceptReady true r) :
    AcceptAt i x (devListLayout.size + metadataLayout.size)
      (devListLayout.size + metadataLayout.size + 4)

def AcceptLinked (i : WireInput) (peerGot peerSent : Nat) (v : View ReceiverComm) : Prop :=
  ∃ sent got, AcceptAt i v.side sent got ∧ Flow (toConnectStream i) sent peerGot v.out ∧
    Flow (toAcceptStream i) peerSent got v.inp

def AcceptCalled (i : WireInput) (e : CallEnv) (peerGot peerSent : Nat) (v : View ReceiverComm) :
    Prop :=
  AcceptLinked i peerGot peerSent v ∧ Ends e (acceptSent i).isSome v.side v.inp

section
variable {peerGot peerSent : Nat} {v : View ReceiverComm}

theorem accept_fail {sent got : Nat} (hout : Flow (toConnectStream i) sent peerGot v.out)
    (hin : Flow (toAcceptStream i) peerSent got v.inp)
    (hnone : Granted e → acceptSent i = none) : AcceptCalled i e peerGot peerSent v.fail :=
  ⟨⟨sent, got, .failed rfl, hout, hin⟩, .failed fun he => by rw [hnone he]; rfl⟩

namespace accept

theorem ib_recv_ready_linked {info : Metadata} (hopen : AcceptOpen v.side .pendingReady)
    (hcomm : acceptSent i = some (v.side.comm, info))
    (hreceives : Receives v.side .ready 4
      ((toAcceptStream i).drop (devListLayout.size + metadataLayout.size)))
    (hout : Flow (toConnectStream i) (devListLayout.size + metadataLayout.size) peerGot v.out)
    (hin : Flow (toAcceptStream i) peerSent
      (devListLayout.size + metadataLayout.size + v.side.offset) v.inp) :
    AcceptCalled i e peerGot peerSent (ib_recv_ready e v) := by
  refine recvMessage_spec hreceives hin
    (fun offset bytes inp hlen hlt hdrained hheld hflow =>
      ⟨?_, .waiting hopen.outcome fun he => ?_⟩)
    (fun bytes inp hlen hheld hflow => ⟨?_, .returned rfl⟩)
  · exact ⟨_, _, .readyIn ⟨hopen.outcome, hopen.state, hlen ▸ hopen.ready⟩ hcomm
      ⟨hheld, hlt, hlen ▸ hreceives.room⟩, hout, hflow⟩
  · exact Or.inr ⟨hopen.outcome, congrArg receives hopen.state,
      hdrained (Nat.le_trans ready_le (he.moves .ready))⟩
  · obtain ⟨s, info', hsent⟩ := connectSent_of_flow (n := metadataLayout.size + 4)
      (by rw [← Nat.add_assoc]; exact hflow) (Nat.succ_pos _)
    -- The peer sends that it is ready, and nothing else, at this place.
    have hready : (word 4).decode bytes = 1 := by
      rw [toAcceptStream_ready hsent, List.append_nil] at hheld
      change wordValue (bytes.take 4) = 1
      rw [hheld]
      rfl
    have hne : decide ((word 4).decode bytes ≠ 0) = true := by
      rw [hready]
      rfl
    refine ⟨_, _, .returned rfl hcomm ?_, hout, hflow⟩
    exact congrArg (acceptReady · v.side.comm) hne

theorem ib_send_linked {info : Metadata} (hopen : AcceptOpen v.side .send)
    (hcomm : acceptSent i = some (v.side.comm, info))
    (hsends : Sends v.side .staging (metadataLayout.encode info))
    (hout : Flow (toConnectStream i) (devListLayout.size + v.side.offset) peerGot v.out)
    (hin : Flow (toAcceptStream i) peerSent (devListLayout.size + metadataLayout.size) v.inp) :
    AcceptCalled i e peerGot peerSent (ib_send e v) := by
  refine sendMessage_spec hsends (metadataLayout.length_encode info)
    (toConnectStream_metadata hcomm) hout
    (fun offset out hlt hshort hflow => ⟨?_, .waiting hopen.outcome fun he => ?_⟩) (fun out hflow => ?_)
  · refine ⟨_, _, .metaOut ⟨hopen.outcome, hopen.state, hopen.ready⟩ hcomm
      ⟨hsends.held, ?_⟩, hflow, hin⟩
    rw [metadataLayout.length_encode]
    exact hlt
  · exact absurd (he.moves .metaOut) (Nat.not_le.mpr hshort)
  · exact ib_recv_ready_linked ⟨hopen.outcome, rfl, hopen.ready⟩ hcomm
      (receives_enter (by decide) hopen.ready) hflow hin

theorem acceptSent_eq {s : SenderComm} {r : ReceiverComm} {list : DevList} {info : Metadata}
    (hlist : acceptListed i = some (r, list)) (hsent : connectSent i = some (s, info)) :
    acceptSent i = acceptMetadata i (copy metadataLayout info) r := by
  unfold acceptSent
  exact connect.both_halves (fun d a => acceptMetadata i (copy metadataLayout d) a) hlist hsent

theorem acceptSent_none (h : acceptListed i = none) : acceptSent i = none := by
  unfold acceptSent
  rw [h]
  rfl

theorem ib_recv_linked {list : DevList} (hopen : AcceptOpen v.side .recv)
    (hcomm : acceptListed i = some (v.side.comm, list))
    (hreceives : Receives v.side .staging metadataLayout.size
      ((toAcceptStream i).drop devListLayout.size))
    (hout : Flow (toConnectStream i) devListLayout.size peerGot v.out)
    (hin : Flow (toAcceptStream i) peerSent (devListLayout.size + v.side.offset) v.inp) :
    AcceptCalled i e peerGot peerSent (ib_recv i e v) := by
  refine recvMessage_spec hreceives hin
    (fun offset bytes inp hlen hlt hdrained hheld hflow =>
      ⟨?_, .waiting hopen.outcome fun he => ?_⟩)
    (fun bytes inp hlen hheld hflow => ?_)
  · exact ⟨_, _, .metaIn ⟨hopen.outcome, hopen.state, hopen.ready⟩ hcomm
      ⟨hheld, hlt, hlen ▸ hreceives.room⟩, hout, hflow⟩
  · exact Or.inr ⟨hopen.outcome, congrArg receives hopen.state, hdrained (he.moves .metaIn)⟩
  · obtain ⟨s, info', hsent⟩ := connectSent_of_flow hflow metadata_pos
    have hmsg : metadataLayout.decode (bytes.take metadataLayout.size) =
        copy metadataLayout info' := by
      rw [hheld, toAcceptStream_metadata hsent, ← metadataLayout.length_encode info',
        List.take_left]
      rfl
    have hdone : acceptSent i = acceptMetadata i (copy metadataLayout info') v.side.comm :=
      acceptSent_eq hcomm hsent
    simp only [Side.store]
    rw [hmsg]
    split
    · rename_i hnone
      exact accept_fail hout hflow fun he => hdone.trans (he.none hnone)
    · rename_i r info hr
      obtain ⟨-, hr⟩ := Option.ite_none_right_eq_some.mp hr
      exact ib_send_linked ⟨hopen.outcome, rfl, hopen.ready⟩ (hdone.trans hr)
        (sends_enter List.take_length (encode_pos metadata_pos info)) hout hflow

theorem ib_send_dev_list_linked {list : DevList} (hopen : AcceptOpen v.side .sendDevList)
    (hcomm : acceptListed i = some (v.side.comm, list))
    (hroom : metadataLayout.size ≤ v.side.buffer.length)
    (hsends : Sends v.side .staging (devListLayout.encode list))
    (hout : Flow (toConnectStream i) (0 + v.side.offset) peerGot v.out)
    (hin : Flow (toAcceptStream i) peerSent devListLayout.size v.inp) :
    AcceptCalled i e peerGot peerSent (ib_send_dev_list i e v) := by
  obtain ⟨rest, hrest⟩ := toConnectStream_list hcomm
  refine sendMessage_spec hsends (devListLayout.length_encode list) hrest hout
    (fun offset out hlt hshort hflow => ⟨?_, .waiting hopen.outcome fun he => ?_⟩) (fun out hflow => ?_)
  · refine ⟨_, _, .devListOut ⟨hopen.outcome, hopen.state, hopen.ready⟩ hcomm hroom
      ⟨hsends.held, ?_⟩, hflow, hin⟩
    rw [devListLayout.length_encode]
    exact hlt
  · exact absurd (he.devList .devListOut) (Nat.not_le.mpr hshort)
  · rw [Nat.zero_add] at hflow
    exact ib_recv_linked ⟨hopen.outcome, rfl, hopen.ready⟩ hcomm
      (receives_enter metadata_pos hroom) hflow hin

theorem acceptListed_eq {s : SenderComm} {list : DevList} (h : connectListed i = some (s, list)) :
    acceptListed i = acceptDevList i (copy devListLayout list) i.recv := by
  unfold acceptListed
  rw [h]
  rfl

theorem ib_recv_dev_list_linked (hopen : AcceptOpen v.side .recvDevList)
    (hcomm : v.side.comm = i.recv) (hroom : metadataLayout.size ≤ v.side.buffer.length)
    (hreceives : Receives v.side .staging devListLayout.size ((toAcceptStream i).drop 0))
    (hout : Flow (toConnectStream i) 0 peerGot v.out)
    (hin : Flow (toAcceptStream i) peerSent (0 + v.side.offset) v.inp) :
    AcceptCalled i e peerGot peerSent (ib_recv_dev_list i e v) := by
  refine recvMessage_spec hreceives hin
    (fun offset bytes inp hlen hlt hdrained hheld hflow =>
      ⟨?_, .waiting hopen.outcome fun he => ?_⟩)
    (fun bytes inp hlen hheld hflow => ?_)
  · exact ⟨_, _, .devListIn ⟨hopen.outcome, hopen.state, hopen.ready⟩ hcomm (hlen ▸ hroom)
      ⟨hheld, hlt, hlen ▸ hreceives.room⟩, hout, hflow⟩
  · exact Or.inr ⟨hopen.outcome, congrArg receives hopen.state, hdrained (he.devList .devListIn)⟩
  · rw [Nat.zero_add] at hflow
    obtain ⟨s, list, hlist⟩ := connectListed_of_flow hflow devList_pos
    have hmsg : devListLayout.decode (bytes.take devListLayout.size) =
        copy devListLayout list := by
      obtain ⟨rest, hrest⟩ := toAcceptStream_list hlist
      rw [hheld, hrest, ← devListLayout.length_encode list, List.take_left]
      rfl
    simp only [Side.store]
    rw [hmsg, hcomm]
    split
    · rename_i hnone
      exact accept_fail hout hflow fun he =>
        acceptSent_none ((acceptListed_eq hlist).trans (he.none hnone))
    · rename_i r own hr
      obtain ⟨-, hr⟩ := Option.ite_none_right_eq_some.mp hr
      have hbuffer : metadataLayout.size ≤ bytes.length := hlen ▸ hroom
      obtain ⟨htake, hsame⟩ := staged devListLayout own (Nat.le_trans devList_le hbuffer)
      exact ib_send_dev_list_linked ⟨hopen.outcome, rfl, hopen.ready⟩
        ((acceptListed_eq hlist).trans hr) (hsame ▸ hbuffer)
        (sends_enter htake (encode_pos devList_pos _)) hout hflow

theorem ib_accept_check_linked (hopen : AcceptOpen v.side .accept) (hcomm : v.side.comm = i.recv)
    (hroom : metadataLayout.size ≤ v.side.buffer.length)
    (hout : Flow (toConnectStream i) 0 peerGot v.out)
    (hin : Flow (toAcceptStream i) peerSent 0 v.inp) :
    AcceptCalled i e peerGot peerSent (ib_accept_check i e v) := by
  unfold ib_accept_check
  split
  · rename_i hconnected
    refine ⟨⟨0, 0, .socket hopen hcomm hroom, hout, hin⟩, .waiting hopen.outcome fun he => ?_⟩
    rw [he.connected] at hconnected
    cases hconnected
  split
  · rename_i hok
    refine accept_fail hout hin fun he => ?_
    rw [he] at hok
    cases hok
  · exact ib_recv_dev_list_linked ⟨hopen.outcome, rfl, hopen.ready⟩ hcomm hroom
      (receives_enter devList_pos (Nat.le_trans devList_le hroom)) hout hin

end accept

/-- A call of the accepting side, wherever it is. -/
theorem accept_call (houtcome : v.side.outcome = none) (h : AcceptLinked i peerGot peerSent v) :
    AcceptCalled i e peerGot peerSent (ncclIbAcceptImpl i e v) := by
  obtain ⟨sent, got, hat, hout, hin⟩ := h
  cases hat with
  | failed hfailed =>
    rw [houtcome] at hfailed
    cases hfailed
  | returned hreturned =>
    rw [houtcome] at hreturned
    cases hreturned
  | idle _ hstate =>
    unfold ncclIbAcceptImpl
    rw [hstate]
    exact accept.ib_accept_check_linked ⟨houtcome, rfl, le_of_eq ((word 4).length_encode 0).symm⟩
      rfl (le_of_eq List.length_replicate.symm) hout hin
  | socket hopen hcomm hroom =>
    unfold ncclIbAcceptImpl
    rw [hopen.state]
    exact accept.ib_accept_check_linked hopen hcomm hroom hout hin
  | devListIn hopen hcomm hroom hreceives =>
    unfold ncclIbAcceptImpl
    rw [hopen.state]
    exact accept.ib_recv_dev_list_linked hopen hcomm hroom hreceives hout hin
  | devListOut hopen hcomm hroom hsends =>
    unfold ncclIbAcceptImpl
    rw [hopen.state]
    exact accept.ib_send_dev_list_linked hopen hcomm hroom hsends hout hin
  | metaIn hopen hcomm hreceives =>
    unfold ncclIbAcceptImpl
    rw [hopen.state]
    exact accept.ib_recv_linked hopen hcomm hreceives hout hin
  | metaOut hopen hcomm hsends =>
    unfold ncclIbAcceptImpl
    rw [hopen.state]
    exact accept.ib_send_linked hopen hcomm hsends hout hin
  | readyIn hopen hcomm hreceives =>
    unfold ncclIbAcceptImpl
    rw [hopen.state]
    exact accept.ib_recv_ready_linked hopen hcomm hreceives hout hin

end

end net_ib.wire
