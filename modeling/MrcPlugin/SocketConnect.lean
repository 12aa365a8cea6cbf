-- What a socket that connects does to the network. It sends the magic, the type and then
-- its payload, on one connection. The connections that it had before have carried nothing.
-- What the accepting side knows of its connections holds on while the others go on.
import MrcPlugin.SocketAccept

namespace net_ib.sock

open layouts streams

/-! ## A call of a socket that connects -/

/-- What the connection of a socket has carried, for the state of the socket. -/
def Begun (sock : NcclSocket) (c : Conn) : Prop :=
  match sock.state with
  | .Connected =>
    sock.finalizeCounter < 12 ∧ c.sent = sock.hello.take sock.finalizeCounter ∧ c.payload = []
  | .Ready => c.sent = sock.hello ++ c.payload
  | _ => c.sent = [] ∧ c.payload = []

/-- A part of what a socket has to say is sent. -/
structure Sending (sock : NcclSocket) (c : Conn) (sock' : NcclSocket) (c' : Conn) : Prop where
  socket : ∃ state counter, sock' = { sock with state := state, finalizeCounter := counter }
  phase : sock'.state = .Connected ∨ sock'.state = .Ready
  conn : ∃ bytes payload, c' = { c with sent := c.sent ++ bytes, payload := payload }
  begun : Begun sock' c'

section
variable {e : SockEnv} {sock sock' : NcclSocket} {c c' : Conn} {ret : NcclResult}

/-- A turn of a message of the handshake: the connection has carried more of it. -/
theorem sendProgress_spec {io : Io} {msg base : List Byte} {offset sent : Nat} {closed : Bool}
    (h : sendProgress io msg offset c = .ok (sent, c', closed))
    (hsent : c.sent = base ++ msg.take offset) (hle : offset ≤ msg.length) :
    sent ≤ msg.length ∧ (∃ bytes, c' = { c with sent := c.sent ++ bytes }) ∧
      c'.sent = base ++ msg.take sent ∧ c'.payload = c.payload ∧
      (closed = true → sent = offset ∧ c' = c) := by
  have hstay : ∃ bytes, c = { c with sent := c.sent ++ bytes } :=
    ⟨[], by rw [List.append_nil]⟩
  unfold sendProgress at h
  cases io with
  | failed => cases h
  | again =>
    cases h
    exact ⟨hle, hstay, hsent, rfl, fun _ => ⟨rfl, rfl⟩⟩
  | moves k =>
    simp only at h
    split at h
    · cases h
      exact ⟨hle, hstay, hsent, rfl, fun _ => ⟨rfl, rfl⟩⟩
    · cases h
      refine ⟨outLen_le hle, ⟨_, rfl⟩, ?_, rfl, fun hf => by cases hf⟩
      simp only [outPiece]
      rw [hsent, List.append_assoc, ← List.take_add]

theorem Begun.self (h : Begun sock c) (hstate : sock.state = .Connected) : Sending sock c sock c :=
  ⟨⟨_, _, rfl⟩, .inl hstate, ⟨[], _, by rw [List.append_nil]⟩, h⟩

theorem hello_take_le (sock : NcclSocket) {n : Nat} (hn : n ≤ 8) :
    sock.hello.take n = ((word 8).encode sock.magic).take n := by
  unfold NcclSocket.hello
  exact List.take_append_of_le_length (by rw [(word 8).length_encode]; exact hn)

theorem hello_take_add (sock : NcclSocket) (n : Nat) :
    sock.hello.take (8 + n) = (word 8).encode sock.magic ++ ((word 4).encode sock.type).take n := by
  rw [List.take_add, hello_take, hello_drop]

theorem sendType_spec (hstate : sock.state = .Connected) (hge : 8 ≤ sock.finalizeCounter)
    (hlt : sock.finalizeCounter < 12) (hsent : c.sent = sock.hello.take sock.finalizeCounter)
    (hpayload : c.payload = []) (hcall : sendType e sock c = (sock', c', ret)) :
    Sending sock c sock' c' := by
  have hbegun : Begun sock c := by
    unfold Begun
    rw [hstate]
    exact ⟨hlt, hsent, hpayload⟩
  have hparts : c.sent = (word 8).encode sock.magic ++
      ((word 4).encode sock.type).take (sock.finalizeCounter - 8) := by
    rw [hsent, ← hello_take_add]
    congr 1
    omega
  have hfour : ((word 4).encode sock.type).length = 4 := (word 4).length_encode _
  unfold sendType at hcall
  cases hsend : sendProgress e.second ((word 4).encode sock.type) (sock.finalizeCounter - 8) c with
  | error r =>
    rw [hsend] at hcall
    cases hcall
    exact hbegun.self hstate
  | ok x =>
    obtain ⟨sent, c1, closed⟩ := x
    obtain ⟨hle, ⟨bytes, hbytes⟩, hnow, hkept, hclosed⟩ :=
      sendProgress_spec hsend hparts (by rw [hfour]; omega)
    rw [hfour] at hle
    rw [hsend] at hcall
    simp only at hcall
    split at hcall
    · rename_i hcl
      obtain ⟨-, rfl⟩ := hclosed hcl
      cases hcall
      exact hbegun.self hstate
    · cases hcall
      rw [← hello_take_add] at hnow
      split
      · rename_i hshort
        refine ⟨⟨_, _, rfl⟩, .inl hstate, ⟨bytes, _, hbytes⟩, ?_⟩
        unfold Begun
        simp only [hstate]
        refine ⟨by omega, ?_, hkept.trans hpayload⟩
        rw [hnow, Nat.add_comm]
        rfl
      · refine ⟨⟨_, _, rfl⟩, .inr rfl, ⟨bytes, _, hbytes⟩, ?_⟩
        unfold Begun
        simp only
        rw [hnow, hkept, hpayload, List.append_nil,
          List.take_of_length_le (by rw [hello_length]; omega)]
        rfl

theorem finalizeConnect_spec (hstate : sock.state = .Connected) (hb : Begun sock c)
    (hcall : socketFinalizeConnect e sock c = (sock', c', ret)) : Sending sock c sock' c' := by
  have hparts := hb
  unfold Begun at hparts
  rw [hstate] at hparts
  obtain ⟨hlt, hsent, hpayload⟩ := hparts
  have height : ((word 8).encode sock.magic).length = 8 := (word 8).length_encode _
  unfold socketFinalizeConnect at hcall
  split at hcall
  case isFalse hge => exact sendType_spec hstate (by omega) hlt hsent hpayload hcall
  rename_i hcounter
  have hmagic : c.sent = [] ++ ((word 8).encode sock.magic).take sock.finalizeCounter := by
    rw [hsent, hello_take_le sock (by omega), List.nil_append]
  cases hsend : sendProgress e.first ((word 8).encode sock.magic) sock.finalizeCounter c with
  | error r =>
    rw [hsend] at hcall
    cases hcall
    exact hb.self hstate
  | ok x =>
    obtain ⟨sent, c1, closed⟩ := x
    obtain ⟨hle, ⟨bytes, rfl⟩, hnow, hkept, hclosed⟩ :=
      sendProgress_spec hsend hmagic (by rw [height]; omega)
    rw [height] at hle
    rw [List.nil_append, ← hello_take_le sock hle] at hnow
    rw [hsend] at hcall
    simp only at hcall
    split at hcall
    · rename_i hcl
      obtain ⟨-, hsame⟩ := hclosed hcl
      cases hcall
      rw [hsame]
      exact hb.self hstate
    split at hcall
    · cases hcall
      refine ⟨⟨_, _, rfl⟩, .inl hstate, ⟨bytes, _, rfl⟩, ?_⟩
      unfold Begun
      simp only [hstate]
      exact ⟨by omega, hnow, hpayload⟩
    · rename_i hwhole
      obtain ⟨⟨state, counter, hs⟩, hphase, ⟨more, payload, hmore⟩, hbegun⟩ := sendType_spec
        (show NcclSocket.state { sock with finalizeCounter := sent } = .Connected from hstate)
        (by simp only; omega) (by simp only; omega) hnow hpayload hcall
      refine ⟨⟨state, counter, hs⟩, hphase, ⟨bytes ++ more, payload, ?_⟩, hbegun⟩
      rw [hmore, List.append_assoc]

end

/-! ## What a step does to the connections of others -/

/-- A connection carries more, and is as it was otherwise. -/
structure Carried (c c' : Conn) : Prop where
  owner : c'.owner = c.owner
  got : c'.got = c.got
  dropped : c'.dropped = c.dropped
  sent : ∃ bytes, c'.sent = c.sent ++ bytes
  established : c.established = true → c'.established = true
  gone : c.gone = true → c'.gone = true
  reset : c.reset = true → c'.reset = true

/-- A step of the peers: their connections carry more, new ones are opened, and one may
come to wait for an `accept`. -/
structure Grows (net net' : Net) : Prop where
  next : net.next ≤ net'.next
  conns : ∀ p, Carried (net.conns p) (net'.conns p) ∨
    net.next ≤ p ∧ ∃ owner, net'.conns p = Conn.opened owner
  pending : net'.pending = net.pending ∨ ∃ p < net.next, (net.conns p).established = false ∧
    (net'.conns p).established = true ∧ net'.pending = net.pending ++ [p]

/-- A step that leaves alone what socket `k` has opened and sent. -/
structure Keeps (k : Nat) (net net' : Net) : Prop where
  next : net.next ≤ net'.next
  owner : ∀ p < net.next, (net'.conns p).owner = (net.conns p).owner
  fresh : ∀ p, net.next ≤ p → p < net'.next → (net'.conns p).owner ≠ some k
  same : ∀ p < net.next, (net.conns p).owner = some k →
    (net'.conns p).sent = (net.conns p).sent ∧ (net'.conns p).payload = (net.conns p).payload

/-- What a socket that connects has done, on the connection that it has and on those that
it had before. -/
structure ConnectOk (j : Nat) (net : Net) (sock : NcclSocket) : Prop where
  typed : sock.Typed
  counter : sock.state = .Connecting ∨ sock.state = .ConnectPolling → sock.finalizeCounter = 0
  own : ∀ p, sock.socketDescriptor = some p →
    p < net.next ∧ (net.conns p).owner = some j ∧ Begun sock (net.conns p)
  left : ∀ p < net.next, (net.conns p).owner = some j → sock.socketDescriptor ≠ some p →
    (net.conns p).sent = [] ∧ (net.conns p).payload = []

theorem Carried.refl (c : Conn) : Carried c c :=
  ⟨rfl, rfl, rfl, ⟨[], by rw [List.append_nil]⟩, id, id, id⟩

theorem Carried.take {c c' : Conn} (h : Carried c c') {n : Nat} (hn : n ≤ c.sent.length) :
    c'.sent.take n = c.sent.take n := by
  obtain ⟨bytes, hsent⟩ := h.sent
  rw [hsent, List.take_append_of_le_length hn]

theorem Carried.length {c c' : Conn} (h : Carried c c') : c.sent.length ≤ c'.sent.length := by
  obtain ⟨bytes, hsent⟩ := h.sent
  rw [hsent, List.length_append]
  exact Nat.le_add_right _ _

/-- A bad connection stays bad. -/
theorem Carried.bad {sock : NcclSocket} {c c' : Conn} (h : Carried c c') (hbad : Bad sock c) :
    Bad sock c' := by
  rcases hbad with hgone | hreset | ⟨n, hn, hle, hne⟩
  · exact .inl (h.gone hgone)
  · exact .inr (.inl (h.reset hreset))
  · refine .inr (.inr ⟨n, hn, Nat.le_trans hle h.length, ?_⟩)
    rw [h.take hle]
    exact hne

/-- More bytes behind those that are received do not change what is received. -/
theorem Carried.held {sock : NcclSocket} {c c' : Conn} (h : Carried c c') (hheld : Held sock c) :
    Held sock c' := by
  have hgot := hheld.got
  have hle := hheld.le
  refine
    { state := hheld.state
      length := hheld.length
      got := h.got.trans hgot
      lt := hheld.lt
      le := by rw [h.got]; exact Nat.le_trans hle h.length
      first := fun hlt => ?_
      magic := fun hge => ?_
      second := fun hge => ?_ }
  · rw [h.take (by omega)]
    exact hheld.first hlt
  · rw [h.take (by omega)]
    exact hheld.magic hge
  · have hsame : (c'.sent.drop 8).take (sock.finalizeCounter - 8) =
        (c.sent.drop 8).take (sock.finalizeCounter - 8) := by
      rw [← List.drop_take, ← List.drop_take, h.take (by omega)]
    rw [hsame]
    exact hheld.second hge

theorem Carried.welcome {sock : NcclSocket} {c c' : Conn} (h : Carried c c')
    (hw : Welcome sock c) : Welcome sock c' := by
  refine ⟨hw.state, h.got.trans hw.got, Nat.le_trans hw.le h.length, ?_⟩
  rw [h.take hw.le]
  exact hw.hello

section
variable {listenSock sock : NcclSocket} {net net' : Net}

theorem Grows.refl (net : Net) : Grows net net :=
  ⟨Nat.le_refl _, fun _ => .inl (Carried.refl _), .inl rfl⟩

/-- A connection that is there is not opened once more. -/
theorem Grows.carried (h : Grows net net') {p : Nat} (hp : p < net.next) :
    Carried (net.conns p) (net'.conns p) :=
  (h.conns p).resolve_right fun hnew => absurd hnew.1 (Nat.not_le.mpr hp)

theorem NetOk.grows (hn : NetOk listenSock net) (h : Grows net net') : NetOk listenSock net' := by
  have hpending : ∀ p ∈ net.pending, p < net'.next ∧ (net'.conns p).established = true ∧
      (net'.conns p).got = 0 ∧ (net'.conns p).dropped = false := by
    intro p hp
    obtain ⟨hlt, hest, hgot, hkept⟩ := hn.pending p hp
    have hc := h.carried hlt
    exact ⟨Nat.lt_of_lt_of_le hlt h.next, hc.established hest, hc.got.trans hgot,
      hc.dropped.trans hkept⟩
  refine ⟨fun p => ?_, fun p hp => ?_, ?_, fun p hp => ?_, fun p hp => ?_⟩
  · rcases h.conns p with hc | ⟨-, owner, hnew⟩
    · rw [hc.got]
      exact Nat.le_trans (hn.counted p) hc.length
    · rw [hnew]
      exact Nat.zero_le _
  · rcases h.pending with hsame | ⟨q, hq, hold, hnow, hadd⟩
    · rw [hsame] at hp
      exact hpending p hp
    · rw [hadd, List.mem_append, List.mem_singleton] at hp
      rcases hp with hp | rfl
      · exact hpending p hp
      · obtain ⟨hgot, hkept⟩ := hn.waiting p hold
        have hc := h.carried hq
        exact ⟨Nat.lt_of_lt_of_le hq h.next, hnow, hc.got.trans hgot, hc.dropped.trans hkept⟩
  · rcases h.pending with hsame | ⟨q, hq, hold, hnow, hadd⟩
    · rw [hsame]
      exact hn.nodup
    · rw [hadd]
      refine List.nodup_append.mpr ⟨hn.nodup, List.nodup_singleton q, fun p hp r hr => ?_⟩
      rw [List.mem_singleton] at hr
      rintro rfl
      rw [hr] at hp
      rw [(hn.pending q hp).2.1] at hold
      cases hold
  · rcases h.conns p with hc | ⟨-, owner, hnew⟩
    · have hold : (net.conns p).established = false := by
        by_contra hne
        rw [Bool.not_eq_false] at hne
        rw [hc.established hne] at hp
        cases hp
      obtain ⟨hgot, hkept⟩ := hn.waiting p hold
      exact ⟨hc.got.trans hgot, hc.dropped.trans hkept⟩
    · rw [hnew]
      exact ⟨rfl, rfl⟩
  · rcases h.conns p with hc | ⟨-, owner, hnew⟩
    · rw [hc.dropped] at hp
      obtain ⟨hlt, hbad⟩ := hn.bad p hp
      exact ⟨Nat.lt_of_lt_of_le hlt h.next, hc.bad hbad⟩
    · rw [hnew] at hp
      cases hp

theorem Taken.grows {p : Nat} (ht : Taken net p) (h : Grows net net') : Taken net' p := by
  have hc := h.carried ht.lt
  refine ⟨Nat.lt_of_lt_of_le ht.lt h.next, hc.established ht.established,
    hc.dropped.trans ht.kept, ?_⟩
  rcases h.pending with hsame | ⟨q, hq, hold, hnow, hadd⟩
  · rw [hsame]
    exact ht.gone
  · rw [hadd, List.mem_append, List.mem_singleton]
    rintro (hp | rfl)
    · exact ht.gone hp
    · rw [ht.established] at hold
      cases hold

theorem AcceptOk.grows (hs : AcceptOk listenSock net sock) (h : Grows net net') :
    AcceptOk listenSock net' sock := by
  refine ⟨hs.magic, hs.type, hs.length, ?_⟩
  rcases hs.phase with hwait | ⟨p, hdesc, htaken, hheld | hwelcome⟩
  · exact .inl hwait
  · exact .inr ⟨p, hdesc, htaken.grows h, .inl ((h.carried htaken.lt).held hheld)⟩
  · exact .inr ⟨p, hdesc, htaken.grows h, .inr ((h.carried htaken.lt).welcome hwelcome)⟩

/-! ## What a socket knows of its connections -/

theorem Keeps.of_peers (h : SamePeers net net') (k : Nat) : Keeps k net net' := by
  refine ⟨le_of_eq h.next.symm, fun p _ => ?_, fun p hge hlt => ?_, fun p _ _ => ?_⟩
  · obtain ⟨got, dropped, hc⟩ := h.conns p
    rw [hc]
  · rw [h.next] at hlt
    omega
  · obtain ⟨got, dropped, hc⟩ := h.conns p
    rw [hc]
    exact ⟨rfl, rfl⟩

/-- What has been sent decides. -/
theorem Begun.of_sent {c c' : Conn} (hb : Begun sock c) (hsent : c'.sent = c.sent)
    (hpayload : c'.payload = c.payload) : Begun sock c' := by
  unfold Begun at hb ⊢
  rw [hsent, hpayload]
  exact hb

theorem ConnectOk.keeps {k : Nat} (hc : ConnectOk k net sock) (h : Keeps k net net') :
    ConnectOk k net' sock := by
  refine ⟨hc.typed, hc.counter, fun p hdesc => ?_, fun p hp howner hdesc => ?_⟩
  · obtain ⟨hlt, howner, hbegun⟩ := hc.own p hdesc
    obtain ⟨hsent, hpayload⟩ := h.same p hlt howner
    exact ⟨Nat.lt_of_lt_of_le hlt h.next, (h.owner p hlt).trans howner,
      hbegun.of_sent hsent hpayload⟩
  · by_cases hlt : p < net.next
    · rw [h.owner p hlt] at howner
      obtain ⟨hsent, hpayload⟩ := h.same p hlt howner
      rw [hsent, hpayload]
      exact hc.left p hlt howner hdesc
    · exact absurd howner (h.fresh p (Nat.le_of_not_lt hlt) hp)

end

/-! ## A call of a socket that connects, with its connections -/

/-- A step of socket `j`. -/
structure Own (j : Nat) (net net' : Net) : Prop where
  grows : Grows net net'
  others : ∀ k, k ≠ j → Keeps k net net'

/-- Nothing is sent yet. -/
structure Idle (j : Nat) (net : Net) (sock : NcclSocket) : Prop where
  own : ∀ p, sock.socketDescriptor = some p → p < net.next ∧ (net.conns p).owner = some j
  quiet : ∀ p < net.next, (net.conns p).owner = some j →
    (net.conns p).sent = [] ∧ (net.conns p).payload = []

section
variable {e : SockEnv} {j : Nat} {sock sock' : NcclSocket} {net net' : Net} {ret : NcclResult}

theorem Keeps.refl (k : Nat) (net : Net) : Keeps k net net :=
  ⟨Nat.le_refl _, fun _ _ => rfl, fun _ hge hlt => absurd hlt (Nat.not_lt.mpr hge),
    fun _ _ _ => ⟨rfl, rfl⟩⟩

theorem Own.refl (j : Nat) (net : Net) : Own j net net :=
  ⟨Grows.refl net, fun k _ => Keeps.refl k net⟩

theorem ConnectOk.idle (hc : ConnectOk j net sock) (hconn : sock.state ≠ .Connected)
    (hready : sock.state ≠ .Ready) : Idle j net sock := by
  refine ⟨fun p hdesc => ⟨(hc.own p hdesc).1, (hc.own p hdesc).2.1⟩, fun p hp howner => ?_⟩
  by_cases hdesc : sock.socketDescriptor = some p
  · have hbegun := (hc.own p hdesc).2.2
    unfold Begun at hbegun
    split at hbegun
    · contradiction
    · contradiction
    · exact hbegun
  · exact hc.left p hp howner hdesc

theorem Idle.ok (hi : Idle j net sock) (ht : sock.Typed) (hready : sock.state ≠ .Ready)
    (hcounter : sock.state = .Connecting ∨ sock.state = .ConnectPolling ∨ sock.state = .Connected →
      sock.finalizeCounter = 0) : ConnectOk j net sock := by
  refine ⟨ht, fun h => hcounter (h.imp_right .inl), fun p hdesc => ?_,
    fun p hp howner _ => hi.quiet p hp howner⟩
  obtain ⟨hlt, howner⟩ := hi.own p hdesc
  obtain ⟨hsent, hpayload⟩ := hi.quiet p hlt howner
  refine ⟨hlt, howner, ?_⟩
  unfold Begun
  split
  · rename_i hstate
    have hzero := hcounter (.inr (.inr hstate))
    rw [hzero, List.take_zero]
    exact ⟨by decide, hsent, hpayload⟩
  · contradiction
  · exact ⟨hsent, hpayload⟩

/-- A new connection of socket `j`. -/
theorem own_opens (j : Nat) (net : Net) :
    Own j net
      { net with
        conns := Function.update net.conns net.next (Conn.opened (some j))
        next := net.next + 1 } := by
  have hold : ∀ p < net.next,
      Function.update net.conns net.next (Conn.opened (some j)) p = net.conns p :=
    fun p hp => Function.update_of_ne (Nat.ne_of_lt hp) ..
  refine ⟨⟨Nat.le_succ _, fun p => ?_, .inl rfl⟩, fun k hk => ?_⟩
  · by_cases hp : p = net.next
    · exact .inr ⟨le_of_eq hp.symm, some j, by rw [hp]; exact Function.update_self ..⟩
    · have hsame : Function.update net.conns net.next (Conn.opened (some j)) p = net.conns p :=
        Function.update_of_ne hp ..
      simp only [hsame]
      exact .inl (Carried.refl _)
  · refine ⟨Nat.le_succ _, fun p hp => ?_, fun p hge hlt => ?_, fun p hp _ => ?_⟩
    · simp only [hold p hp]
    · obtain rfl : p = net.next := Nat.le_antisymm (Nat.le_of_lt_succ hlt) hge
      simp only [Function.update_self]
      intro h
      exact hk (Option.some.inj h).symm
    · simp only [hold p hp, and_self]

/-- The descriptor is the old one or the new one, and nothing is sent on either. -/
theorem resetFd_spec (hi : Idle j net sock)
    (hcall : ncclOsSocketResetFd e j sock net = (sock', net', ret)) :
    Own j net net' ∧ Idle j net' sock' ∧
      ∃ desc, sock' = { sock with socketDescriptor := desc } := by
  unfold ncclOsSocketResetFd at hcall
  split at hcall
  · cases hcall
    exact ⟨Own.refl j net, hi, _, rfl⟩
  · cases hcall
    refine ⟨own_opens j net, ⟨fun p hdesc => ?_, fun p hp howner => ?_⟩, _, rfl⟩
    · obtain rfl := Option.some.inj hdesc
      exact ⟨Nat.lt_succ_self _, by simp only [Function.update_self]; rfl⟩
    · by_cases hnew : p = net.next
      · simp only [hnew, Function.update_self]
        exact ⟨rfl, rfl⟩
      · simp only [Function.update_of_ne hnew] at howner ⊢
        exact hi.quiet p (by simp only at hp; omega) howner

/-- The part of a call of socket `j` that is done. With a connection the network is as it
was, and the descriptor too. -/
structure Turned (j p : Nat) (net net' : Net) (sock' : NcclSocket) : Prop where
  own : Own j net net'
  ok : ConnectOk j net' sock'
  same : sock'.state = .ConnectPolling ∨ sock'.state = .Connected →
    sock'.socketDescriptor = some p ∧ net' = net

theorem connectCheck_spec {p : Nat} {errCode : ConnectResult} (hc : ConnectOk j net sock)
    (hstate : sock.state = .Connecting ∨ sock.state = .ConnectPolling)
    (hdesc : sock.socketDescriptor = some p)
    (hcall : socketConnectCheck e j errCode sock net = (sock', net', ret)) :
    ret ≠ ncclSuccess ∧ Own j net net' ∧ ConnectOk j net' sock' ∨ Turned j p net net' sock' := by
  have hzero := hc.counter hstate
  have hidle : Idle j net sock := hc.idle
    (by rintro h; rw [h] at hstate; rcases hstate with h' | h' <;> cases h')
    (by rintro h; rw [h] at hstate; rcases hstate with h' | h' <;> cases h')
  -- A new state alone sends nothing.
  have hmove : ∀ (state : NcclSocketState) (retries : Nat), state ≠ .Ready →
      ConnectOk j net { sock with state := state, errorRetries := retries } :=
    fun state retries hready => Idle.ok ⟨hidle.own, hidle.quiet⟩ ⟨hc.typed.magic, hc.typed.type⟩
      hready fun _ => hzero
  unfold socketConnectCheck at hcall
  cases errCode with
  | ok =>
    cases hcall
    exact .inr ⟨Own.refl j net, hmove .Connected sock.errorRetries (by decide), fun _ => ⟨hdesc, rfl⟩⟩
  | inProgress =>
    cases hcall
    exact .inr ⟨Own.refl j net, hmove .ConnectPolling sock.errorRetries (by decide),
      fun _ => ⟨hdesc, rfl⟩⟩
  | failed =>
    cases hcall
    exact .inl ⟨by decide, Own.refl j net, hmove .Error sock.errorRetries (by decide)⟩
  | retries =>
    simp only at hcall
    split at hcall
    · cases hcall
      exact .inl ⟨by decide, Own.refl j net, hmove .Error (sock.errorRetries + 1) (by decide)⟩
    · generalize hs : (if sock.customRetry = true then sock
        else { sock with errorRetries := sock.errorRetries + 1 }) = s at hcall
      obtain ⟨retries, rfl⟩ : ∃ retries, s = { sock with errorRetries := retries } := by
        rw [← hs]
        split
        · exact ⟨_, rfl⟩
        · exact ⟨_, rfl⟩
      cases hreset : ncclOsSocketResetFd e j { sock with errorRetries := retries } net with
      | mk s1 x =>
        obtain ⟨net1, r1⟩ := x
        simp only [hreset] at hcall
        have hidle0 : Idle j net { sock with errorRetries := retries } := ⟨hidle.own, hidle.quiet⟩
        obtain ⟨hown, hidle1, desc, rfl⟩ := resetFd_spec hidle0 hreset
        cases hcall
        split
        · refine .inr ⟨hown, Idle.ok ⟨hidle1.own, hidle1.quiet⟩ ⟨hc.typed.magic, hc.typed.type⟩
            (by simp) fun _ => hzero, fun h => ?_⟩
          rcases h with h | h <;> cases h
        · rename_i hne
          refine .inl ⟨hne, hown, hidle1.ok ⟨hc.typed.magic, hc.typed.type⟩ ?_ fun _ => hzero⟩
          simp only
          rcases hstate with h | h <;> rw [h] <;> decide

/-- The magic, the type or a part of them on the connection of socket `j`. -/
theorem own_sends {p : Nat} {c' : Conn} (hc : ConnectOk j net sock)
    (hdesc : sock.socketDescriptor = some p) (hs : Sending sock (net.conns p) sock' c') :
    Own j net (net.setConn p c') ∧ ConnectOk j (net.setConn p c') sock' := by
  obtain ⟨hlt, howner, -⟩ := hc.own p hdesc
  obtain ⟨state, counter, rfl⟩ := hs.socket
  obtain ⟨bytes, payload, rfl⟩ := hs.conn
  have hself : ∀ c : Conn, (net.setConn p c).conns p = c := fun c => Function.update_self ..
  have hother : ∀ (c : Conn) (q : Nat), q ≠ p → (net.setConn p c).conns q = net.conns q :=
    fun c q hq => Function.update_of_ne hq ..
  refine ⟨⟨⟨Nat.le_refl _, fun q => ?_, .inl rfl⟩, fun k hk => ?_⟩, ?_⟩
  · by_cases hq : q = p
    · rw [hq, hself]
      exact .inl ⟨rfl, rfl, rfl, ⟨bytes, rfl⟩, id, id, id⟩
    · rw [hother _ q hq]
      exact .inl (Carried.refl _)
  · refine ⟨Nat.le_refl _, fun q _ => ?_, fun q hge hq => absurd hq (Nat.not_lt.mpr hge),
      fun q _ hk' => ?_⟩
    · by_cases hq : q = p
      · rw [hq, hself]
      · rw [hother _ q hq]
    · have hq : q ≠ p := by
        rintro rfl
        rw [howner] at hk'
        exact hk (Option.some.inj hk').symm
      rw [hother _ q hq]
      exact ⟨rfl, rfl⟩
  · refine ⟨⟨hc.typed.magic, hc.typed.type⟩, fun h => ?_, fun q hq => ?_, fun q hq hq' hne => ?_⟩
    · rcases hs.phase with hp | hp <;> rw [hp] at h <;> rcases h with h | h <;> cases h
    · obtain rfl : p = q := Option.some.inj (hdesc.symm.trans hq)
      rw [hself]
      exact ⟨hlt, howner, hs.begun⟩
    · have hqp : q ≠ p := by
        rintro rfl
        exact hne hdesc
      rw [hother _ q hqp] at hq' ⊢
      exact hc.left q hq hq' hne

theorem progressConnect_ok (hc : ConnectOk j net sock)
    (hcall : progressConnect e j sock net = (sock', net', ret)) :
    Own j net net' ∧ ConnectOk j net' sock' := by
  unfold progressConnect at hcall
  split at hcall
  · cases hcall
    exact ⟨Own.refl j net, hc⟩
  · rename_i p hdesc
    -- The connect.
    generalize h1 : (if sock.state = .Connecting then ncclOsSocketStartConnect e j p sock net
      else (sock, net, ncclSuccess)) = x1 at hcall
    obtain ⟨s1, net1, r1⟩ := x1
    have hturn1 : r1 ≠ ncclSuccess ∧ Own j net net1 ∧ ConnectOk j net1 s1 ∨
        Turned j p net net1 s1 := by
      split at h1
      · rename_i hstate
        exact connectCheck_spec hc (.inl hstate) hdesc h1
      · cases h1
        exact .inr ⟨Own.refl j net, hc, fun _ => ⟨hdesc, rfl⟩⟩
    simp only at hcall
    split at hcall
    · cases hcall
      rcases hturn1 with ⟨-, hown, hok⟩ | hturn
      · exact ⟨hown, hok⟩
      · exact ⟨hturn.own, hturn.ok⟩
    rename_i hr1
    have hturn1 := hturn1.resolve_left fun h => hr1 h.1
    -- The poll.
    generalize h2 : (if s1.state = .ConnectPolling then ncclOsSocketPollConnect e j p s1 net1
      else (s1, net1, ncclSuccess)) = x2 at hcall
    obtain ⟨s2, net2, r2⟩ := x2
    have hturn2 : r2 ≠ ncclSuccess ∧ Own j net net2 ∧ ConnectOk j net2 s2 ∨
        Turned j p net net2 s2 := by
      split at h2
      · rename_i hstate
        obtain ⟨hdesc1, rfl⟩ := hturn1.same (.inl hstate)
        unfold ncclOsSocketPollConnect at h2
        split at h2
        · cases h2
          exact .inr hturn1
        · cases h2
          exact .inl ⟨by decide, hturn1.own, hturn1.ok⟩
        · exact connectCheck_spec hturn1.ok (.inr hstate) hdesc1 h2
      · cases h2
        exact .inr hturn1
    split at hcall
    · cases hcall
      rcases hturn2 with ⟨-, hown, hok⟩ | hturn
      · exact ⟨hown, hok⟩
      · exact ⟨hturn.own, hturn.ok⟩
    rename_i hr2
    have hconn : s2.state = .Connected := by
      by_contra hne
      exact hr2 (.inr hne)
    have hturn2 := hturn2.resolve_left fun h => hr2 (.inl h.1)
    obtain ⟨hdesc2, rfl⟩ := hturn2.same (.inr hconn)
    -- The magic and the type.
    cases hf : socketFinalizeConnect e s2 (net2.conns p) with
    | mk s3 x3 =>
      obtain ⟨c3, r3⟩ := x3
      simp only [hf] at hcall
      cases hcall
      exact own_sends hturn2.ok hdesc2
        (finalizeConnect_spec hconn (hturn2.ok.own p hdesc2).2.2 hf)

/-- A call for socket `j`. -/
theorem connectCall_ok (hc : ConnectOk j net sock)
    (hcall : connectCall e j sock net = (sock', net', ret)) :
    Own j net net' ∧ ConnectOk j net' sock' := by
  unfold connectCall at hcall
  split at hcall
  · rename_i hstate
    have hidle := hc.idle (by rw [hstate]; decide) (by rw [hstate]; decide)
    have hstart : ConnectOk j net { sock with state := .Connecting, finalizeCounter := 0 } :=
      Idle.ok ⟨hidle.own, hidle.quiet⟩ ⟨hc.typed.magic, hc.typed.type⟩ (by simp) fun _ => rfl
    exact progressConnect_ok hstart hcall
  · cases hcall
    exact ⟨Own.refl j net, hc⟩
  · cases hcall
    exact ⟨Own.refl j net, hc⟩
  · cases hcall
    exact ⟨Own.refl j net, hc⟩
  · exact progressConnect_ok hc hcall

theorem init_ok (hc : ConnectOk j net sock) (hstate : sock.state = .None)
    (hcall : ncclSocketInit e j sock net = (sock', net')) :
    Own j net net' ∧ ConnectOk j net' sock' := by
  have hidle := hc.idle (by rw [hstate]; decide) (by rw [hstate]; decide)
  unfold ncclSocketInit at hcall
  cases hreset : ncclOsSocketResetFd e j
      { sock with errorRetries := 0, state := .Initialized, socketDescriptor := none } net with
  | mk s1 x =>
    obtain ⟨net1, r1⟩ := x
    simp only [hreset] at hcall
    have hidle0 : Idle j net
        { sock with errorRetries := 0, state := .Initialized, socketDescriptor := none } :=
      ⟨fun p hp => (by cases hp), hidle.quiet⟩
    obtain ⟨hown, hidle1, desc, rfl⟩ := resetFd_spec hidle0 hreset
    cases hcall
    refine ⟨hown, ?_⟩
    split
    · refine hidle1.ok ⟨hc.typed.magic, hc.typed.type⟩ (by simp) fun h => ?_
      rcases h with h | h | h <;> cases h
    · refine Idle.ok ⟨fun p hp => (by cases hp), hidle1.quiet⟩ ⟨hc.typed.magic, hc.typed.type⟩
        (by simp) fun h => ?_
      rcases h with h | h | h <;> cases h

end

end net_ib.sock
