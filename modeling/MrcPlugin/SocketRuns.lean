-- All runs of a socket that listens, of the sockets that connect to it and of programs that
-- are not this one. The connection that is accepted has sent the magic and the type, and
-- what is left on it is what its peer has sent behind them.
import MrcPlugin.SocketConnect

namespace net_ib.sock

open layouts streams

/-! ## The invariant -/

/-- What holds in every run. -/
structure Good (w : SockWorld) : Prop where
  typed : w.listenSock.Typed
  length : w.listenSock.finalizeBuffer.length = 8
  net : NetOk w.listenSock w.net
  accepting : ∀ sock, w.accepting = some sock → AcceptOk w.listenSock w.net sock
  connecting : ∀ j, ConnectOk j w.net (w.connecting j)

section
variable {w w' : SockWorld}

theorem good_start (h : StartSock w) : Good w := by
  obtain ⟨ht, hlen⟩ := h.listen
  refine ⟨ht, hlen, ⟨fun p => ?_, fun p hp => ?_, ?_, fun p _ => ?_, fun p hp => ?_⟩,
    fun sock hs => ?_, fun j => ?_⟩
  · rw [h.conns p]
    exact Nat.zero_le _
  · rw [h.pending] at hp
    cases hp
  · rw [h.pending]
    exact List.nodup_nil
  · rw [h.conns p]
    exact ⟨rfl, rfl⟩
  · rw [h.conns p] at hp
    cases hp
  · rw [h.accepting] at hs
    cases hs
  · obtain ⟨hstate, hdesc, htyped⟩ := h.connecting j
    refine ⟨htyped, fun hc => ?_, fun p hp => ?_, fun p hp => ?_⟩
    · rw [hstate] at hc
      rcases hc with hc | hc <;> cases hc
    · rw [hdesc] at hp
      cases hp
    · rw [h.next] at hp
      exact absurd hp (Nat.not_lt_zero p)

/-! ## A step -/

/-- A call of the accepting side. -/
theorem Good.acceptCall (hg : Good w) {e : SockEnv} {sock : NcclSocket} {net : Net}
    {ret : NcclResult} (hcall : w.acceptCall e = (sock, net, ret)) :
    Good { w with accepting := some sock, net } ∧
      (ret ≠ ncclSuccess → AcceptError e w.listenSock w.net) := by
  suffices h : NetOk w.listenSock net ∧ AcceptOk w.listenSock net sock ∧ SamePeers w.net net ∧
      (ret ≠ ncclSuccess → AcceptError e w.listenSock w.net) by
    obtain ⟨hnet, hsock, hpeers, herr⟩ := h
    refine ⟨⟨hg.typed, hg.length, hnet, fun s hs => ?_, fun j => ?_⟩, herr⟩
    · obtain rfl := Option.some.inj hs
      exact hsock
    · exact (hg.connecting j).keeps (Keeps.of_peers hpeers j)
  unfold SockWorld.acceptCall at hcall
  cases hacc : w.accepting with
  | none =>
    simp only [hacc] at hcall
    unfold ncclSocketAccept at hcall
    have hstart : AcceptOk w.listenSock w.net
        { w.listenSock with state := .Accepting, finalizeCounter := 0 } :=
      ⟨rfl, rfl, hg.length, .inl ⟨rfl, rfl⟩⟩
    cases hp : progressAccept e { w.listenSock with state := .Accepting, finalizeCounter := 0 }
        w.net with
    | mk s1 x =>
      obtain ⟨net1, r1⟩ := x
      simp only [hp] at hcall
      cases hcall
      exact progressAccept_ok hg.typed hg.net hstart hp
  | some s0 =>
    simp only [hacc] at hcall
    have hs0 := hg.accepting s0 hacc
    unfold ncclSocketReady at hcall
    split at hcall
    · -- The socket of a good world is in neither of these states.
      rename_i hbad
      rcases hs0.phase with ⟨hstate, -⟩ | ⟨p, -, -, hheld | hwelcome⟩
      · rw [hstate] at hbad
        rcases hbad with h | h <;> cases h
      · rw [hheld.state] at hbad
        rcases hbad with h | h <;> cases h
      · rw [hwelcome.state] at hbad
        rcases hbad with h | h <;> cases h
    split at hcall
    · cases hcall
      exact ⟨hg.net, hs0, SamePeers.refl _, fun hne => absurd rfl hne⟩
    · cases hp : progressAccept e s0 w.net with
      | mk s1 x =>
        obtain ⟨net1, r1⟩ := x
        simp only [hp] at hcall
        cases hcall
        exact progressAccept_ok hg.typed hg.net hs0 hp

/-- A step of socket `j`. -/
theorem Good.own (hg : Good w) {j : Nat} {sock : NcclSocket} {net : Net} (hown : Own j w.net net)
    (hok : ConnectOk j net sock) :
    Good { w with connecting := Function.update w.connecting j sock, net } := by
  refine ⟨hg.typed, hg.length, hg.net.grows hown.grows,
    fun s hs => (hg.accepting s hs).grows hown.grows, fun k => ?_⟩
  by_cases hk : k = j
  · rw [hk]
    simp only [Function.update_self]
    exact hok
  · simp only [Function.update_of_ne hk]
    exact (hg.connecting k).keeps (hown.others k hk)

/-- A step of the network that no socket takes. -/
theorem Good.others (hg : Good w) {net : Net} (hgrows : Grows w.net net)
    (hkeeps : ∀ k, Keeps k w.net net) : Good { w with net } :=
  ⟨hg.typed, hg.length, hg.net.grows hgrows, fun s hs => (hg.accepting s hs).grows hgrows,
    fun k => (hg.connecting k).keeps (hkeeps k)⟩

/-- A change of one connection. -/
theorem grows_setConn {net : Net} {p : Nat} {c : Conn} (hc : Carried (net.conns p) c) :
    Grows net (net.setConn p c) := by
  refine ⟨Nat.le_refl _, fun q => .inl ?_, .inl rfl⟩
  by_cases hq : q = p
  · rw [hq, show (net.setConn p c).conns p = c from Function.update_self ..]
    exact hc
  · rw [show (net.setConn p c).conns q = net.conns q from Function.update_of_ne hq ..]
    exact Carried.refl _

theorem keeps_setConn {net : Net} {p : Nat} {c : Conn} {k : Nat}
    (howner : c.owner = (net.conns p).owner)
    (hsame : (net.conns p).owner = some k →
      c.sent = (net.conns p).sent ∧ c.payload = (net.conns p).payload) :
    Keeps k net (net.setConn p c) := by
  have hself : (net.setConn p c).conns p = c := Function.update_self ..
  have hother : ∀ q, q ≠ p → (net.setConn p c).conns q = net.conns q :=
    fun q hq => Function.update_of_ne hq ..
  refine ⟨Nat.le_refl _, fun q _ => ?_, fun q hge hlt => absurd hlt (Nat.not_lt.mpr hge),
    fun q _ hk => ?_⟩
  · by_cases hq : q = p
    · rw [hq, hself, howner]
    · rw [hother q hq]
  · by_cases hq : q = p
    · rw [hq] at hk ⊢
      rw [hself]
      exact hsame hk
    · rw [hother q hq]
      exact ⟨rfl, rfl⟩

/-- A connection reaches the side that listens. -/
theorem grows_arrives {net : Net} {p : Nat} (hp : p < net.next)
    (hest : (net.conns p).established = false) :
    Grows net
      { net.setConn p { net.conns p with established := true } with
        pending := net.pending ++ [p] } := by
  have hgrows : Grows net (net.setConn p { net.conns p with established := true }) :=
    grows_setConn ⟨rfl, rfl, rfl, ⟨[], (List.append_nil _).symm⟩, fun _ => rfl, id, id⟩
  refine ⟨hgrows.next, hgrows.conns, .inr ⟨p, hp, hest, ?_, rfl⟩⟩
  simp only [Net.setConn, Function.update_self]

/-- A connection of a program that is not this one. -/
theorem opens_stranger (net : Net) :
    Grows net { net.setConn net.next (Conn.opened none) with next := net.next + 1 } ∧
      ∀ k, Keeps k net { net.setConn net.next (Conn.opened none) with next := net.next + 1 } := by
  have hother : ∀ q, q ≠ net.next →
      Function.update net.conns net.next (Conn.opened none) q = net.conns q :=
    fun q hq => Function.update_of_ne hq ..
  refine ⟨⟨Nat.le_succ _, fun q => ?_, .inl rfl⟩, fun k => ⟨Nat.le_succ _, fun q hq => ?_,
    fun q hge hlt => ?_, fun q hq _ => ?_⟩⟩
  · by_cases hq : q = net.next
    · exact .inr ⟨le_of_eq hq.symm, none, by rw [hq]; exact Function.update_self ..⟩
    · simp only [Net.setConn, hother q hq]
      exact .inl (Carried.refl _)
  · simp only [Net.setConn, hother q (Nat.ne_of_lt hq)]
  · obtain rfl : q = net.next := Nat.le_antisymm (Nat.le_of_lt_succ hlt) hge
    simp only [Net.setConn, Function.update_self]
    intro h
    cases h
  · simp only [Net.setConn, hother q (Nat.ne_of_lt hq), and_self]

/-- A connection that is only closed, broken or established. -/
theorem Good.flagged (hg : Good w) {p : Nat} {c : Conn} (hc : Carried (w.net.conns p) c)
    (hsent : c.sent = (w.net.conns p).sent) (hpayload : c.payload = (w.net.conns p).payload) :
    Good { w with net := w.net.setConn p c } :=
  hg.others (grows_setConn hc) fun _ => keeps_setConn hc.owner fun _ => ⟨hsent, hpayload⟩

theorem Good.next (hg : Good w) {act : SockAct} (h : w.next act = some w') : Good w' := by
  cases act with
  | accept e =>
    simp only [SockWorld.next] at h
    cases hcall : w.acceptCall e with
    | mk sock x =>
      obtain ⟨net, ret⟩ := x
      simp only [hcall] at h
      cases h
      exact (hg.acceptCall hcall).1
  | init e j =>
    simp only [SockWorld.next] at h
    split at h
    · rename_i hstate
      cases hcall : ncclSocketInit e j (w.connecting j) w.net with
      | mk sock net =>
        simp only [hcall] at h
        cases h
        obtain ⟨hown, hok⟩ := init_ok (hg.connecting j) hstate hcall
        exact hg.own hown hok
    · cases h
  | connect e j =>
    simp only [SockWorld.next] at h
    split at h
    · cases h
    · cases hcall : connectCall e j (w.connecting j) w.net with
      | mk sock x =>
        obtain ⟨net, ret⟩ := x
        simp only [hcall] at h
        cases h
        obtain ⟨hown, hok⟩ := connectCall_ok (hg.connecting j) hcall
        exact hg.own hown hok
  | payload j bytes =>
    simp only [SockWorld.next] at h
    split at h
    · rename_i p hstate hdesc
      cases h
      have hbegun := ((hg.connecting j).own p hdesc).2.2
      have hsending : Sending (w.connecting j) (w.net.conns p) (w.connecting j)
          { w.net.conns p with
            sent := (w.net.conns p).sent ++ bytes
            payload := (w.net.conns p).payload ++ bytes } := by
        refine ⟨⟨_, _, rfl⟩, .inr hstate, ⟨bytes, _, rfl⟩, ?_⟩
        unfold Begun at hbegun ⊢
        simp only [hstate] at hbegun ⊢
        rw [hbegun, List.append_assoc]
      obtain ⟨hown, hok⟩ := own_sends (hg.connecting j) hdesc hsending
      have hgood := hg.own hown hok
      rw [Function.update_eq_self] at hgood
      exact hgood
    · cases h
  | arrives p =>
    simp only [SockWorld.next] at h
    split at h
    · rename_i hp
      cases h
      refine hg.others (grows_arrives hp.1 hp.2) fun k => ?_
      have hk : Keeps k w.net
          (w.net.setConn p { w.net.conns p with established := true }) :=
        keeps_setConn rfl fun _ => ⟨rfl, rfl⟩
      exact ⟨hk.next, hk.owner, hk.fresh, hk.same⟩
    · cases h
  | strangerOpens =>
    simp only [SockWorld.next] at h
    cases h
    exact hg.others (opens_stranger w.net).1 (opens_stranger w.net).2
  | strangerSends p bytes =>
    simp only [SockWorld.next] at h
    split at h
    · rename_i hp
      cases h
      refine hg.others (grows_setConn ⟨rfl, rfl, rfl, ⟨bytes, rfl⟩, id, id, id⟩) fun k =>
        keeps_setConn rfl fun hk => ?_
      rw [hp.2] at hk
      cases hk
    · cases h
  | closes p =>
    simp only [SockWorld.next] at h
    split at h
    · cases h
      exact hg.flagged ⟨rfl, rfl, rfl, ⟨[], (List.append_nil _).symm⟩, id, fun _ => rfl, id⟩ rfl rfl
    · cases h
  | resets p =>
    simp only [SockWorld.next] at h
    split at h
    · cases h
      exact hg.flagged ⟨rfl, rfl, rfl, ⟨[], (List.append_nil _).symm⟩, id, id, fun _ => rfl⟩ rfl rfl
    · cases h

/-- A run goes on with a list of steps. -/
theorem reachable_follow {acts : List SockAct} (h : runs.Reachable sockSystem w)
    (hrun : runs.follow SockWorld.next acts w = some w') : runs.Reachable sockSystem w' := by
  have hstep : ∀ act s t, SockWorld.next act s = some t → sockSystem.step s t :=
    fun act _ _ h => ⟨act, h⟩
  exact h.follow hstep hrun

theorem reachable_good (h : runs.Reachable sockSystem w) : Good w :=
  h.invariant (fun _ h0 => good_start h0) fun _ _ _ hg ⟨_, hact⟩ => hg.next hact

end

/-! ## What is accepted, what is dropped and what is an error -/

theorem hello_inj {s t : NcclSocket} (hs : s.Typed) (ht : t.Typed) (h : s.hello = t.hello) :
    s.magic = t.magic ∧ s.type = t.type := by
  have hmagic := congrArg (List.take 8) h
  have htype := congrArg (List.drop 8) h
  rw [hello_take, hello_take] at hmagic
  rw [hello_drop, hello_drop] at htype
  exact ⟨word_encode_inj hs.magic ht.magic hmagic, word_encode_inj hs.type ht.type htype⟩

/-- Connection `p` is the one of a socket that is ready. What comes next on it is what its
peer sends behind the handshake. -/
structure Accepted (w : SockWorld) (sock : NcclSocket) (p : Nat) : Prop where
  desc : sock.socketDescriptor = some p
  kept : (w.net.conns p).dropped = false
  got : (w.net.conns p).got = 12
  hello : (w.net.conns p).sent.take 12 = w.listenSock.hello
  peer : ∀ j, (w.net.conns p).owner = some j → (w.connecting j).state = .Ready ∧
    (w.connecting j).socketDescriptor = some p ∧ (w.connecting j).magic = w.listenSock.magic ∧
    (w.connecting j).type = w.listenSock.type ∧ (w.net.conns p).chan = (w.net.conns p).payload

section
variable {w : SockWorld}

/-- A socket that has sent anything has done so on the connection that it has. -/
theorem ConnectOk.sent {j p : Nat} {net : Net} {sock : NcclSocket} (hc : ConnectOk j net sock)
    (hp : p < net.next) (howner : (net.conns p).owner = some j) (hne : (net.conns p).sent ≠ []) :
    sock.socketDescriptor = some p ∧
      ((net.conns p).sent = sock.hello.take sock.finalizeCounter ∧ sock.finalizeCounter < 12 ∨
        sock.state = .Ready ∧ (net.conns p).sent = sock.hello ++ (net.conns p).payload) := by
  have hdesc : sock.socketDescriptor = some p := by
    by_contra hother
    exact hne (hc.left p hp howner hother).1
  have hbegun := (hc.own p hdesc).2.2
  refine ⟨hdesc, ?_⟩
  unfold Begun at hbegun
  split at hbegun
  · exact .inl ⟨hbegun.2.1, hbegun.1⟩
  · rename_i hstate
    exact .inr ⟨hstate, hbegun⟩
  · exact absurd hbegun.1 hne

/-- Whatever was tried on the listening socket before, the socket that is ready has the
connection of a peer that has sent the magic and the type. -/
theorem accepted_connection (h : runs.Reachable sockSystem w) {sock : NcclSocket}
    (hsock : w.accepting = some sock) (hready : sock.state = .Ready) :
    ∃ p, Accepted w sock p := by
  have hg := reachable_good h
  rcases (hg.accepting sock hsock).phase with ⟨hstate, -⟩ | ⟨p, hdesc, htaken, hheld | hwelcome⟩
  · rw [hready] at hstate
    cases hstate
  · have hstate := hheld.state
    rw [hready] at hstate
    cases hstate
  have hle := hwelcome.le
  have hhello : (w.net.conns p).sent.take 12 = w.listenSock.hello :=
    hwelcome.hello.trans (hg.accepting sock hsock).hello
  refine ⟨p, hdesc, htaken.kept, hwelcome.got, hhello, fun j howner => ?_⟩
  have hc := hg.connecting j
  have hne : (w.net.conns p).sent ≠ [] := by
    intro hnil
    rw [hnil] at hle
    exact absurd hle (by decide)
  obtain ⟨hown, ⟨hsent, hlt⟩ | ⟨hstate, hsent⟩⟩ := hc.sent htaken.lt howner hne
  · -- A part of the magic and the type would be too short.
    rw [hsent, List.length_take] at hle
    omega
  · have hlen := hello_length (w.connecting j)
    have hsame : (w.connecting j).hello = w.listenSock.hello := by
      rw [← hhello, hsent, List.take_left' hlen]
    obtain ⟨hmagic, htype⟩ := hello_inj hc.typed hg.typed hsame
    refine ⟨hstate, hown, hmagic, htype, ?_⟩
    unfold Conn.chan
    rw [hwelcome.got, hsent, List.drop_left' hlen]

/-- A call of the accepting side fails with the system, or with a peer that has sent the
magic and is gone before the type. A program that does not know the magic is no reason. -/
theorem accept_errors (h : runs.Reachable sockSystem w) {e : SockEnv}
    (hne : (w.acceptCall e).2.2 ≠ ncclSuccess) : AcceptError e w.listenSock w.net :=
  ((reachable_good h).acceptCall rfl).2 hne

/-- A peer of the transport, with the magic and the type of the listening socket, is only
dropped when its connection is closed or broken. -/
theorem dropped_peer (h : runs.Reachable sockSystem w) {p j : Nat}
    (hdropped : (w.net.conns p).dropped = true) (howner : (w.net.conns p).owner = some j)
    (hmagic : (w.connecting j).magic = w.listenSock.magic)
    (htype : (w.connecting j).type = w.listenSock.type) :
    (w.net.conns p).gone = true ∨ (w.net.conns p).reset = true := by
  have hg := reachable_good h
  obtain ⟨hlt, hgone | hreset | ⟨n, hn, hle, hne⟩⟩ := hg.net.bad p hdropped
  · exact .inl hgone
  · exact .inr hreset
  -- Whatever a peer of the transport has sent is as it should be.
  refine absurd ?_ hne
  have hsame : (w.connecting j).hello = w.listenSock.hello := by
    unfold NcclSocket.hello
    rw [hmagic, htype]
  by_cases hnil : (w.net.conns p).sent = []
  · rw [hnil, List.length_nil, Nat.le_zero] at hle
    rw [hle, List.take_zero, List.take_zero]
  have hlen := hello_length (w.connecting j)
  obtain ⟨-, ⟨hsent, hcounter⟩ | ⟨-, hsent⟩⟩ := (hg.connecting j).sent hlt howner hnil
  · rw [hsent, List.length_take] at hle
    rw [hsent, hsame, List.take_take, Nat.min_eq_left (by omega)]
  · rw [hsent, List.take_append_of_le_length (by omega), hsame]

end

/-! ## A sample: a stranger before the peer -/

/-- The system gives and takes all that it can. -/
def readyEnv : SockEnv where
  accept := .takes
  connect := .ok
  poll := .done .ok
  flagsOk := true
  socketOk := true
  first := .moves 64
  second := .moves 64
  retryCnt := 34

def newSock : NcclSocket where
  socketDescriptor := none
  errorRetries := 0
  state := .None
  magic := 7
  type := 4
  customRetry := false
  finalizeCounter := 0
  finalizeBuffer := List.replicate 8 0

def newWorld : SockWorld where
  listenSock := { newSock with state := .Ready }
  accepting := none
  connecting := fun _ => newSock
  net := ⟨fun _ => Conn.opened none, [], 0⟩

theorem newWorld_starts : StartSock newWorld := by
  have ht : newSock.Typed := ⟨by decide, by decide⟩
  exact ⟨⟨⟨ht.magic, ht.type⟩, rfl⟩, rfl, fun _ => ⟨rfl, rfl, ht⟩, rfl, fun _ => rfl, rfl⟩

/-- A stranger sends eight bytes, and a peer of the transport comes behind it. -/
def queueActs : List SockAct :=
  [.strangerOpens, .arrives 0, .strangerSends 0 (List.replicate 8 1), .init readyEnv 0,
    .arrives 1, .connect readyEnv 0, .payload 0 [5]]

/-- The world after two calls of the accepting side. -/
def acceptedWorld : SockWorld :=
  (runs.follow SockWorld.next (queueActs ++ [.accept readyEnv, .accept readyEnv]) newWorld).getD
    newWorld

theorem acceptedWorld_reachable : runs.Reachable sockSystem acceptedWorld := by
  have hrun : runs.follow SockWorld.next (queueActs ++ [.accept readyEnv, .accept readyEnv])
      newWorld = some acceptedWorld := rfl
  exact reachable_follow (.init newWorld_starts) hrun

theorem the_peer_is_accepted : ∃ sock p, Accepted acceptedWorld sock p := by
  have hacc : acceptedWorld.accepting.isSome := rfl
  obtain ⟨sock, hsock⟩ := Option.isSome_iff_exists.mp hacc
  have hready : sock.state = .Ready := by
    have h : acceptedWorld.accepting.map NcclSocket.state = some .Ready := rfl
    rw [hsock] at h
    exact Option.some.inj h
  exact ⟨sock, accepted_connection acceptedWorld_reachable hsock hready⟩

/-- A peer that comes and goes. -/
def closedActs : List SockAct := [.init readyEnv 0, .arrives 0, .closes 0, .accept readyEnv]

def closedWorld : SockWorld := (runs.follow SockWorld.next closedActs newWorld).getD newWorld

theorem a_dropped_peer_was_closed :
    (closedWorld.net.conns 0).gone = true ∨ (closedWorld.net.conns 0).reset = true := by
  have hrun : runs.follow SockWorld.next closedActs newWorld = some closedWorld := rfl
  have howner : (closedWorld.net.conns 0).owner = some 0 := rfl
  exact dropped_peer (reachable_follow (.init newWorld_starts) hrun) rfl howner rfl rfl

end net_ib.sock
