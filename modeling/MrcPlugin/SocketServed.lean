-- Peers that never finish the handshake do not keep the others out. When every connection
-- in front has ended before the magic or has sent the wrong bytes, two calls are enough for
-- each of them, and the next call has the peer behind them. A peer that ends between the
-- magic and the type is an error of the call.
import MrcPlugin.SocketRuns

namespace net_ib.sock

open layouts streams

/-- A call for which the system has all that is there. -/
structure Serving (e : SockEnv) : Prop where
  accept : e.accept = .takes
  flags : e.flagsOk = true
  first : ∃ k, e.first = .moves k ∧ 8 ≤ k
  second : ∃ k, e.second = .moves k ∧ 4 ≤ k

/-- A connection that waits and will be dropped. -/
def Hopeless (listenSock : NcclSocket) (c : Conn) : Prop :=
  (c.sent.length < 8 ∧ (c.gone = true ∨ c.reset = true)) ∨
    (8 ≤ c.sent.length ∧ c.sent.take 8 ≠ listenSock.hello.take 8) ∨
    (12 ≤ c.sent.length ∧ c.sent.take 12 ≠ listenSock.hello)

/-- A connection that has sent the handshake. -/
structure Hoped (listenSock : NcclSocket) (c : Conn) : Prop where
  le : 12 ≤ c.sent.length
  hello : c.sent.take 12 = listenSock.hello

/-! ## A call with one connection -/

section
variable {e : SockEnv} {sock sock' : NcclSocket} {c c' : Conn} {ret : NcclResult}

/-- A message that has come as a whole is received as a whole. -/
theorem recv_whole (base : Nat) {size k : Nat} {buffer : List Byte} (hgot : c.got = base)
    (hpos : 0 < size) (hk : size ≤ k) (hle : base + size ≤ c.sent.length)
    (hsize : size ≤ buffer.length) :
    ∃ buffer', recvProgress (.moves k) size 0 buffer c =
        .ok (buffer', size, { c with got := base + size }, false) ∧
      buffer'.length = buffer.length ∧ buffer'.take size = (c.sent.drop base).take size := by
  have hchan : c.chan.length = c.sent.length - base := by
    unfold Conn.chan
    rw [List.length_drop, hgot]
  have hn : inLen size 0 k c.chan = size := by
    unfold inLen
    rw [hchan]
    omega
  have hcall : recvProgress (.moves k) size 0 buffer c =
      .ok (write buffer 0 (c.chan.take size), size, { c with got := base + size }, false) := by
    unfold recvProgress
    simp only [hn]
    rw [if_neg (by omega), if_neg (by omega), Nat.zero_add, hgot]
  have hr := recvProgress_spec base hcall (by rw [hgot, Nat.add_zero]) (by omega) hpos
    hsize (by rw [List.take_zero, List.take_zero])
  exact ⟨_, hcall, hr.length, hr.held⟩

/-- The magic has come: it is the right one or not. -/
theorem finalize_magic (hs : Serving e) (hheld : Held sock c) (hzero : sock.finalizeCounter = 0)
    (hle : 8 ≤ c.sent.length) :
    ∃ buffer, buffer.length = 8 ∧ buffer.take 8 = c.sent.take 8 ∧
      socketFinalizeAccept e sock c =
        if (word 8).decode buffer ≠ sock.magic then
          ncclOsSocketResetAccept { sock with finalizeBuffer := buffer, finalizeCounter := 8 }
            { c with got := 8 }
        else finalizeType e { sock with finalizeBuffer := buffer, finalizeCounter := 8 }
          { c with got := 8 } := by
  obtain ⟨k, hk, hk8⟩ := hs.first
  have hgot : c.got = 0 := hheld.got.trans hzero
  obtain ⟨buffer, hcall, hlen, htake⟩ := recv_whole 0 hgot (by decide) hk8
    (by omega) (le_of_eq hheld.length.symm)
  refine ⟨buffer, hlen.trans hheld.length, htake, ?_⟩
  unfold socketFinalizeAccept
  rw [if_neg (by rw [hs.flags]; decide), if_pos (by omega), hzero, hk, hcall]
  simp only [Nat.zero_add]
  rw [if_neg (by decide)]

/-- The type has come: it is the right one or not. -/
theorem finalize_type (sock : NcclSocket) (c : Conn) (hs : Serving e)
    (hle : 12 ≤ c.sent.length) (hcounter : sock.finalizeCounter = 8) (hgot : c.got = 8)
    (hlen : sock.finalizeBuffer.length = 8) :
    ∃ buffer, buffer.length = 8 ∧ buffer.take 4 = (c.sent.drop 8).take 4 ∧
      finalizeType e sock c =
        if (word 4).decode buffer ≠ sock.type then
          ncclOsSocketResetAccept { sock with finalizeBuffer := buffer, finalizeCounter := 12 }
            { c with got := 12 }
        else
          ({ sock with finalizeBuffer := buffer, finalizeCounter := 12, state := .Ready },
            { c with got := 12 }, ncclSuccess) := by
  obtain ⟨k, hk, hk4⟩ := hs.second
  obtain ⟨buffer, hcall, hlen', htake⟩ := recv_whole 8 hgot (by decide)
    hk4 (by omega) (show 4 ≤ sock.finalizeBuffer.length by omega)
  refine ⟨buffer, hlen'.trans hlen, htake, ?_⟩
  unfold finalizeType
  rw [hcounter, hk, hcall]
  simp only
  rw [if_neg (by decide), if_neg (by decide)]

/-- The whole handshake has come. -/
theorem finalize_hoped (hs : Serving e) (ht : sock.Typed) (hheld : Held sock c)
    (hzero : sock.finalizeCounter = 0) (hh : Hoped sock c)
    (hcall : socketFinalizeAccept e sock c = (sock', c', ret)) :
    ret = ncclSuccess ∧ sock'.state = .Ready ∧ sock'.socketDescriptor = sock.socketDescriptor := by
  have hle := hh.le
  have hmagic : c.sent.take 8 = (word 8).encode sock.magic := by
    have h := congrArg (List.take 8) hh.hello
    rw [List.take_take, hello_take] at h
    exact h
  have htype : (c.sent.drop 8).take 4 = (word 4).encode sock.type := by
    have h := congrArg (List.drop 8) hh.hello
    rw [List.drop_take, hello_drop] at h
    exact h
  obtain ⟨buffer, hlen, htake, hfinal⟩ := finalize_magic hs hheld hzero (by omega)
  rw [hfinal, if_neg (not_not.mpr (decode_of_take ht.magic (htake.trans hmagic)))] at hcall
  obtain ⟨buffer', -, htake', hfinal'⟩ := finalize_type
    { sock with finalizeBuffer := buffer, finalizeCounter := 8 } { c with got := 8 } hs
    hle rfl rfl hlen
  rw [hfinal', if_neg (not_not.mpr (decode_of_take ht.type (htake'.trans htype)))] at hcall
  cases hcall
  exact ⟨rfl, rfl, rfl⟩

/-- A connection that has ended with nothing left on it. -/
theorem recv_ended {size offset k : Nat} {buffer : List Byte}
    (hended : c.gone = true ∨ c.reset = true) (hempty : c.chan = []) :
    recvProgress (.moves k) size offset buffer c = .ok (buffer, offset, c, true) := by
  have hn : inLen size offset k c.chan = 0 := by
    unfold inLen
    rw [hempty, List.length_nil]
    omega
  unfold recvProgress
  simp only [hn]
  split
  · rfl
  · rw [if_pos trivial, hempty]
    rcases hended with hgone | hreset
    · rw [hgone, List.isEmpty_nil, Bool.and_self, Bool.or_true]
    · rw [hreset, Bool.true_or]

/-- Before the magic the connection is dropped. -/
theorem finalize_closed (hs : Serving e) (hlt : sock.finalizeCounter < 8)
    (hended : c.gone = true ∨ c.reset = true) (hempty : c.chan = []) :
    socketFinalizeAccept e sock c = ncclOsSocketResetAccept sock c := by
  obtain ⟨k, hk, -⟩ := hs.first
  unfold socketFinalizeAccept
  rw [if_neg (by rw [hs.flags]; decide), if_pos hlt, hk, recv_ended hended hempty]
  simp only
  rw [if_pos hlt, if_pos trivial]

/-- Behind the magic it is an error of this call and of all that follow. -/
theorem half_hello_fails (hs : Serving e) (hmagic : 8 ≤ sock.finalizeCounter)
    (hended : c.gone = true ∨ c.reset = true) (hempty : c.chan = []) :
    socketFinalizeAccept e sock c = (sock, c, ncclRemoteError) := by
  obtain ⟨k, hk, -⟩ := hs.second
  unfold socketFinalizeAccept finalizeType
  rw [if_neg (by rw [hs.flags]; decide), if_neg (by omega), hk, recv_ended hended hempty]
  simp only [if_true]

/-- What is left of a connection that has ended before the magic has come. -/
structure Ending (sock : NcclSocket) (c : Conn) : Prop where
  state : sock.state = .Accepted
  lt : sock.finalizeCounter < 8
  ended : c.gone = true ∨ c.reset = true
  empty : c.chan = []

theorem finalize_short (hs : Serving e) (hheld : Held sock c) (hzero : sock.finalizeCounter = 0)
    (hlt : c.sent.length < 8) (hne : c.sent ≠ []) (hended : c.gone = true ∨ c.reset = true)
    (hcall : socketFinalizeAccept e sock c = (sock', c', ret)) :
    ret = ncclSuccess ∧ sock'.socketDescriptor = sock.socketDescriptor ∧ Ending sock' c' := by
  obtain ⟨k, hk, hk8⟩ := hs.first
  have hgot : c.got = 0 := hheld.got.trans hzero
  have hpos := List.length_pos_iff.mpr hne
  have hchan : c.chan = c.sent := by
    unfold Conn.chan
    rw [hgot, List.drop_zero]
  have hn : inLen 8 0 k c.chan = c.sent.length := by
    unfold inLen
    rw [hchan]
    omega
  unfold socketFinalizeAccept recvProgress at hcall
  rw [if_neg (by rw [hs.flags]; decide), if_pos (by omega), hzero, hk] at hcall
  simp only [hn] at hcall
  rw [if_neg (by decide), if_neg (by omega)] at hcall
  simp only [Nat.zero_add, hgot] at hcall
  rw [if_pos hlt, if_neg (by decide)] at hcall
  cases hcall
  refine ⟨rfl, rfl, hheld.state, hlt, hended, ?_⟩
  exact List.drop_eq_nil_of_le (Nat.le_refl _)

/-- A connection that is hopeless is dropped, or it ends before the magic has come. -/
theorem finalize_hopeless (hs : Serving e) (hheld : Held sock c)
    (hzero : sock.finalizeCounter = 0) (hh : Hopeless sock c)
    (hcall : socketFinalizeAccept e sock c = (sock', c', ret)) :
    ret = ncclSuccess ∧ (sock'.state = .BadHandshake ∨
      (sock'.socketDescriptor = sock.socketDescriptor ∧ Ending sock' c')) := by
  have hgot : c.got = 0 := hheld.got.trans hzero
  have hdrop : ∀ (s : NcclSocket) (d : Conn), ncclOsSocketResetAccept s d = (sock', c', ret) →
      ret = ncclSuccess ∧ (sock'.state = .BadHandshake ∨
        (sock'.socketDescriptor = sock.socketDescriptor ∧ Ending sock' c')) := by
    intro s d h
    cases h
    exact ⟨rfl, .inl rfl⟩
  rcases hh with ⟨hlt, hended⟩ | hwrong
  · by_cases hnil : c.sent = []
    · have hempty : c.chan = [] := by
        unfold Conn.chan
        rw [hnil, List.drop_nil]
      rw [finalize_closed hs (by omega) hended hempty] at hcall
      exact hdrop _ _ hcall
    · obtain ⟨hret, hdesc, hending⟩ := finalize_short hs hheld hzero hlt hnil hended hcall
      exact ⟨hret, .inr ⟨hdesc, hending⟩⟩
  have height : 8 ≤ c.sent.length := by
    rcases hwrong with h | h <;> omega
  obtain ⟨buffer, hlen, htake, hfinal⟩ := finalize_magic hs hheld hzero height
  rw [hfinal] at hcall
  split at hcall
  · exact hdrop _ _ hcall
  -- With the right magic the type is the wrong one.
  rename_i hmagic
  rw [not_not] at hmagic
  have hmagic8 : c.sent.take 8 = (word 8).encode sock.magic := by
    rw [← htake]
    exact word_decode_eq (by omega) hmagic
  rcases hwrong with ⟨-, hne⟩ | ⟨htwelve, hne⟩
  · rw [hello_take] at hne
    exact absurd hmagic8 hne
  obtain ⟨buffer', hlen', htake', hfinal'⟩ := finalize_type
    { sock with finalizeBuffer := buffer, finalizeCounter := 8 } { c with got := 8 } hs
    htwelve rfl rfl hlen
  rw [hfinal'] at hcall
  split at hcall
  · exact hdrop _ _ hcall
  · rename_i htype
    rw [not_not] at htype
    refine absurd (hello_of_parts hmagic8 ?_) hne
    rw [← htake']
    exact word_decode_eq (by omega) htype

end

/-! ## A call of the accepting side -/

/-- A call of the accepting side that returns no error. -/
def SockWorld.call (e : SockEnv) (w : SockWorld) : Option SockWorld :=
  let (sock, net, ret) := w.acceptCall e
  if ret = ncclSuccess then some { w with accepting := some sock, net } else none

/-- The accepting side has no connection. -/
def SockWorld.Waits (w : SockWorld) : Prop :=
  ∀ sock, w.accepting = some sock → sock.state = .Accepting

/-- The accepting side has a connection that ends. -/
def SockWorld.Ends (w : SockWorld) : Prop :=
  ∃ sock p, w.accepting = some sock ∧ sock.socketDescriptor = some p ∧ Ending sock (w.net.conns p)

/-- The accepting side is ready with connection `p`. -/
def SockWorld.Has (w : SockWorld) (p : Nat) : Prop :=
  ∃ sock, w.accepting = some sock ∧ sock.state = .Ready ∧ sock.socketDescriptor = some p

section
variable {e : SockEnv} {w w' : SockWorld} {p : Nat} {rest : List Nat}

theorem Good.call (hg : Good w) (h : w.call e = some w') : Good w' := by
  unfold SockWorld.call at h
  cases hcall : w.acceptCall e with
  | mk sock x =>
    obtain ⟨net, ret⟩ := x
    simp only [hcall] at h
    split at h
    · cases h
      exact (hg.acceptCall hcall).1
    · cases h

/-- A ready socket stays. -/
theorem call_has (h : w.Has p) : w.call e = some w := by
  obtain ⟨sock, hacc, hstate, -⟩ := h
  have hcall : w.acceptCall e = (sock, w.net, ncclSuccess) := by
    unfold SockWorld.acceptCall
    rw [hacc]
    simp only
    unfold ncclSocketReady
    rw [if_neg (by rw [hstate]; decide), if_pos hstate]
  unfold SockWorld.call
  rw [hcall]
  simp only [if_true]
  rw [← hacc]

/-- A call for a socket that is not ready yet. -/
theorem call_progress {sock sock' : NcclSocket} {net : Net} (hacc : w.accepting = some sock)
    (hstate : sock.state = .Accepting ∨ sock.state = .Accepted)
    (hprogress : progressAccept e sock w.net = (sock', net, ncclSuccess)) :
    w.call e = some { w with accepting := some (retryAccept sock'), net } := by
  have hready : ncclSocketReady e sock w.net = (retryAccept sock', net, ncclSuccess) := by
    unfold ncclSocketReady
    rw [if_neg (by rcases hstate with h | h <;> rw [h] <;> decide),
      if_neg (by rcases hstate with h | h <;> rw [h] <;> decide), hprogress]
    simp only [if_true]
  unfold SockWorld.call SockWorld.acceptCall
  simp only [hacc, hready, if_true]

/-- A socket that waits takes the first connection. -/
theorem progress_takes (sock : NcclSocket) (hs : Serving e) (hstate : sock.state = .Accepting)
    (hpending : w.net.pending = p :: rest) {sock' : NcclSocket} {c' : Conn}
    (hfinal : socketFinalizeAccept e { sock with socketDescriptor := some p, state := .Accepted }
      (w.net.conns p) = (sock', c', ncclSuccess)) :
    progressAccept e sock w.net =
      (sock', { w.net with pending := rest }.setConn p c', ncclSuccess) := by
  unfold progressAccept ncclOsSocketTryAccept
  rw [if_pos hstate]
  simp only [hs.accept, hpending]
  rw [if_neg (by simp), hfinal]

/-- A call that takes a connection, and what it finds there. -/
theorem call_takes (hg : Good w) (hs : Serving e) (hw : w.Waits)
    (hpending : w.net.pending = p :: rest) :
    ∃ sock, sock.Typed ∧ sock.hello = w.listenSock.hello ∧ sock.socketDescriptor = some p ∧
      sock.finalizeCounter = 0 ∧ Held sock (w.net.conns p) ∧
      ∀ sock' c', socketFinalizeAccept e sock (w.net.conns p) = (sock', c', ncclSuccess) →
        w.call e = some { w with
          accepting := some (retryAccept sock')
          net := { w.net with pending := rest }.setConn p c' } := by
  obtain ⟨-, -, hgot, -⟩ := hg.net.pending p (by rw [hpending]; exact List.mem_cons_self)
  have hheld : ∀ sock : NcclSocket, sock.finalizeBuffer.length = 8 → sock.finalizeCounter = 0 →
      Held { sock with socketDescriptor := some p, state := .Accepted } (w.net.conns p) := by
    intro sock hlen hzero
    exact
      { state := rfl
        length := hlen
        got := hgot.trans hzero.symm
        lt := by simp only [hzero]; decide
        le := hg.net.counted p
        first := fun _ => by simp only [hzero, List.take_zero]
        magic := fun hge => by simp only [hzero] at hge; omega
        second := fun hge => by simp only [hzero] at hge; omega }
  cases hacc : w.accepting with
  | none =>
    refine ⟨{ w.listenSock with
        state := .Accepted, finalizeCounter := 0, socketDescriptor := some p },
      ⟨hg.typed.magic, hg.typed.type⟩, rfl, rfl, rfl,
      hheld { w.listenSock with state := .Accepting, finalizeCounter := 0 } hg.length rfl,
      fun sock' c' hfinal => ?_⟩
    have hprogress := progress_takes
      { w.listenSock with state := .Accepting, finalizeCounter := 0 } hs rfl hpending hfinal
    unfold SockWorld.call SockWorld.acceptCall ncclSocketAccept
    simp only [hacc, hprogress, if_true]
  | some s0 =>
    have hstate := hw s0 hacc
    have hs0 := hg.accepting s0 hacc
    have hzero : s0.finalizeCounter = 0 := by
      rcases hs0.phase with ⟨-, hzero⟩ | ⟨q, -, -, hheld | hwelcome⟩
      · exact hzero
      · exact absurd (hstate.symm.trans hheld.state) (by decide)
      · exact absurd (hstate.symm.trans hwelcome.state) (by decide)
    refine ⟨{ s0 with socketDescriptor := some p, state := .Accepted },
      ⟨hs0.magic ▸ hg.typed.magic, hs0.type ▸ hg.typed.type⟩, hs0.hello, rfl, hzero,
      hheld s0 hs0.length hzero, fun sock' c' hfinal => ?_⟩
    exact call_progress hacc (.inl hstate) (progress_takes s0 hs hstate hpending hfinal)

/-- The first connection has sent the handshake. -/
theorem call_hoped (hg : Good w) (hs : Serving e) (hw : w.Waits)
    (hpending : w.net.pending = p :: rest) (hp : Hoped w.listenSock (w.net.conns p)) :
    ∃ w', w.call e = some w' ∧ w'.Has p := by
  obtain ⟨sock, ht, hhello, hdesc, hzero, hheld, hcall⟩ := call_takes hg hs hw hpending
  cases hf : socketFinalizeAccept e sock (w.net.conns p) with
  | mk sock' x =>
    obtain ⟨c', ret⟩ := x
    have hhoped : Hoped sock (w.net.conns p) := ⟨hp.le, hp.hello.trans hhello.symm⟩
    obtain ⟨rfl, hready, hdesc'⟩ := finalize_hoped hs ht hheld hzero hhoped hf
    refine ⟨_, hcall sock' c' hf, sock', ?_, hready, hdesc'.trans hdesc⟩
    have hretry : retryAccept sock' = sock' := by
      unfold retryAccept
      rw [if_neg (by rw [hready]; decide)]
    simp only [hretry]

/-- The first connection is hopeless. -/
theorem call_hopeless (hg : Good w) (hs : Serving e) (hw : w.Waits)
    (hpending : w.net.pending = p :: rest) (hp : Hopeless w.listenSock (w.net.conns p)) :
    ∃ w', w.call e = some w' ∧ w'.listenSock = w.listenSock ∧ w'.net.pending = rest ∧
      (∀ q, q ≠ p → w'.net.conns q = w.net.conns q) ∧ (w'.Waits ∨ w'.Ends) := by
  obtain ⟨sock, ht, hhello, hdesc, hzero, hheld, hcall⟩ := call_takes hg hs hw hpending
  cases hf : socketFinalizeAccept e sock (w.net.conns p) with
  | mk sock' x =>
    obtain ⟨c', ret⟩ := x
    have hhopeless : Hopeless sock (w.net.conns p) := by
      unfold Hopeless at hp ⊢
      rw [hhello]
      exact hp
    obtain ⟨rfl, hend⟩ := finalize_hopeless hs hheld hzero hhopeless hf
    refine ⟨_, hcall sock' c' hf, rfl, rfl, fun q hq => Function.update_of_ne hq .., ?_⟩
    rcases hend with hbad | ⟨hdesc', hending⟩
    · left
      intro s hsock
      obtain rfl := Option.some.inj hsock
      unfold retryAccept
      rw [if_pos hbad]
    · right
      have hretry : retryAccept sock' = sock' := by
        unfold retryAccept
        rw [if_neg (by rw [hending.state]; decide)]
      refine ⟨sock', p, by rw [hretry], hdesc'.trans hdesc, ?_⟩
      simp only [Net.setConn, Function.update_self]
      exact hending

/-- A connection that ends is dropped. -/
theorem call_ends (hg : Good w) (hs : Serving e) (hw : w.Ends) :
    ∃ w', w.call e = some w' ∧ w'.listenSock = w.listenSock ∧ w'.net.pending = w.net.pending ∧
      (∀ q ∈ w.net.pending, w'.net.conns q = w.net.conns q) ∧ w'.Waits := by
  obtain ⟨sock, p, hacc, hdesc, hending⟩ := hw
  have hnot : p ∉ w.net.pending := by
    rcases (hg.accepting sock hacc).phase with ⟨hstate, -⟩ | ⟨p', hdesc', htaken, -⟩
    · exact absurd (hending.state.symm.trans hstate) (by decide)
    · obtain rfl : p' = p := Option.some.inj (hdesc'.symm.trans hdesc)
      exact htaken.gone
  have hfinal := finalize_closed hs hending.lt hending.ended hending.empty
  have hprogress : progressAccept e sock w.net =
      ((ncclOsSocketResetAccept sock (w.net.conns p)).1,
        w.net.setConn p (ncclOsSocketResetAccept sock (w.net.conns p)).2.1, ncclSuccess) := by
    unfold progressAccept
    rw [if_neg (by rw [hending.state]; decide)]
    simp only [hending.state, hdesc]
    rw [if_neg (by simp), hfinal]
    rfl
  refine ⟨_, call_progress hacc (.inr hending.state) hprogress, rfl, rfl, fun q hq => ?_,
    fun s hsock => ?_⟩
  · have hqp : q ≠ p := by
      rintro rfl
      exact hnot hq
    exact Function.update_of_ne hqp ..
  · obtain rfl := Option.some.inj hsock
    rfl

/-! ## Calls one after the other -/

/-- Calls of the accepting side, none of which returns an error. -/
def SockWorld.calls (es : List SockEnv) (w : SockWorld) : Option SockWorld :=
  runs.follow SockWorld.call es w

theorem calls_has {es : List SockEnv} (h : w.Has p) : w.calls es = some w := by
  unfold SockWorld.calls
  induction es with
  | nil => rfl
  | cons e es ih => rw [runs.follow, call_has h, Option.bind_some, ih]

/-- The peers in front, one after the other. -/
theorem good_served {es : List SockEnv} {bads : List Nat} (hg : Good w)
    (hes : ∀ e ∈ es, Serving e) (hw : w.Waits) (hpending : w.net.pending = bads ++ p :: rest)
    (hbads : ∀ q ∈ bads, Hopeless w.listenSock (w.net.conns q))
    (hp : Hoped w.listenSock (w.net.conns p)) (hlen : 2 * bads.length + 1 ≤ es.length) :
    ∃ w', w.calls es = some w' ∧ w'.Has p := by
  induction bads generalizing w es with
  | nil =>
    cases es with
    | nil => exact absurd hlen (by decide)
    | cons e es =>
      obtain ⟨w1, hcall, hhas⟩ := call_hoped hg (hes e List.mem_cons_self) hw hpending hp
      refine ⟨w1, ?_, hhas⟩
      unfold SockWorld.calls
      rw [runs.follow, hcall, Option.bind_some]
      exact calls_has hhas
  | cons q bads ih =>
    rw [List.length_cons] at hlen
    have hnodup := hg.net.nodup
    rw [hpending] at hnodup
    obtain ⟨hfirst, -⟩ := List.nodup_cons.mp hnodup
    match es, hes, hlen with
    | e :: e' :: es, hes, hlen =>
      simp only [List.length_cons] at hlen
      obtain ⟨w1, hcall, hlisten, hrest, hconns, hends⟩ := call_hopeless hg
        (hes e List.mem_cons_self) hw hpending (hbads q List.mem_cons_self)
      have hg1 := hg.call hcall
      have hsame : ∀ r ∈ bads ++ p :: rest, w1.net.conns r = w.net.conns r :=
        fun r hr => hconns r fun h => hfirst (h ▸ hr)
      have hbads1 : ∀ r ∈ bads, Hopeless w1.listenSock (w1.net.conns r) := by
        intro r hr
        rw [hlisten, hsame r (List.mem_append_left _ hr)]
        exact hbads r (List.mem_cons_of_mem _ hr)
      have hp1 : Hoped w1.listenSock (w1.net.conns p) := by
        rw [hlisten, hsame p (List.mem_append_right _ List.mem_cons_self)]
        exact hp
      rcases hends with hwaits | hending
      · have hes1 : ∀ d ∈ e' :: es, Serving d := fun d hd => hes d (List.mem_cons_of_mem _ hd)
        obtain ⟨w', hcalls, hhas⟩ := ih hg1 hes1 hwaits hrest hbads1 hp1
          (by rw [List.length_cons]; omega)
        refine ⟨w', ?_, hhas⟩
        unfold SockWorld.calls
        rw [runs.follow, hcall, Option.bind_some]
        exact hcalls
      · -- The connection is closed, and the next call finds that out.
        obtain ⟨w2, hcall2, hlisten2, hrest2, hconns2, hwaits⟩ := call_ends hg1
          (hes e' (List.mem_cons_of_mem _ List.mem_cons_self)) hending
        rw [hrest] at hrest2 hconns2
        have hes2 : ∀ d ∈ es, Serving d :=
          fun d hd => hes d (List.mem_cons_of_mem _ (List.mem_cons_of_mem _ hd))
        obtain ⟨w', hcalls, hhas⟩ := ih (hg1.call hcall2) hes2 hwaits hrest2
          (fun r hr => by rw [hlisten2, hconns2 r (List.mem_append_left _ hr)]; exact hbads1 r hr)
          (by
            rw [hlisten2, hconns2 p (List.mem_append_right _ List.mem_cons_self)]
            exact hp1)
          (by omega)
        refine ⟨w', ?_, hhas⟩
        unfold SockWorld.calls
        rw [runs.follow, hcall, Option.bind_some, runs.follow, hcall2, Option.bind_some]
        exact hcalls

/-- Whatever came before, and however many peers in front will never finish, the peer
behind them is accepted. Two calls are enough for each of them. -/
theorem served_in_turn {es : List SockEnv} {bads : List Nat}
    (h : runs.Reachable sockSystem w) (hes : ∀ e ∈ es, Serving e) (hw : w.Waits)
    (hpending : w.net.pending = bads ++ p :: rest)
    (hbads : ∀ q ∈ bads, Hopeless w.listenSock (w.net.conns q))
    (hp : Hoped w.listenSock (w.net.conns p)) (hlen : 2 * bads.length + 1 ≤ es.length) :
    ∃ w', w.calls es = some w' ∧ runs.Reachable sockSystem w' ∧ w'.Has p := by
  have hstep : ∀ e s t, SockWorld.call e s = some t → sockSystem.step s t := by
    intro e s t hcall
    refine ⟨.accept e, ?_⟩
    unfold SockWorld.call at hcall
    unfold SockWorld.next
    cases hacc : s.acceptCall e with
    | mk sock x =>
      obtain ⟨net, ret⟩ := x
      simp only [hacc] at hcall ⊢
      split at hcall
      · exact hcall
      · cases hcall
  obtain ⟨w', hcalls, hhas⟩ := good_served (reachable_good h) hes hw hpending hbads hp hlen
  exact ⟨w', hcalls, h.follow hstep hcalls, hhas⟩

end

theorem readyEnv_serves : Serving readyEnv :=
  ⟨rfl, rfl, ⟨64, rfl, by decide⟩, ⟨64, rfl, by decide⟩⟩

/-- One stranger breaks off behind three bytes, one closes at once, one sends a wrong magic
and one the right magic with a wrong type. The peer comes behind them. -/
def crowdActs : List SockAct :=
  [.accept readyEnv, .strangerOpens, .arrives 0, .strangerSends 0 [7, 0, 0], .resets 0,
    .strangerOpens, .arrives 1, .closes 1,
    .strangerOpens, .arrives 2, .strangerSends 2 (List.replicate 8 1),
    .strangerOpens, .arrives 3, .strangerSends 3 [7, 0, 0, 0, 0, 0, 0, 0, 5, 0, 0, 0],
    .init readyEnv 0, .arrives 4, .connect readyEnv 0]

def crowdedWorld : SockWorld := (runs.follow SockWorld.next crowdActs newWorld).getD newWorld

/-- Four strangers are in front, and nine calls have the peer behind them. -/
theorem four_strangers_are_in_front :
    ∃ w', crowdedWorld.calls (List.replicate 9 readyEnv) = some w' ∧
      runs.Reachable sockSystem w' ∧ w'.Has 4 := by
  have hrun : runs.follow SockWorld.next crowdActs newWorld = some crowdedWorld := rfl
  have hreach : runs.Reachable sockSystem crowdedWorld := reachable_follow (.init newWorld_starts) hrun
  have hwaits : crowdedWorld.Waits := by
    intro sock hsock
    have hstate : crowdedWorld.accepting.map NcclSocket.state = some .Accepting := rfl
    rw [hsock] at hstate
    exact Option.some.inj hstate
  have hpending : crowdedWorld.net.pending = [0, 1, 2, 3] ++ 4 :: [] := rfl
  have hbads : ∀ q ∈ [0, 1, 2, 3],
      Hopeless crowdedWorld.listenSock (crowdedWorld.net.conns q) := by
    unfold Hopeless
    decide
  refine served_in_turn hreach (fun e he => ?_) hwaits hpending hbads ⟨?_, rfl⟩ (by decide)
  · rw [List.eq_of_mem_replicate he]
    exact readyEnv_serves
  · decide

end net_ib.sock
