-- What the accepting side of a socket has taken from its peer. Whatever came before, the
-- connection that is ready has sent the magic and the type, these bytes are received and
-- no others, and what comes next is what its peer sends behind them.
import MrcPlugin.SocketModel

namespace net_ib.sock

open layouts streams

/-! ## The first bytes of a connection -/

/-- The magic and the type. -/
def NcclSocket.hello (sock : NcclSocket) : List Byte :=
  (word 8).encode sock.magic ++ (word 4).encode sock.type

theorem hello_length (sock : NcclSocket) : sock.hello.length = 12 := by
  unfold NcclSocket.hello
  rw [List.length_append, (word 8).length_encode, (word 4).length_encode]
  rfl

theorem hello_take (sock : NcclSocket) : sock.hello.take 8 = (word 8).encode sock.magic := by
  have hlen := (word 8).length_encode sock.magic
  exact List.take_left' hlen

theorem hello_drop (sock : NcclSocket) : sock.hello.drop 8 = (word 4).encode sock.type := by
  have hlen := (word 8).length_encode sock.magic
  exact List.drop_left' hlen

/-- A number whose bytes are there is read. -/
theorem decode_of_take {n a : Nat} {l : List Byte} (ha : a < 256 ^ n)
    (h : l.take n = (word n).encode a) : (word n).decode l = a := by
  change wordValue (l.take n) = a
  rw [h]
  exact wordValue_wordBytes n ha

/-- The magic and the type, one behind the other. -/
theorem hello_of_parts {sock : NcclSocket} {sent : List Byte}
    (hmagic : sent.take 8 = (word 8).encode sock.magic)
    (htype : (sent.drop 8).take 4 = (word 4).encode sock.type) : sent.take 12 = sock.hello := by
  rw [show 12 = 8 + 4 from rfl, List.take_add, hmagic, htype]
  rfl

/-- The peer has closed the connection, or it has broken, or some of its first bytes are
not those of the handshake. -/
def Bad (sock : NcclSocket) (c : Conn) : Prop :=
  c.gone = true ∨ c.reset = true ∨
    ∃ n ≤ 12, n ≤ c.sent.length ∧ c.sent.take n ≠ sock.hello.take n

/-! ## A call of the accepting side -/

/-- What a `recv` has put into the buffer, when `base` bytes came before this message. -/
structure Received (base size offset : Nat) (buffer : List Byte) (c : Conn) (buffer' : List Byte)
    (received : Nat) (c' : Conn) (closed : Bool) : Prop where
  conn : c' = { c with got := base + received }
  length : buffer'.length = buffer.length
  le : received ≤ size
  sent : base + received ≤ c.sent.length
  held : buffer'.take received = (c.sent.drop base).take received
  closed : closed = true → received = offset ∧ (c.gone = true ∨ c.reset = true)

theorem recvProgress_spec (base : Nat) {io : Io} {size offset received : Nat}
    {buffer buffer' : List Byte} {c c' : Conn} {closed : Bool}
    (h : recvProgress io size offset buffer c = .ok (buffer', received, c', closed))
    (hgot : c.got = base + offset) (hle : c.got ≤ c.sent.length) (hoff : offset < size)
    (hsize : size ≤ buffer.length) (hheld : buffer.take offset = (c.sent.drop base).take offset) :
    Received base size offset buffer c buffer' received c' closed := by
  have hstay : ∀ closed : Bool, (closed = true → c.gone = true ∨ c.reset = true) →
      Received base size offset buffer c buffer offset c closed := by
    intro closed hclosed
    refine ⟨?_, rfl, Nat.le_of_lt hoff, by omega, hheld, fun hc => ⟨rfl, hclosed hc⟩⟩
    rw [← hgot]
  have hflow : Flow c.sent c.sent.length (base + offset) c.chan :=
    ⟨by rw [List.take_length, ← hgot]; rfl, by omega, Nat.le_refl _⟩
  unfold recvProgress at h
  cases io with
  | failed => cases h
  | again =>
    cases h
    exact hstay false (fun hf => by cases hf)
  | moves k =>
    simp only at h
    split at h
    · rename_i hfull
      exact absurd hfull (Nat.not_le.mpr hoff)
    split at h
    · cases h
      refine hstay _ fun hc => ?_
      rcases Bool.or_eq_true_iff.mp hc with hreset | hend
      · exact .inr hreset
      · exact .inl (Bool.and_eq_true_iff.mp hend).1
    · cases h
      obtain ⟨hnext, hpart⟩ := hflow.recv hheld (by omega) size k
      refine ⟨by rw [hgot, Nat.add_assoc], ?_, ?_, hnext.got_le, hpart, fun hf => by cases hf⟩
      · refine write_length ?_
        have : offset + inLen size offset k c.chan ≤ size := inLen_le (Nat.le_of_lt hoff)
        rw [List.length_take]
        omega
      · exact inLen_le (Nat.le_of_lt hoff)

/-- The socket has taken a connection and received a part of the magic and the type. -/
structure Held (sock : NcclSocket) (c : Conn) : Prop where
  state : sock.state = .Accepted
  length : sock.finalizeBuffer.length = 8
  got : c.got = sock.finalizeCounter
  lt : sock.finalizeCounter < 12
  le : c.got ≤ c.sent.length
  first : sock.finalizeCounter < 8 → sock.finalizeBuffer.take sock.finalizeCounter =
    c.sent.take sock.finalizeCounter
  magic : 8 ≤ sock.finalizeCounter → c.sent.take 8 = (word 8).encode sock.magic
  second : 8 ≤ sock.finalizeCounter → sock.finalizeBuffer.take (sock.finalizeCounter - 8) =
    (c.sent.drop 8).take (sock.finalizeCounter - 8)

/-- What the end of a call finds. -/
inductive Finalized (sock : NcclSocket) (c : Conn) : NcclSocket → Conn → Prop
  | held {counter : Nat} {buffer : List Byte}
    (h : Held { sock with finalizeCounter := counter, finalizeBuffer := buffer }
      { c with got := counter }) :
    Finalized sock c { sock with finalizeCounter := counter, finalizeBuffer := buffer }
      { c with got := counter }
  | dropped {got : Nat} {buffer : List Byte} (hlen : buffer.length = 8)
    (hgot : got ≤ c.sent.length) (hbad : Bad sock c) :
    Finalized sock c
      { sock with
        finalizeBuffer := buffer
        socketDescriptor := none
        state := .BadHandshake
        finalizeCounter := 0 }
      { c with got := got, dropped := true }
  | ready {buffer : List Byte} (hlen : buffer.length = 8) (hle : 12 ≤ c.sent.length)
    (h : c.sent.take 12 = sock.hello) :
    Finalized sock c
      { sock with finalizeBuffer := buffer, finalizeCounter := 12, state := .Ready }
      { c with got := 12 }

/-- Why a call returns an error: the system, or a peer that has sent the magic and is gone
before the type. -/
def Refused (e : SockEnv) (sock : NcclSocket) (c : Conn) : Prop :=
  e.flagsOk = false ∨ e.first = .failed ∨ e.second = .failed ∨
    (8 ≤ c.sent.length ∧ c.sent.take 8 = (word 8).encode sock.magic ∧
      (c.gone = true ∨ c.reset = true))

/-- An error leaves the connection for the next call. -/
def Errors (e : SockEnv) (sock : NcclSocket) (c : Conn) (sock' : NcclSocket) (ret : NcclResult) :
    Prop :=
  ret ≠ ncclSuccess → Refused e sock c ∧ sock'.state = .Accepted

section
variable {e : SockEnv} {sock sock' : NcclSocket} {c c' : Conn} {ret : NcclResult}

theorem Held.refl (h : Held sock c) : Finalized sock c sock c := by
  have hheld : Finalized sock c
      { sock with finalizeCounter := sock.finalizeCounter, finalizeBuffer := sock.finalizeBuffer }
      { c with got := sock.finalizeCounter } := by
    refine .held ?_
    have hback : { c with got := sock.finalizeCounter } = c := by rw [← h.got]
    rw [hback]
    exact h
  have hback : { c with got := sock.finalizeCounter } = c := by rw [← h.got]
  rw [hback] at hheld
  exact hheld

theorem recvProgress_failed {io : Io} {size offset : Nat} {buffer : List Byte}
    (h : recvProgress io size offset buffer c = .error ret) : io = .failed := by
  unfold recvProgress at h
  cases io with
  | failed => rfl
  | again => cases h
  | moves k =>
    simp only at h
    split at h
    · cases h
    split at h <;> cases h

/-- The part of the call that receives the type. -/
theorem finalizeType_spec (ht : sock.Typed) (h : Held sock c) (hcounter : 8 ≤ sock.finalizeCounter)
    (hcall : finalizeType e sock c = (sock', c', ret)) :
    Finalized sock c sock' c' ∧ Errors e sock c sock' ret := by
  have hlt := h.lt
  have hgot := h.got
  have hle := h.le
  have hlen := h.length
  unfold finalizeType at hcall
  cases hrecv : recvProgress e.second 4 (sock.finalizeCounter - 8) sock.finalizeBuffer c with
  | error r =>
    rw [hrecv] at hcall
    cases hcall
    exact ⟨h.refl, fun _ => ⟨.inr (.inr (.inl (recvProgress_failed hrecv))), h.state⟩⟩
  | ok x =>
    obtain ⟨buffer, received, c1, closed⟩ := x
    have hr := recvProgress_spec 8 hrecv (by omega) hle (by omega) (by omega)
      (h.second hcounter)
    obtain rfl := hr.conn
    have hsent := hr.sent
    have hroom := hr.le
    rw [hrecv] at hcall
    simp only at hcall
    split at hcall
    · rename_i hclosed
      obtain ⟨hsame, hgone⟩ := hr.closed hclosed
      cases hcall
      have hback : { c with got := 8 + received } = c := by
        rw [hsame, show 8 + (sock.finalizeCounter - 8) = c.got from by omega]
      rw [hback]
      exact ⟨h.refl, fun _ =>
        ⟨.inr (.inr (.inr ⟨by omega, h.magic hcounter, hgone⟩)), h.state⟩⟩
    split at hcall
    · rename_i hshort
      cases hcall
      refine ⟨?_, fun hne => absurd rfl hne⟩
      rw [Nat.add_comm 8 received]
      refine .held ?_
      exact
        { state := h.state
          length := hr.length.trans hlen
          got := rfl
          lt := by simp only; omega
          le := by simp only; omega
          first := fun hf => by simp only at hf; omega
          magic := fun _ => h.magic hcounter
          second := fun _ => by
            simp only [Nat.add_sub_cancel]
            exact hr.held }
    rename_i hwhole
    have hfour : received = 4 := by omega
    subst hfour
    split at hcall
    · rename_i htype
      cases hcall
      refine ⟨?_, fun hne => absurd rfl hne⟩
      refine .dropped (hr.length.trans hlen) hsent (.inr (.inr ⟨12, Nat.le_refl 12, hsent, ?_⟩))
      -- With the bytes of the handshake the type would be the right one.
      intro hsame
      refine htype (decode_of_take ht.type ?_)
      have hdrop := congrArg (List.drop 8) hsame
      rw [List.take_of_length_le (le_of_eq (hello_length sock)), hello_drop, List.drop_take] at hdrop
      rw [hr.held]
      exact hdrop
    · rename_i htype
      rw [not_not] at htype
      cases hcall
      refine ⟨.ready (hr.length.trans hlen) hsent (hello_of_parts (h.magic hcounter) ?_),
        fun hne => absurd rfl hne⟩
      rw [← hr.held]
      exact word_decode_eq (by rw [hr.length]; omega) htype

/-- What was received before in the call does not matter for its end. -/
theorem Finalized.before {counter got : Nat} {buffer : List Byte}
    (h : Finalized { sock with finalizeCounter := counter, finalizeBuffer := buffer }
      { c with got } sock' c') : Finalized sock c sock' c' := by
  cases h with
  | held h => exact .held h
  | dropped hlen hgot hbad => exact .dropped hlen hgot hbad
  | ready hlen hle h => exact .ready hlen hle h

theorem finalizeAccept_spec (ht : sock.Typed) (h : Held sock c)
    (hcall : socketFinalizeAccept e sock c = (sock', c', ret)) :
    Finalized sock c sock' c' ∧ Errors e sock c sock' ret := by
  have hlen := h.length
  unfold socketFinalizeAccept at hcall
  split at hcall
  · rename_i hflags
    cases hcall
    rw [Bool.not_eq_true'] at hflags
    exact ⟨h.refl, fun _ => ⟨.inl hflags, h.state⟩⟩
  split at hcall
  case isFalse hcounter => exact finalizeType_spec ht h (by omega) hcall
  rename_i hcounter
  cases hrecv : recvProgress e.first 8 sock.finalizeCounter sock.finalizeBuffer c with
  | error r =>
    rw [hrecv] at hcall
    cases hcall
    exact ⟨h.refl, fun _ => ⟨.inr (.inl (recvProgress_failed hrecv)), h.state⟩⟩
  | ok x =>
    obtain ⟨buffer, received, c1, closed⟩ := x
    have hr := recvProgress_spec 0 hrecv (by rw [Nat.zero_add, h.got]) h.le hcounter
      (by omega) (h.first hcounter)
    obtain rfl := hr.conn
    have hsent := hr.sent
    have hroom := hr.le
    have hheld := hr.held
    rw [List.drop_zero] at hheld
    rw [Nat.zero_add] at hsent
    rw [hrecv] at hcall
    simp only [Nat.zero_add] at hcall
    split at hcall
    · rename_i hshort
      split at hcall
      · rename_i hclosed
        cases hcall
        refine ⟨.dropped (hr.length.trans hlen) hsent ?_, fun hne => absurd rfl hne⟩
        exact (hr.closed hclosed).2.elim .inl fun hreset => .inr (.inl hreset)
      · cases hcall
        refine ⟨.held ?_, fun hne => absurd rfl hne⟩
        exact
          { state := h.state
            length := hr.length.trans hlen
            got := rfl
            lt := by simp only; omega
            le := hsent
            first := fun _ => hheld
            magic := fun hge => by simp only at hge; omega
            second := fun hge => by simp only at hge; omega }
    have height : received = 8 := by omega
    subst height
    split at hcall
    · rename_i hmagic
      cases hcall
      refine ⟨.dropped (hr.length.trans hlen) hsent (.inr (.inr ⟨8, by omega, hsent, ?_⟩)),
        fun hne => absurd rfl hne⟩
      intro hsame
      rw [hello_take, ← hheld] at hsame
      exact hmagic (decode_of_take ht.magic hsame)
    · rename_i hmagic
      rw [not_not] at hmagic
      have htake : c.sent.take 8 = (word 8).encode sock.magic := by
        rw [← hheld]
        exact word_decode_eq (by rw [hr.length]; omega) hmagic
      -- The call goes on with the type.
      have hnext : Held { sock with finalizeBuffer := buffer, finalizeCounter := 8 }
          { c with got := 8 } :=
        { state := h.state
          length := hr.length.trans hlen
          got := rfl
          lt := by simp only; omega
          le := hsent
          first := fun hlt => by simp only at hlt; omega
          magic := fun _ => htake
          second := fun _ => by simp only [Nat.sub_self, List.take_zero] }
      have ht' : NcclSocket.Typed { sock with finalizeBuffer := buffer, finalizeCounter := 8 } :=
        ⟨ht.magic, ht.type⟩
      obtain ⟨hfinal, hrefused⟩ := finalizeType_spec ht' hnext (Nat.le_refl 8) hcall
      exact ⟨hfinal.before, hrefused⟩

end

/-! ## The invariant of the accepting side -/

/-- The connection is taken by the accepting side. -/
structure Taken (net : Net) (p : Nat) : Prop where
  lt : p < net.next
  established : (net.conns p).established = true
  kept : (net.conns p).dropped = false
  gone : p ∉ net.pending

/-- The connection that is ready. -/
structure Welcome (sock : NcclSocket) (c : Conn) : Prop where
  state : sock.state = .Ready
  got : c.got = 12
  le : 12 ≤ c.sent.length
  hello : c.sent.take 12 = sock.hello

/-- The socket that accepts, for a socket that listens. -/
structure AcceptOk (listenSock : NcclSocket) (net : Net) (sock : NcclSocket) : Prop where
  magic : sock.magic = listenSock.magic
  type : sock.type = listenSock.type
  length : sock.finalizeBuffer.length = 8
  phase : (sock.state = .Accepting ∧ sock.finalizeCounter = 0) ∨
    ∃ p, sock.socketDescriptor = some p ∧ Taken net p ∧
      (Held sock (net.conns p) ∨ Welcome sock (net.conns p))

/-- The connections, as far as the accepting side is concerned. -/
structure NetOk (listenSock : NcclSocket) (net : Net) : Prop where
  counted : ∀ p, (net.conns p).got ≤ (net.conns p).sent.length
  pending : ∀ p ∈ net.pending, p < net.next ∧ (net.conns p).established = true ∧
    (net.conns p).got = 0 ∧ (net.conns p).dropped = false
  nodup : net.pending.Nodup
  waiting : ∀ p, (net.conns p).established = false →
    (net.conns p).got = 0 ∧ (net.conns p).dropped = false
  bad : ∀ p, (net.conns p).dropped = true → p < net.next ∧ Bad listenSock (net.conns p)

/-- What the accepting side never touches. -/
structure SamePeers (net net' : Net) : Prop where
  next : net'.next = net.next
  conns : ∀ p, ∃ got dropped, net'.conns p = { net.conns p with got, dropped }

theorem AcceptOk.hello {listenSock sock : NcclSocket} {net : Net} (h : AcceptOk listenSock net sock) :
    sock.hello = listenSock.hello := by
  unfold NcclSocket.hello
  rw [h.magic, h.type]

theorem SamePeers.refl (net : Net) : SamePeers net net := ⟨rfl, fun _ => ⟨_, _, rfl⟩⟩

section
variable {e : SockEnv} {listenSock sock sock' : NcclSocket} {net net' : Net} {ret : NcclResult}
  {p : Nat}

theorem bad_hello {c : Conn} (h : sock.hello = listenSock.hello) (hbad : Bad sock c) :
    Bad listenSock c := by
  unfold Bad at hbad ⊢
  rw [← h]
  exact hbad

/-- The call with the connection that the socket holds. -/
theorem finalize_ok (hl : listenSock.Typed) (hn : NetOk listenSock net)
    (hs : AcceptOk listenSock net sock) (hdesc : sock.socketDescriptor = some p)
    (ht : Taken net p) (hheld : Held sock (net.conns p)) {c' : Conn}
    (hcall : socketFinalizeAccept e sock (net.conns p) = (sock', c', ret)) :
    NetOk listenSock (net.setConn p c') ∧
      AcceptOk listenSock (net.setConn p c') (if ret = ncclSuccess then retryAccept sock' else sock') ∧
      SamePeers net (net.setConn p c') ∧ (ret ≠ ncclSuccess → Refused e listenSock (net.conns p)) := by
  have htyped : sock.Typed := ⟨hs.magic ▸ hl.magic, hs.type ▸ hl.type⟩
  obtain ⟨hfinal, herrors⟩ := finalizeAccept_spec htyped hheld hcall
  have hself : (net.setConn p c').conns p = c' := Function.update_self ..
  have hother : ∀ q, q ≠ p → (net.setConn p c').conns q = net.conns q :=
    fun q hq => Function.update_of_ne hq ..
  -- Of the connection only `got` and `dropped` have changed.
  have hc' : (∃ got dropped, c' = { net.conns p with got, dropped }) ∧
      c'.got ≤ c'.sent.length ∧ (c'.dropped = true → Bad listenSock c') := by
    cases hfinal with
    | held h => exact ⟨⟨_, _, rfl⟩, h.le, fun hd => by rw [ht.kept] at hd; cases hd⟩
    | dropped _ hgot hbad => exact ⟨⟨_, _, rfl⟩, hgot, fun _ => bad_hello hs.hello hbad⟩
    | ready _ hle _ => exact ⟨⟨_, _, rfl⟩, hle, fun hd => by rw [ht.kept] at hd; cases hd⟩
  obtain ⟨⟨got, dropped, hrec⟩, hle, hbad⟩ := hc'
  have hest : c'.established = true := by
    rw [hrec]
    exact ht.established
  refine ⟨?_, ?_, ⟨rfl, fun q => ?_⟩, fun hne => ?_⟩
  · refine ⟨fun q => ?_, fun q hq => ?_, hn.nodup, fun q hq => ?_, fun q hq => ?_⟩
    · by_cases hqp : q = p
      · rw [hqp, hself]
        exact hle
      · rw [hother q hqp]
        exact hn.counted q
    · have hqp : q ≠ p := fun h => ht.gone (h ▸ hq)
      rw [hother q hqp]
      exact hn.pending q hq
    · by_cases hqp : q = p
      · rw [hqp, hself, hest] at hq
        cases hq
      · rw [hother q hqp] at hq ⊢
        exact hn.waiting q hq
    · by_cases hqp : q = p
      · rw [hqp, hself] at hq ⊢
        exact ⟨ht.lt, hbad hq⟩
      · rw [hother q hqp] at hq ⊢
        exact hn.bad q hq
  · have htaken : c'.dropped = false → Taken (net.setConn p c') p := fun hkept =>
      ⟨ht.lt, by rw [hself]; exact hest, by rw [hself]; exact hkept, ht.gone⟩
    cases hfinal with
    | held h =>
      have hretry : ∀ s : NcclSocket, s.state = .Accepted → retryAccept s = s := by
        intro s hstate
        unfold retryAccept
        rw [if_neg (by rw [hstate]; decide)]
      rw [hretry _ h.state, ite_self]
      refine ⟨hs.magic, hs.type, h.length, .inr ⟨p, hdesc, htaken ht.kept, .inl ?_⟩⟩
      rw [hself]
      exact h
    | dropped hlen _ _ =>
      have hret : ret = ncclSuccess := by
        by_contra hne
        have hstate := (herrors hne).2
        cases hstate
      rw [if_pos hret]
      exact ⟨hs.magic, hs.type, hlen, .inl ⟨rfl, rfl⟩⟩
    | ready hlen hle12 hhello =>
      have hret : ret = ncclSuccess := by
        by_contra hne
        have hstate := (herrors hne).2
        cases hstate
      rw [if_pos hret]
      refine ⟨hs.magic, hs.type, hlen, .inr ⟨p, hdesc, htaken ht.kept, .inr ?_⟩⟩
      rw [hself]
      exact ⟨rfl, rfl, hle12, hhello⟩
  · by_cases hqp : q = p
    · rw [hqp, hself]
      exact ⟨got, dropped, hrec⟩
    · rw [hother q hqp]
      exact ⟨_, _, rfl⟩
  · have hrefused := (herrors hne).1
    unfold Refused at hrefused ⊢
    rw [hs.magic] at hrefused
    exact hrefused

/-- Why a call of the accepting side returns an error. -/
def AcceptError (e : SockEnv) (listenSock : NcclSocket) (net : Net) : Prop :=
  e.accept = .failed ∨ e.accept = .retries ∨ ∃ p, Refused e listenSock (net.conns p)

theorem progressAccept_ok (hl : listenSock.Typed) (hn : NetOk listenSock net)
    (hs : AcceptOk listenSock net sock) (hcall : progressAccept e sock net = (sock', net', ret)) :
    NetOk listenSock net' ∧
      AcceptOk listenSock net' (if ret = ncclSuccess then retryAccept sock' else sock') ∧
      SamePeers net net' ∧ (ret ≠ ncclSuccess → AcceptError e listenSock net) := by
  -- A socket that waits for a connection goes on waiting.
  have hwait : ∀ s : NcclSocket, s.magic = sock.magic → s.type = sock.type →
      s.finalizeBuffer = sock.finalizeBuffer → s.state = .Accepting → s.finalizeCounter = 0 →
      AcceptOk listenSock net (if ret = ncclSuccess then retryAccept s else s) := by
    intro s hm hty hb hstate hzero
    have hretry : retryAccept s = s := by
      unfold retryAccept
      rw [if_neg (by rw [hstate]; decide)]
    rw [hretry, ite_self]
    exact ⟨hm.trans hs.magic, hty.trans hs.type, by rw [hb]; exact hs.length, .inl ⟨hstate, hzero⟩⟩
  rcases hs.phase with ⟨hstate, hzero⟩ | ⟨p, hdesc, htaken, hheld | hwelcome⟩
  · unfold progressAccept at hcall
    rw [if_pos hstate] at hcall
    unfold ncclOsSocketTryAccept at hcall
    cases haccept : e.accept with
    | takes =>
      cases hpending : net.pending with
      | nil =>
        simp only [haccept, hpending, hstate] at hcall
        rw [if_pos (.inr (by decide))] at hcall
        cases hcall
        exact ⟨hn, hwait _ rfl rfl rfl rfl hzero, SamePeers.refl _, fun hne => absurd rfl hne⟩
      | cons p rest =>
        simp only [haccept, hpending] at hcall
        rw [if_neg (by simp)] at hcall
        obtain ⟨hlt, hest, hgot, hkept⟩ := hn.pending p (by rw [hpending]; exact List.mem_cons_self)
        have hnodup := hn.nodup
        rw [hpending] at hnodup
        obtain ⟨hnot, hrest⟩ := List.nodup_cons.mp hnodup
        have hn1 : NetOk listenSock { net with pending := rest } :=
          ⟨hn.counted, fun q hq => hn.pending q (by rw [hpending]; exact List.mem_cons_of_mem _ hq),
            hrest, hn.waiting, hn.bad⟩
        have ht1 : Taken { net with pending := rest } p := ⟨hlt, hest, hkept, hnot⟩
        have hheld : Held { sock with socketDescriptor := some p, state := .Accepted }
            (net.conns p) :=
          { state := rfl
            length := hs.length
            got := hgot.trans hzero.symm
            lt := by simp only [hzero]; decide
            le := hn.counted p
            first := fun _ => by simp only [hzero, List.take_zero]
            magic := fun hge => by simp only [hzero] at hge; omega
            second := fun hge => by simp only [hzero] at hge; omega }
        have hs1 : AcceptOk listenSock { net with pending := rest }
            { sock with socketDescriptor := some p, state := .Accepted } :=
          ⟨hs.magic, hs.type, hs.length, .inr ⟨p, rfl, ht1, .inl hheld⟩⟩
        cases hf : socketFinalizeAccept e { sock with socketDescriptor := some p, state := .Accepted }
          (net.conns p) with
        | mk s2 x =>
          obtain ⟨c2, r2⟩ := x
          simp only [hf] at hcall
          cases hcall
          obtain ⟨hnet, hsock, hpeers, herr⟩ := finalize_ok hl hn1 hs1 rfl ht1 hheld hf
          exact ⟨hnet, hsock, ⟨hpeers.next, hpeers.conns⟩,
            fun hne => .inr (.inr ⟨p, herr hne⟩)⟩
    | again =>
      simp only [haccept, hstate] at hcall
      rw [if_pos (.inr (by decide))] at hcall
      cases hcall
      exact ⟨hn, hwait _ rfl rfl rfl rfl hzero, SamePeers.refl _, fun hne => absurd rfl hne⟩
    | retries =>
      simp only [haccept, hstate] at hcall
      rw [if_pos (.inr (by decide))] at hcall
      cases hcall
      exact ⟨hn, hwait _ rfl rfl rfl rfl hzero, SamePeers.refl _, fun _ => .inr (.inl haccept)⟩
    | failed =>
      simp only [haccept, hstate] at hcall
      rw [if_pos (.inr (by decide))] at hcall
      cases hcall
      exact ⟨hn, hwait _ rfl rfl rfl rfl hzero, SamePeers.refl _, fun _ => .inl haccept⟩
  · unfold progressAccept at hcall
    rw [if_neg (by rw [hheld.state]; decide)] at hcall
    simp only [hheld.state, hdesc] at hcall
    rw [if_neg (by simp)] at hcall
    cases hf : socketFinalizeAccept e sock (net.conns p) with
    | mk s2 x =>
      obtain ⟨c2, r2⟩ := x
      simp only [hf] at hcall
      cases hcall
      obtain ⟨hnet, hsock, hpeers, herr⟩ := finalize_ok hl hn hs hdesc htaken hheld hf
      exact ⟨hnet, hsock, hpeers, fun hne => .inr (.inr ⟨p, herr hne⟩)⟩
  · unfold progressAccept at hcall
    rw [if_neg (by rw [hwelcome.state]; decide)] at hcall
    simp only [hwelcome.state] at hcall
    rw [if_pos (.inr (by decide))] at hcall
    cases hcall
    have hretry : retryAccept sock = sock := by
      unfold retryAccept
      rw [if_neg (by rw [hwelcome.state]; decide)]
    rw [hretry, ite_self]
    exact ⟨hn, hs, SamePeers.refl _, fun hne => absurd rfl hne⟩

end

end net_ib.sock
