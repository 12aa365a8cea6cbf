-- The sockets of the transport (misc/socket.cc, os/linux.cc), which never block. A side
-- that connects sends the magic and the type first. A side that accepts takes one
-- connection after the other, until one has sent both.
import MrcPlugin.Basic
import MrcPlugin.Lib.Layouts
import MrcPlugin.Lib.Streams
import MrcPlugin.Lib.Runs
import Mathlib.Logic.Function.Basic

namespace net_ib.sock

open layouts streams

/-! ## The data -/

/-- `ncclSocketState`. -/
inductive NcclSocketState
  | None
  | Initialized
  | Accepting
  | Accepted
  | Connecting
  | ConnectPolling
  | Connected
  | Ready
  | Terminating
  | Closed
  | Error
  | BadHandshake
deriving DecidableEq, Repr

/-- `ncclSocket` with `asyncFlag` set and no `abortFlag`. The descriptor is the connection
that it stands for, and `none` when it is not valid. -/
structure NcclSocket where
  socketDescriptor : Option Nat
  errorRetries : Nat
  state : NcclSocketState
  magic : Nat
  type : Nat
  customRetry : Bool
  finalizeCounter : Nat
  finalizeBuffer : List Byte

/-- A connection, from the side that connects to the side that accepts. `owner` is the
socket that opened it, and `none` for a program that is not this one. `payload` is what
its owner has sent behind the magic and the type. The side that connects may close it
(`gone`), and the side that accepts too (`dropped`). -/
structure Conn where
  owner : Option Nat
  established : Bool
  sent : List Byte
  got : Nat
  gone : Bool
  reset : Bool
  dropped : Bool
  payload : List Byte

def Conn.opened (owner : Option Nat) : Conn := ⟨owner, false, [], 0, false, false, false, []⟩

/-- What has come and is not received. -/
def Conn.chan (c : Conn) : List Byte := c.sent.drop c.got

/-- The connections of the network: those that wait for an `accept`, in their order, and
the next new one. -/
structure Net where
  conns : Nat → Conn
  pending : List Nat
  next : Nat

def Net.setConn (net : Net) (p : Nat) (c : Conn) : Net :=
  { net with conns := Function.update net.conns p c }

/-- What the system does with a `recv` or a `send`: it moves so many bytes at most, it
asks to try again, or it fails. -/
inductive Io
  | moves (k : Nat)
  | again
  | failed
deriving DecidableEq, Repr

/-- What the system does with an `accept`. The errors of `retries` are counted. -/
inductive AcceptResult
  | takes
  | again
  | retries
  | failed
deriving DecidableEq, Repr

/-- The error of a `connect`, as `socketConnectCheck` tells them apart. -/
inductive ConnectResult
  | ok
  | inProgress
  | retries
  | failed
deriving DecidableEq, Repr

/-- What a `poll` tells, and the error of the socket behind it. -/
inductive PollResult
  | waits
  | failed
  | done (errCode : ConnectResult)
deriving DecidableEq, Repr

/-- What the system does in one call, and `NCCL_SOCKET_RETRY_CNT`. -/
structure SockEnv where
  accept : AcceptResult
  connect : ConnectResult
  poll : PollResult
  flagsOk : Bool
  socketOk : Bool
  first : Io
  second : Io
  retryCnt : Nat

/-! ## The bytes -/

/-- `ncclOsSocketProgressOpt` that receives. A `recv` of no bytes, or of a connection that
is at its end, tells that the peer has closed it. The bytes that came before a reset are
given before it is told. -/
def recvProgress (io : Io) (size offset : Nat) (buffer : List Byte) (c : Conn) :
    Except NcclResult (List Byte × Nat × Conn × Bool) :=
  match io with
  | .failed => .error ncclRemoteError
  | .again => .ok (buffer, offset, c, false)
  | .moves k =>
    if size ≤ offset then .ok (buffer, offset, c, true)
    else
      let n := inLen size offset k c.chan
      if n = 0 then .ok (buffer, offset, c, c.reset || (c.gone && c.chan.isEmpty))
      else
        .ok (write buffer offset (c.chan.take n), offset + n, { c with got := c.got + n }, false)

/-- `ncclOsSocketProgressOpt` that sends. -/
def sendProgress (io : Io) (msg : List Byte) (offset : Nat) (c : Conn) :
    Except NcclResult (Nat × Conn × Bool) :=
  match io with
  | .failed => .error ncclRemoteError
  | .again => .ok (offset, c, false)
  | .moves k =>
    if c.reset then .ok (offset, c, true)
    else
      .ok (offset + outLen msg.length offset k,
        { c with sent := c.sent ++ outPiece msg msg.length offset k }, false)

/-! ## The side that accepts -/

/-- `ncclOsSocketResetAccept`. -/
def ncclOsSocketResetAccept (sock : NcclSocket) (c : Conn) : NcclSocket × Conn × NcclResult :=
  ({ sock with socketDescriptor := none, state := .BadHandshake, finalizeCounter := 0 },
    { c with dropped := true }, ncclSuccess)

/-- `ncclOsSocketTryAccept`. -/
def ncclOsSocketTryAccept (e : SockEnv) (sock : NcclSocket) (net : Net) :
    NcclSocket × Net × NcclResult :=
  match e.accept, net.pending with
  | .takes, p :: rest =>
    ({ sock with socketDescriptor := some p, state := .Accepted }, { net with pending := rest },
      ncclSuccess)
  | .takes, [] => ({ sock with socketDescriptor := none }, net, ncclSuccess)
  | .again, _ => ({ sock with socketDescriptor := none }, net, ncclSuccess)
  | .retries, _ =>
    let sock := { sock with socketDescriptor := none, errorRetries := sock.errorRetries + 1 }
    (sock, net, if sock.errorRetries = e.retryCnt then ncclSystemError else ncclSuccess)
  | .failed, _ => ({ sock with socketDescriptor := none }, net, ncclSystemError)

/-- `socketFinalizeAccept` from the type on. -/
def finalizeType (e : SockEnv) (sock : NcclSocket) (c : Conn) : NcclSocket × Conn × NcclResult :=
  match recvProgress e.second 4 (sock.finalizeCounter - 8) sock.finalizeBuffer c with
  | .error ret => (sock, c, ret)
  | .ok (buffer, received, c, closed) =>
    if closed then (sock, c, ncclRemoteError)
    else
      let sock := { sock with finalizeBuffer := buffer, finalizeCounter := received + 8 }
      if received < 4 then (sock, c, ncclSuccess)
      else if (word 4).decode buffer ≠ sock.type then ncclOsSocketResetAccept sock c
      else ({ sock with state := .Ready }, c, ncclSuccess)

/-- `socketFinalizeAccept`. -/
def socketFinalizeAccept (e : SockEnv) (sock : NcclSocket) (c : Conn) :
    NcclSocket × Conn × NcclResult :=
  if !e.flagsOk then (sock, c, ncclSystemError)
  else if sock.finalizeCounter < 8 then
    match recvProgress e.first 8 sock.finalizeCounter sock.finalizeBuffer c with
    | .error ret => (sock, c, ret)
    | .ok (buffer, received, c, closed) =>
      let sock := { sock with finalizeBuffer := buffer, finalizeCounter := received }
      if received < 8 then
        if closed then ncclOsSocketResetAccept sock c else (sock, c, ncclSuccess)
      else if (word 8).decode buffer ≠ sock.magic then ncclOsSocketResetAccept sock c
      else finalizeType e sock c
  else finalizeType e sock c

/-- `socketProgressState` of a socket that accepts. -/
def progressAccept (e : SockEnv) (sock : NcclSocket) (net : Net) : NcclSocket × Net × NcclResult :=
  let (sock, net, ret) :=
    if sock.state = .Accepting then ncclOsSocketTryAccept e sock net else (sock, net, ncclSuccess)
  if ret ≠ ncclSuccess ∨ sock.state ≠ .Accepted then (sock, net, ret)
  else
    match sock.socketDescriptor with
    | none => (sock, net, ncclInvalidArgument)
    | some p =>
      let (sock, c, ret) := socketFinalizeAccept e sock (net.conns p)
      (sock, net.setConn p c, ret)

/-- `BadHandshake` is left for the next `accept`. -/
def retryAccept (sock : NcclSocket) : NcclSocket :=
  if sock.state = .BadHandshake then { sock with state := .Accepting } else sock

/-- `ncclSocketReady` of a socket that accepts. After an error the state stays. -/
def ncclSocketReady (e : SockEnv) (sock : NcclSocket) (net : Net) : NcclSocket × Net × NcclResult :=
  if sock.state = .Error ∨ sock.state = .Closed then (sock, net, ncclRemoteError)
  else if sock.state = .Ready then (sock, net, ncclSuccess)
  else
    let (sock, net, ret) := progressAccept e sock net
    (if ret = ncclSuccess then retryAccept sock else sock, net, ret)

/-- `ncclSocketAccept` of a new socket. -/
def ncclSocketAccept (e : SockEnv) (listenSock : NcclSocket) (net : Net) :
    NcclSocket × Net × NcclResult :=
  let sock := { listenSock with state := .Accepting, finalizeCounter := 0 }
  let (sock, net, ret) := progressAccept e sock net
  (if ret = ncclSuccess then retryAccept sock else sock, net, ret)

/-! ## The side that connects -/

/-- `ncclOsSocketResetFd`: the descriptor stands for a new connection. -/
def ncclOsSocketResetFd (e : SockEnv) (j : Nat) (sock : NcclSocket) (net : Net) :
    NcclSocket × Net × NcclResult :=
  if !e.socketOk then (sock, net, ncclSystemError)
  else
    ({ sock with socketDescriptor := some net.next },
      { net with
        conns := Function.update net.conns net.next (Conn.opened (some j))
        next := net.next + 1 },
      if e.flagsOk then ncclSuccess else ncclSystemError)

/-- `socketConnectCheck`. -/
def socketConnectCheck (e : SockEnv) (j : Nat) (errCode : ConnectResult) (sock : NcclSocket)
    (net : Net) : NcclSocket × Net × NcclResult :=
  match errCode with
  | .ok => ({ sock with state := .Connected }, net, ncclSuccess)
  | .inProgress => ({ sock with state := .ConnectPolling }, net, ncclSuccess)
  | .retries =>
    if !sock.customRetry ∧ sock.errorRetries = e.retryCnt then
      ({ sock with state := .Error, errorRetries := sock.errorRetries + 1 }, net, ncclRemoteError)
    else
      let sock := if sock.customRetry then sock
        else { sock with errorRetries := sock.errorRetries + 1 }
      let (sock, net, ret) := ncclOsSocketResetFd e j sock net
      (if ret = ncclSuccess then { sock with state := .Connecting } else sock, net, ret)
  | .failed => ({ sock with state := .Error }, net, ncclSystemError)

/-- A connection that is not established is still in progress. -/
def Conn.answers (c : Conn) : ConnectResult → ConnectResult
  | .ok => if c.established then .ok else .inProgress
  | r => r

/-- `ncclOsSocketStartConnect`. -/
def ncclOsSocketStartConnect (e : SockEnv) (j p : Nat) (sock : NcclSocket) (net : Net) :
    NcclSocket × Net × NcclResult :=
  socketConnectCheck e j ((net.conns p).answers e.connect) sock net

/-- `ncclOsSocketPollConnect`. -/
def ncclOsSocketPollConnect (e : SockEnv) (j p : Nat) (sock : NcclSocket) (net : Net) :
    NcclSocket × Net × NcclResult :=
  match e.poll with
  | .waits => (sock, net, ncclSuccess)
  | .failed => (sock, net, ncclSystemError)
  | .done errCode => socketConnectCheck e j ((net.conns p).answers errCode) sock net

/-- `socketFinalizeConnect` from the type on. -/
def sendType (e : SockEnv) (sock : NcclSocket) (c : Conn) : NcclSocket × Conn × NcclResult :=
  match sendProgress e.second ((word 4).encode sock.type) (sock.finalizeCounter - 8) c with
  | .error ret => (sock, c, ret)
  | .ok (sent, c, closed) =>
    if closed then (sock, c, ncclRemoteError)
    else
      let sock := { sock with finalizeCounter := sent + 8 }
      (if sent < 4 then sock else { sock with state := .Ready }, c, ncclSuccess)

/-- `socketFinalizeConnect`. -/
def socketFinalizeConnect (e : SockEnv) (sock : NcclSocket) (c : Conn) :
    NcclSocket × Conn × NcclResult :=
  if sock.finalizeCounter < 8 then
    match sendProgress e.first ((word 8).encode sock.magic) sock.finalizeCounter c with
    | .error ret => (sock, c, ret)
    | .ok (sent, c, closed) =>
      if closed then (sock, c, ncclRemoteError)
      else
        let sock := { sock with finalizeCounter := sent }
        if sent < 8 then (sock, c, ncclSuccess) else sendType e sock c
  else sendType e sock c

/-- `socketProgressState` of socket `j`, which connects. -/
def progressConnect (e : SockEnv) (j : Nat) (sock : NcclSocket) (net : Net) :
    NcclSocket × Net × NcclResult :=
  match sock.socketDescriptor with
  | none => (sock, net, ncclSystemError)
  | some p =>
    let (sock, net, ret) :=
      if sock.state = .Connecting then ncclOsSocketStartConnect e j p sock net
      else (sock, net, ncclSuccess)
    if ret ≠ ncclSuccess then (sock, net, ret)
    else
      let (sock, net, ret) :=
        if sock.state = .ConnectPolling then ncclOsSocketPollConnect e j p sock net
        else (sock, net, ncclSuccess)
      if ret ≠ ncclSuccess ∨ sock.state ≠ .Connected then (sock, net, ret)
      else
        let (sock, c, ret) := socketFinalizeConnect e sock (net.conns p)
        (sock, net.setConn p c, ret)

/-- A call of `ncclSocketConnect` or `ncclSocketReady` for socket `j`, which connects. -/
def connectCall (e : SockEnv) (j : Nat) (sock : NcclSocket) (net : Net) :
    NcclSocket × Net × NcclResult :=
  match sock.state with
  | .Initialized => progressConnect e j { sock with state := .Connecting, finalizeCounter := 0 } net
  | .Error | .Closed => (sock, net, ncclRemoteError)
  | .Ready => (sock, net, ncclSuccess)
  | _ => progressConnect e j sock net

/-- `ncclSocketInit` of socket `j` with an address. -/
def ncclSocketInit (e : SockEnv) (j : Nat) (sock : NcclSocket) (net : Net) : NcclSocket × Net :=
  let sock := { sock with errorRetries := 0, state := .Initialized, socketDescriptor := none }
  let (sock, net, ret) := ncclOsSocketResetFd e j sock net
  (if ret = ncclSuccess then sock else { sock with state := .Closed, socketDescriptor := none }, net)

/-! ## The runs -/

/-- The socket that listens, the one that accepts once it is there, the ones that connect,
and the network. -/
structure SockWorld where
  listenSock : NcclSocket
  accepting : Option NcclSocket
  connecting : Nat → NcclSocket
  net : Net

/-- A call for a socket of the transport, or what else happens on the network: a peer sends
what is behind the handshake, a connection reaches the side that listens, a program that is
not this one opens a connection or sends any bytes, a peer closes, a connection breaks. -/
inductive SockAct
  | accept (e : SockEnv)
  | init (e : SockEnv) (j : Nat)
  | connect (e : SockEnv) (j : Nat)
  | payload (j : Nat) (bytes : List Byte)
  | arrives (p : Nat)
  | strangerOpens
  | strangerSends (p : Nat) (bytes : List Byte)
  | closes (p : Nat)
  | resets (p : Nat)

/-- The call of the accepting side. -/
def SockWorld.acceptCall (w : SockWorld) (e : SockEnv) : NcclSocket × Net × NcclResult :=
  match w.accepting with
  | none => ncclSocketAccept e w.listenSock w.net
  | some sock => ncclSocketReady e sock w.net

def SockWorld.next : SockAct → SockWorld → Option SockWorld
  | .accept e, w =>
    let (sock, net, _) := w.acceptCall e
    some { w with accepting := some sock, net }
  | .init e j, w =>
    if (w.connecting j).state = .None then
      let (sock, net) := ncclSocketInit e j (w.connecting j) w.net
      some { w with connecting := Function.update w.connecting j sock, net }
    else none
  | .connect e j, w =>
    if (w.connecting j).state = .None then none
    else
      let (sock, net, _) := connectCall e j (w.connecting j) w.net
      some { w with connecting := Function.update w.connecting j sock, net }
  | .payload j bytes, w =>
    match (w.connecting j).state, (w.connecting j).socketDescriptor with
    | .Ready, some p =>
      let c := w.net.conns p
      let c := { c with sent := c.sent ++ bytes, payload := c.payload ++ bytes }
      some { w with net := w.net.setConn p c }
    | _, _ => none
  | .arrives p, w =>
    let c := w.net.conns p
    if p < w.net.next ∧ c.established = false then
      let net := w.net.setConn p { c with established := true }
      some { w with net := { net with pending := w.net.pending ++ [p] } }
    else none
  | .strangerOpens, w =>
    let net := w.net.setConn w.net.next (Conn.opened none)
    some { w with net := { net with next := w.net.next + 1 } }
  | .strangerSends p bytes, w =>
    let c := w.net.conns p
    if p < w.net.next ∧ c.owner = none then
      some { w with net := w.net.setConn p { c with sent := c.sent ++ bytes } }
    else none
  | .closes p, w =>
    if p < w.net.next then
      some { w with net := w.net.setConn p { w.net.conns p with gone := true } }
    else none
  | .resets p, w =>
    if p < w.net.next then
      some { w with net := w.net.setConn p { w.net.conns p with reset := true } }
    else none

/-- The magic and the type have their C types. -/
structure NcclSocket.Typed (sock : NcclSocket) : Prop where
  magic : sock.magic < 2 ^ 64
  type : sock.type < 2 ^ 32

/-- The socket listens, and nothing else has begun. -/
structure StartSock (w : SockWorld) : Prop where
  listen : w.listenSock.Typed ∧ w.listenSock.finalizeBuffer.length = 8
  accepting : w.accepting = none
  connecting : ∀ j, (w.connecting j).state = .None ∧ (w.connecting j).socketDescriptor = none ∧
    (w.connecting j).Typed
  pending : w.net.pending = []
  conns : ∀ p, w.net.conns p = Conn.opened none
  next : w.net.next = 0

def sockSystem : runs.System SockWorld where
  init := StartSock
  step := fun w w' => ∃ act, w.next act = some w'

end net_ib.sock
