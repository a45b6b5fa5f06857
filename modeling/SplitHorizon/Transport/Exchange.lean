import SplitHorizon.Message.Codec
import SplitHorizon.Recursion.Outside
import SplitHorizon.Transport.Frame
/-!
# Exchanges over a network

One message to a server and one back: as a datagram from a socket of its own, or over a fresh
connection. Every action on a socket has the time that is allowed for one server. An action that
takes longer, or that fails, ends the exchange with a failure that concerns this server only; and so
does a reply that is no message.
-/

namespace SplitHorizon

/-! ## Actions on sockets -/

/-- The kinds of failure that are told apart. -/
inductive SocketFaultKind
  | refused
  | reset
  | aborted
  | timedOut
  | other
  deriving DecidableEq, Repr

/-- Why an action on a socket failed. -/
structure SocketFault where
  kind : SocketFaultKind
  reason : String
  deriving DecidableEq, Repr

/-- What an action on a socket comes to. -/
inductive Outcome (α : Type)
  | done (value : α)
  | failed (why : SocketFault)
  /-- The time that is allowed ran out. -/
  | overdue
  deriving DecidableEq, Repr

/-- The failure of an action. The reason is told for a kind that has no failure of its own. -/
def SocketFault.toFailure (server : Endpoint) (action : String) (f : SocketFault) : Failure :=
  match f.kind with
  | .refused => .refused server.toText
  | .reset => .reset server.toText
  | .aborted => .reset server.toText
  | .timedOut => .timedOut server.toText
  | .other => .transport server.toText (action ++ ": " ++ f.reason)

def Outcome.toResult {α : Type} (server : Endpoint) (action : String) : Outcome α → Except Failure α
  | done value => .ok value
  | failed why => .error (why.toFailure server action)
  | overdue => .error (.timedOut server.toText)

/-- A network: the actions on its sockets, over the monad they run in. A socket for datagrams is a
`δ`, and a connection is a `σ`. -/
structure Sockets (δ σ : Type) (m : Type → Type) where
  /-- Makes a datagram socket at any local address of the server's family. -/
  bind : (server : Endpoint) → m (Outcome δ)
  /-- Ties a datagram socket to a server; it takes nothing from anyone else. -/
  connect : δ → (server : Endpoint) → m (Outcome Unit)
  send : δ → List UInt8 → m (Outcome Unit)
  /-- The next datagram, cut to `limit` bytes. -/
  receive : δ → (limit : Nat) → m (Outcome (List UInt8))
  /-- Makes a connection. -/
  start : (server : Endpoint) → m (Outcome σ)
  /-- Lets small messages out at once. -/
  hurry : σ → m (Outcome Unit)
  write : σ → List UInt8 → m (Outcome Unit)
  /-- Exactly the next `n` bytes; it fails if the stream ends before. -/
  read : σ → (n : Nat) → m (Outcome (List UInt8))

namespace Transport

/-- The most bytes that are taken of a datagram. -/
def maxDatagram : Nat := 4096

section

variable {δ σ : Type} {m : Type → Type} [Monad m]

def act {α : Type} (server : Endpoint) (action : String) (x : m (Outcome α)) :
    ExceptT Failure m α :=
  ExceptT.mk ((·.toResult server action) <$> x)

def byDatagram (net : Sockets δ σ m) (server : Endpoint) (message : List UInt8) :
    ExceptT Failure m (List UInt8) := do
  let socket ← act server "bind" (net.bind server)
  act server "connect" (net.connect socket server)
  act server "send" (net.send socket message)
  act server "receive" (net.receive socket maxDatagram)

/-- The failure to send a message that is too long for a stream. -/
def tooLarge (message : List UInt8) : SocketFault :=
  ⟨.other, "message too large: " ++ Decimal.render message.length ++ " bytes"⟩

/-- Sends a message with its length in front. -/
def sendFramed (net : Sockets δ σ m) (server : Endpoint) (stream : σ) (message : List UInt8) :
    ExceptT Failure m Unit :=
  match Frame.put message with
  | none => throw ((tooLarge message).toFailure server "send")
  | some bytes => act server "send" (net.write stream bytes)

/-- Receives a message by the length in front of it. -/
def receiveFramed (net : Sockets δ σ m) (server : Endpoint) (stream : σ) :
    ExceptT Failure m (List UInt8) := do
  let length ← act server "receive" (net.read stream Frame.lengthSize)
  act server "receive" (net.read stream (Places.ofBytes length))

def byStream (net : Sockets δ σ m) (server : Endpoint) (message : List UInt8) :
    ExceptT Failure m (List UInt8) := do
  let stream ← act server "connect" (net.start server)
  act server "set TCP_NODELAY" (net.hurry stream)
  sendFramed net server stream message
  receiveFramed net server stream

/-- The reply, if it is a message. -/
def checkReply (server : Endpoint) (reply : List UInt8) : Except Failure (List UInt8) :=
  if (Message.decode reply).isSome then .ok reply
  else .error (.invalidReply ("Unparseable reply from " ++ server.toText))

def exchange (net : Sockets δ σ m) (c : Call) : m (Except Failure (List UInt8)) := do
  let reply ←
    match c.protocol with
    | .udp => (byDatagram net c.server c.message).run
    | .tcp => (byStream net c.server c.message).run
  pure (reply.bind (checkReply c.server))

/-- The outside that a network and a way to look up host names make. -/
def outside (net : Sockets δ σ m) (lookUp : (host : String) → (port : UInt16) → m Lookup) :
    Outside m :=
  ⟨lookUp, exchange net⟩

end

end Transport

end SplitHorizon
