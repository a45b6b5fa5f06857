import SplitHorizon.Address.Endpoint
import SplitHorizon.Failure
/-!
# The outside

All that a query needs from beyond the process: looking a host name up and exchanging one message
with a server. Both are fields of `Outside`, over whatever monad they run in: a real network runs in
`IO`, and a scripted one, whose answers depend on the call alone, in `Id`.
-/

namespace SplitHorizon

/-- How a message travels. A query is passed on the way it came. -/
inductive Protocol
  | udp
  | tcp
  deriving DecidableEq, Repr

def Protocol.text : Protocol → String
  | udp => "UDP"
  | tcp => "TCP"

/-- One message on its way to a server. -/
structure Call where
  server : Endpoint
  protocol : Protocol
  message : List UInt8
  deriving DecidableEq, Repr

/-- What looking a host name up comes to. -/
inductive Lookup
  | found (servers : List Endpoint)
  | failed (why : Failure)
  /-- Nothing came within the time allowed for one server. -/
  | overdue
  deriving DecidableEq, Repr

def Lookup.first? : Lookup → Option Endpoint
  | found servers => servers.head?
  | failed _ => none
  | overdue => none

/-- What a query needs from beyond the process. -/
structure Outside (m : Type → Type) where
  lookUp : (host : String) → (port : UInt16) → m Lookup
  exchange : Call → m (Except Failure (List UInt8))

end SplitHorizon
