import SplitHorizon.Recursion.Outside
import SplitHorizon.Target
import SplitHorizon.Number.Places
/-!
# The walk over a client's servers

A query that has no local answer goes to the client's servers, one after the other, until one of
them replies. Any reply counts that is long enough to be a message and carries the query's number,
whatever it says. A server that can not be found is passed over, and so is one that has been asked
already under another spelling. A failure that concerns one server only leads to the next; any other
ends the walk.

The walk keeps a list of its calls. That list is part of its result, so statements about which
servers are contacted are statements about `Walked.calls`.
-/

namespace SplitHorizon

/-- A reply and the server that it came from. -/
structure Reply where
  server : Endpoint
  message : List UInt8
  deriving DecidableEq, Repr

/-- The calls that were made, in order, and what came of them. -/
structure Walked (α : Type) where
  calls : List Call
  result : Except Failure α

namespace Recursion

/-- The bytes of a message's fixed part. -/
def headerSize : Nat := 12

/-- The number of a message that is long enough to have one. -/
def number? (message : List UInt8) : Option Nat :=
  if (message.take headerSize).length < headerSize then none
  else some (Places.ofBytes (message.take 2))

/-- Whether a message answers the query with a number: the reply's number has to be the same. -/
def check (number : Nat) (reply : List UInt8) : Except Failure (List UInt8) :=
  match number? reply with
  | none => .error (.invalidReply "reply shorter than a DNS header")
  | some n =>
    if n = number then .ok reply
    else .error (.invalidReply
      ("reply id " ++ Decimal.render n ++ " does not match query id " ++ Decimal.render number))

section

variable {m : Type → Type} [Monad m]

/-- The endpoint of a target; a host name is looked up and its first address taken. -/
def locate (out : Outside m) : Target → m (Option Endpoint)
  | .endpoint e => pure (some e)
  | .host name port => do
    let found ← out.lookUp name port
    pure found.first?

/-- How a walk goes on behind the checked answer to a call. A reply ends it, and so does a failure
that does not concern the server alone; behind any other failure comes the rest of the walk. -/
def conclude (call : Call) (rest : m (List Call × Option (Except Failure Reply))) :
    Except Failure (List UInt8) → m (List Call × Option (Except Failure Reply))
  | .ok message => pure ([call], some (.ok ⟨call.server, message⟩))
  | .error why =>
    if why.isTransport then do
      let (calls, result) ← rest
      pure (call :: calls, result)
    else pure ([call], some (.error why))

/-- What is done about a target once it has been looked for. It is passed over if it was not found,
or was found at a server that has been tried; any other server is asked. The walk goes on with
`rest`, which takes the servers that have been tried by then. -/
def visit (out : Outside m) (protocol : Protocol) (query : List UInt8) (number : Nat)
    (tried : List Endpoint) (rest : List Endpoint → m (List Call × Option (Except Failure Reply))) :
    Option Endpoint → m (List Call × Option (Except Failure Reply))
  | none => rest tried
  | some server =>
    if tried.contains server then rest tried
    else do
      let answer ← out.exchange ⟨server, protocol, query⟩
      conclude ⟨server, protocol, query⟩ (rest (server :: tried)) (answer.bind (check number))

/-- Walks over targets with a numbered query. Nothing comes of the walk if every target is passed
over or fails. -/
def steps (out : Outside m) (protocol : Protocol) (query : List UInt8) (number : Nat) :
    (tried : List Endpoint) → List Target → m (List Call × Option (Except Failure Reply))
  | _, [] => pure ([], none)
  | tried, target :: targets => do
    let found ← locate out target
    visit out protocol query number tried
      (fun tried => steps out protocol query number tried targets) found

/-- Passes a query on to targets. A client without targets is told so before the query is looked
at. -/
def walk (out : Outside m) (protocol : Protocol) (query : List UInt8) (targets : List Target) :
    m (Walked Reply) :=
  match targets with
  | [] => pure ⟨[], .error .noTargets⟩
  | targets =>
    match number? query with
    | none => pure ⟨[], .error (.malformedQuery "query shorter than a DNS header")⟩
    | some number => do
      let (calls, result) ← steps out protocol query number [] targets
      pure ⟨calls, result.getD (.error (.exhausted targets.length))⟩

end

end Recursion

end SplitHorizon
