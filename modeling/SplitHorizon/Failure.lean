import SplitHorizon.Number.Decimal
/-!
# Failures of a query

What can go wrong between a query and its answer. Some failures concern one server only
(`isTransport`): the walk over a client's servers goes on after them, and ends at any other.
-/

namespace SplitHorizon

/-- A failure, with the text that its wording mentions. -/
inductive Failure
  | invalidName (detail : String)
  | invalidAddress (detail : String)
  | invalidRecord (detail : String)
  | invalidTarget (detail : String)
  | malformedQuery (detail : String)
  | invalidReply (detail : String)
  | io (detail : String)
  | timedOut (server : String)
  | refused (server : String)
  | reset (server : String)
  | transport (server reason : String)
  | noTargets
  | exhausted (attempted : Nat)
  deriving DecidableEq, Repr

namespace Failure

def message : Failure → String
  | invalidName detail => "Invalid domain name: " ++ detail
  | invalidAddress detail => "Invalid IP address: " ++ detail
  | invalidRecord detail => "Invalid record data: " ++ detail
  | invalidTarget detail => "Invalid upstream address: " ++ detail
  | malformedQuery detail => "Malformed query: " ++ detail
  | invalidReply detail => "Invalid DNS response: " ++ detail
  | io detail => "I/O error: " ++ detail
  | timedOut server => "Transport timeout connecting to " ++ server
  | refused server => "Transport connection refused by " ++ server
  | reset server => "Transport connection reset by " ++ server
  | transport server reason => "Transport error talking to " ++ server ++ ": " ++ reason
  | noTargets => "No recursion targets configured for client"
  | exhausted attempted => "All " ++ Decimal.render attempted ++ " recursion targets failed"

/-- Whether a failure concerns one server only. -/
def isTransport : Failure → Bool
  | timedOut _ | refused _ | reset _ | transport _ _ | invalidReply _ | io _
  | invalidTarget _ => true
  | invalidName _ | invalidAddress _ | invalidRecord _ | malformedQuery _ | noTargets
  | exhausted _ => false

end Failure

end SplitHorizon
