import SplitHorizon.Answers.Store
import SplitHorizon.Recursion.Walk
/-!
# Resolving a query

A query is answered from the store, and only if the store has nothing for it do the client's servers
get it. Both are read from the one store that the query was given when it started. A query of a type
that can not be held locally goes straight to the servers.
-/

namespace SplitHorizon

/-- What the server knows of a question. -/
structure Query where
  client : Address
  name : String
  kind : Option RecordKind
  protocol : Protocol
  deriving DecidableEq, Repr

/-- An answer of the store, or a reply of a server. -/
inductive Resolution
  | found (answer : LocalAnswer)
  | relayed (reply : Reply)
  deriving DecidableEq, Repr

namespace Query

/-- The local answer to a query. -/
def findLocal (q : Query) (store : Store) : Option LocalAnswer :=
  q.kind.bind (store.resolve q.client q.name)

/-- Resolves a query whose bytes are `wire`. -/
def resolve {m : Type → Type} [Monad m] (out : Outside m) (store : Store) (q : Query)
    (wire : List UInt8) : m (Walked Resolution) :=
  match q.findLocal store with
  | some answer => pure ⟨[], .ok (.found answer)⟩
  | none => do
    let walked ← Recursion.walk out q.protocol wire (store.targets q.client)
    pure ⟨walked.calls, walked.result.map .relayed⟩

end Query

end SplitHorizon
