import SplitHorizon.Server.Query
import SplitHorizon.Server.Reload
/-!
# Reloads and queries side by side

One store is in place, and any number of reloads and queries are under way. A reload waits for a
lock that one of them holds at a time; then the document is read for it, a store is built of what
was read, the store is put in place, and the lock is given back. A reload whose document can not be
read, or is faulty, puts nothing in place. A query is given the store in place when it starts, and
looks for its local answer and for its servers in that store.

Each of them does one step at a time, and steps of the others may come between any two. A step whose
turn it is not gives no state, so the lists of events that `run` accepts are the possible orders of
steps, and a statement about all of them is a statement about every schedule.
-/

namespace SplitHorizon.Schedule

/-! ## States -/

/-- How far a reload is. -/
inductive Phase
  | waiting
  | loading
  /-- The document has been read, or could not be. -/
  | loaded (what : Loaded)
  /-- A store has been built, which is not in place yet. -/
  | built (store : Store)
  /-- The store is in place, or there is none. -/
  | settled
  | done

/-- Whether a reload is at work: from when it takes the lock until it gives it back. -/
def Phase.isAtWork : Phase → Bool
  | waiting | done => false
  | loading | loaded _ | built _ | settled => true

/-- A query under way: the store that it was given, and what it has found there. -/
structure Running where
  query : Query
  store : Store
  /-- The local answer, once it has been looked for. -/
  answer : Option (Option LocalAnswer)
  /-- The servers, once they have been looked for. -/
  targets : Option (List Target)
  deriving DecidableEq

/-- The store in place, the number of the reload that holds the lock, and all reloads and queries so
far, in the order in which they came. -/
structure State where
  installed : Store
  holder : Option Nat
  reloads : List Phase
  queries : List Running

def State.initial : State := ⟨.empty, none, [], []⟩

/-! ## Steps -/

/-- A step of a reload or of a query, which are numbered as they came. -/
inductive Event
  | request
  | enter (reload : Nat)
  | load (reload : Nat) (what : Loaded)
  | build (reload : Nat)
  | publish (reload : Nat)
  | leave (reload : Nat)
  | ask (query : Query)
  /-- A query looks for its local answer. -/
  | look (query : Nat)
  /-- A query without a local answer looks for its servers. -/
  | choose (query : Nat)

namespace State

def setPhase (s : State) (reload : Nat) (phase : Phase) : State :=
  { s with reloads := s.reloads.set reload phase }

def setQuery (s : State) (query : Nat) (r : Running) : State :=
  { s with queries := s.queries.set query r }

/-- One step, if it is its turn. -/
def step (s : State) : Event → Option State
  | .request => some { s with reloads := s.reloads ++ [.waiting] }
  | .enter i =>
    match s.reloads[i]?, s.holder with
    | some .waiting, none => some { s.setPhase i .loading with holder := some i }
    | _, _ => none
  | .load i what =>
    match s.reloads[i]? with
    | some .loading => some (s.setPhase i (.loaded what))
    | _ => none
  | .build i =>
    match s.reloads[i]? with
    | some (.loaded what) =>
      match Store.ofLoaded what with
      | .ok store => some (s.setPhase i (.built store))
      | .error _ => some (s.setPhase i .settled)
    | _ => none
  | .publish i =>
    match s.reloads[i]? with
    | some (.built store) => some { s.setPhase i .settled with installed := store }
    | _ => none
  | .leave i =>
    match s.reloads[i]? with
    | some .settled => some { s.setPhase i .done with holder := none }
    | _ => none
  | .ask q => some { s with queries := s.queries ++ [⟨q, s.installed, none, none⟩] }
  | .look i =>
    match s.queries[i]? with
    | some ⟨q, store, none, targets⟩ =>
      some (s.setQuery i ⟨q, store, some (q.findLocal store), targets⟩)
    | _ => none
  | .choose i =>
    match s.queries[i]? with
    | some ⟨q, store, some none, none⟩ =>
      some (s.setQuery i ⟨q, store, some none, some (store.targets q.client)⟩)
    | _ => none

/-- The state after events, if each of them comes in its turn. -/
def run (s : State) (events : List Event) : Option State := events.foldlM step s

end State

end SplitHorizon.Schedule
