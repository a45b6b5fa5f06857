import SplitHorizon.Answers.Zone
import SplitHorizon.Selector
/-!
# The store

The zones of a document: those of its networks, the narrowest network first and networks of one
length in the order of the document, and the zone for everyone else. The store is only read.
-/

namespace SplitHorizon

/-- The zone of a network, with the selector's key as it is written. -/
structure NetworkZone where
  key : String
  network : Network
  zone : Zone
  deriving DecidableEq, Repr

/-- The zones of a document. -/
structure Store where
  networks : List NetworkZone
  fallback : Zone
  deriving DecidableEq, Repr

/-- Where an answer comes from. -/
inductive Source
  | client (key : String)
  | default
  deriving DecidableEq, Repr

def Source.toText : Source → String
  | client key => "client (" ++ key ++ ")"
  | default => "default"

/-- A record set found for a client. -/
structure LocalAnswer where
  values : List RecordValue
  source : Source
  deriving DecidableEq, Repr

namespace Store

def empty : Store := ⟨[], .empty⟩

/-! ## Looking up -/

/-- The zones whose networks contain a client, narrowest first. -/
def matching (s : Store) (client : Address) : List NetworkZone :=
  s.networks.filter fun z => z.network.contains client.canonical

/-- The answer for a client: that of the narrowest network whose zone declares the name and the
kind, and else that of the default zone. -/
def resolve (s : Store) (client : Address) (name : String) (kind : RecordKind) :
    Option LocalAnswer :=
  let key := Name.lookupKey name
  match (s.matching client).findSome? fun z =>
      (z.zone.lookup key kind).map fun values => LocalAnswer.mk values (.client z.key) with
  | some answer => some answer
  | none => (s.fallback.lookup key kind).map fun values => ⟨values, .default⟩

/-- The servers for a client's unanswered queries: those of the matching networks, then those for
everyone, each once. -/
def targets (s : Store) (client : Address) : List Target :=
  ((s.matching client).flatMap (·.zone.recurse) ++ s.fallback.recurse).eraseDups

/-! ## Counting -/

/-- The numbers that describe a store. -/
structure Counts where
  selectors : Nat
  recordSets : Nat
  targets : Nat
  deriving DecidableEq, Repr

/-- The number of selectors (the default one if it says anything), of record sets and of servers. -/
def counts (s : Store) : Counts where
  selectors := s.networks.length + if s.fallback.isEmpty then 0 else 1
  recordSets := s.networks.foldr (fun z n => z.zone.sets.length + n) s.fallback.sets.length
  targets := s.networks.foldr (fun z n => z.zone.recurse.length + n) s.fallback.recurse.length

end Store

end SplitHorizon
