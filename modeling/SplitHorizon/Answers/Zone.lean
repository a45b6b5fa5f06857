import SplitHorizon.Record.Value
import SplitHorizon.Target
/-!
# Zones

What one selector is given: record sets, each filed under a name and a kind, and the servers that
unanswered queries are passed on to. A record set keeps its values in the order of the document and
may be empty; an empty one still answers.
-/

namespace SplitHorizon

/-- A record set with the name and the kind it is filed under. -/
structure RecordSet where
  name : String
  kind : RecordKind
  values : List RecordValue
  deriving DecidableEq, Repr

/-- What one selector is given. -/
structure Zone where
  sets : List RecordSet
  recurse : List Target
  deriving DecidableEq, Repr

namespace Zone

def empty : Zone := ⟨[], []⟩

def declares (z : Zone) (name : String) (kind : RecordKind) : Bool :=
  z.sets.any fun s => s.name == name && s.kind == kind

def lookup (z : Zone) (name : String) (kind : RecordKind) : Option (List RecordValue) :=
  (z.sets.find? fun s => s.name == name && s.kind == kind).map (·.values)

def insert (z : Zone) (s : RecordSet) : Zone := { z with sets := z.sets ++ [s] }

def addTargets (z : Zone) (ts : List Target) : Zone := { z with recurse := z.recurse ++ ts }

def isEmpty (z : Zone) : Bool := z.sets.isEmpty && z.recurse.isEmpty

end Zone

end SplitHorizon
