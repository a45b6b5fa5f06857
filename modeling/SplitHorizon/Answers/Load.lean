import SplitHorizon.Answers.Document
import SplitHorizon.Answers.Fault
import SplitHorizon.Answers.Store
/-!
# Building the store

The entries of a document are taken in order, and the first one that is faulty ends the work. The
key `recurse` lists servers for everyone; it may come anywhere, and a later list takes the place of
an earlier one. Every other key is a selector, and two keys that differ only in case and blanks
around them are the same. Inside a zone the members come in the order of their names, and inside a
name the types in the order of theirs.

At the end the zones of networks are put in order by prefix length, and the servers for everyone go
in front of those of the default zone.
-/

namespace SplitHorizon

/-- The key of a list of servers, at the top and inside a zone. -/
def recurseKey : String := "recurse"

/-! ## Parts of an entry -/

/-- Reads a list of servers that stands under a selector. -/
def readTargets (selector : String) (v : Json) : Except ConfigFault (List Target) :=
  match v with
  | .array items => items.mapM fun item =>
    match item with
    | .string text => (Target.ofText text).mapError fun why => .server selector text (.target why)
    | other => .error (.server selector other.compact .notString)
  | other => .error (.server selector other.compact .notArray)

/-- Reads the answers under one selector, name and kind. -/
def readValues (selector name : String) (kind : RecordKind) (v : Json) :
    Except ConfigFault (List RecordValue) :=
  match v with
  | .array items => items.mapM fun item =>
    match item with
    | .string text =>
      (RecordValue.read kind text).mapError fun why => .answer selector name kind.text (.value why)
    | other => .error (.answer selector name kind.text (.notString other.compact))
  | _ => .error (.answer selector name kind.text .notArray)

/-- Adds the record set of one type under a name to a zone. -/
def addSet (selector name key : String) (z : Zone) (m : String × Json) : Except ConfigFault Zone :=
  match RecordKind.ofText? m.1 with
  | none => .error (.answer selector name m.1 (.unknownKind m.1))
  | some kind =>
    if z.declares key kind then .error (.answer selector name m.1 .repeated)
    else do
      let values ← readValues selector name kind m.2
      .ok (z.insert ⟨key, kind, values⟩)

/-- Adds one member of a zone's object to the zone: its list of servers, or the record sets of a
name. -/
def addMember (selector : String) (z : Zone) (m : String × Json) : Except ConfigFault Zone :=
  if m.1 = recurseKey then do
    let ts ← readTargets selector m.2
    .ok (z.addTargets ts)
  else
    match Name.canonical m.1 with
    | .error why => .error (.answer selector m.1 "-" (.name why))
    | .ok key =>
      match m.2 with
      | .object types => types.foldlM (addSet selector m.1 key) z
      | _ => .error (.answer selector m.1 "-" .notObject)

def readZone (selector : String) (v : Json) : Except ConfigFault Zone :=
  match v with
  | .object members => members.foldlM (addMember selector) .empty
  | _ => .error (.entry selector .notObject)

/-! ## Entries -/

/-- What the entries so far have declared: the selectors' keys in the form in which they are
compared, the zones of networks in the order of the document, the default zone, and the servers for
everyone. -/
structure Declared where
  keys : List String
  networks : List NetworkZone
  fallback : Option Zone
  recurse : List Target

def Declared.none : Declared := ⟨[], [], Option.none, []⟩

/-- The form in which selectors' keys are compared. -/
def keyForm (key : String) : String := String.ofList (Text.fold (Text.trim key.toList))

/-- Takes one entry in. -/
def Declared.add (d : Declared) (e : String × Json) : Except ConfigFault Declared :=
  if e.1 = recurseKey then do
    let ts ← readTargets recurseKey e.2
    .ok { d with recurse := ts }
  else
    match Selector.ofText e.1 with
    | .error why => .error (.entry e.1 (.selector why))
    | .ok selector =>
      if d.keys.contains (keyForm e.1) then .error (.entry e.1 .repeated)
      else do
        let z ← readZone e.1 e.2
        let d := { d with keys := keyForm e.1 :: d.keys }
        match selector with
        | .default => .ok { d with fallback := some z }
        | .network net => .ok { d with networks := d.networks ++ [⟨e.1, net, z⟩] }

def Declared.toStore (d : Declared) : Store where
  networks := d.networks.mergeSort fun a b => b.network.length ≤ a.network.length
  fallback :=
    let z := d.fallback.getD .empty
    { z with recurse := d.recurse ++ z.recurse }

namespace Store

def ofEntries (entries : List (String × Json)) : Except ConfigFault Store := do
  let d ← entries.foldlM Declared.add .none
  .ok d.toStore

/-- The store of a document's text. -/
def build (text : String) : Except ConfigFault Store :=
  match Document.read text with
  | none => .error .malformed
  | some d => ofEntries d.entries

end Store

end SplitHorizon
