/-!
# TOML values and tables

The values of a configuration text. A table is put together from several places of the text: from
its header, from the headers of tables inside it, and from keys with dots. What may still be added
to it depends on the first of these, so a table remembers how it came about:

* a table under its own header is complete; its header may not come again, and keys with dots may
  not lead into it;
* one that only a longer header implies may still get its own header;
* one that a key with dots made may get more such keys, and tables inside it by headers;
* one between braces may get nothing.
-/

namespace SplitHorizon

/-- How a table came about. -/
inductive TableForm
  | header
  | implied
  | dotted
  | braces
  deriving DecidableEq, Repr

/-- A value of the configuration. Fractions and points in time keep their text, since nothing is
computed with them; and so does a number that is beyond the range of numbers, which does no harm as
long as nothing looks at it. -/
inductive Toml
  | string (text : String)
  | integer (value : Int)
  | fraction (text : String)
  | excess (text : String)
  | boolean (value : Bool)
  | moment (text : String)
  | array (items : List Toml)
  | table (form : TableForm) (entries : List (String × Toml))
  /-- Tables under one header each, all of one name; the last one is the open one. -/
  | tables (items : List (List (String × Toml)))

namespace Toml

mutual

/-- Whether every number in a value is in range. -/
def isBounded : Toml → Bool
  | excess _ => false
  | array items => areBounded items
  | table _ entries => entriesBounded entries
  | tables items => allBounded items
  | string _ | integer _ | fraction _ | boolean _ | moment _ => true

/-- Whether every number in some values is in range. -/
def areBounded : List Toml → Bool
  | [] => true
  | v :: vs => v.isBounded && areBounded vs

/-- Whether every number under some keys is in range. -/
def entriesBounded : List (String × Toml) → Bool
  | [] => true
  | (_, v) :: es => v.isBounded && entriesBounded es

/-- Whether every number in some tables is in range. -/
def allBounded : List (List (String × Toml)) → Bool
  | [] => true
  | es :: ess => entriesBounded es && allBounded ess

end

/-- The entries of a table, in the order of the text. -/
abbrev Entries := List (String × Toml)

namespace Entries

def lookUp? (es : Entries) (key : String) : Option Toml :=
  (List.find? (fun e => e.1 == key) es).map (·.2)

/-- The entries with another value under a key that is there. -/
def replace (es : Entries) (key : String) (v : Toml) : Entries :=
  es.map fun e => if e.1 == key then (key, v) else e

/-- The entries with a value under a key that is not there yet. -/
def add (es : Entries) (key : String) (v : Toml) : Option Entries :=
  match es.lookUp? key with
  | none => some (es ++ [(key, v)])
  | some _ => none

/-- Changes the table that a path of headers leads to. Tables that are missing on the way are
implied; of several tables of one name the path leads into the last. -/
def descend (change : Entries → Option Entries) : (path : List String) → Entries → Option Entries
  | [], es => change es
  | p :: ps, es =>
    match es.lookUp? p with
    | none => (descend change ps []).map fun inner => es ++ [(p, .table .implied inner)]
    | some (.table form inner) =>
      if form = .braces then none
      else (descend change ps inner).map fun inner => es.replace p (.table form inner)
    | some (.tables items) =>
      (descend change ps (items.getLastD [])).map fun inner =>
        es.replace p (.tables (items.dropLast ++ [inner]))
    | some _ => none

/-- Adds a value under a key with dots. -/
def addDotted (key : String) (v : Toml) : (path : List String) → Entries → Option Entries
  | [], es => es.add key v
  | p :: ps, es =>
    match es.lookUp? p with
    | none => (addDotted key v ps []).map fun inner => es ++ [(p, .table .dotted inner)]
    | some (.table .dotted inner) =>
      (addDotted key v ps inner).map fun inner => es.replace p (.table .dotted inner)
    | some (.table .implied inner) =>
      if ps.isEmpty then none
      else (addDotted key v ps inner).map fun inner => es.replace p (.table .implied inner)
    | some (.tables items) =>
      if ps.isEmpty then none
      else (addDotted key v ps (items.getLastD [])).map fun inner =>
        es.replace p (.tables (items.dropLast ++ [inner]))
    | some _ => none

/-- Opens a table under its own header. -/
def openTable (key : String) (es : Entries) : Option Entries :=
  match es.lookUp? key with
  | none => some (es ++ [(key, .table .header [])])
  | some (.table .implied inner) => some (es.replace key (.table .header inner))
  | some _ => none

/-- Opens one more of the tables of one name. -/
def openNext (key : String) (es : Entries) : Option Entries :=
  match es.lookUp? key with
  | none => some (es ++ [(key, .tables [[]])])
  | some (.tables items) => some (es.replace key (.tables (items ++ [[]])))
  | some _ => none

end Entries

end Toml

end SplitHorizon
