import SplitHorizon.Text.Blank
/-!
# Canonical names

Domain names as texts. The answers document may write a name in any case, with or without the dot
that ends it; the store files it under its canonical form, in small letters and with the dot.
A query brings a name that is already well formed, so `lookupKey` only brings it into that form and
refuses nothing.
-/

namespace SplitHorizon.Name

/-- Why a text is no domain name. The text itself is kept for the wording. -/
inductive Fault
  | empty
  | tooLong (name : String)
  | emptyLabel (name : String)
  | longLabel (label name : String)
  | blank (name : String)
  deriving DecidableEq, Repr

def Fault.message : Fault → String
  | .empty => "empty name"
  | .tooLong name => "'" ++ name ++ "' is longer than 253 characters"
  | .emptyLabel name => "'" ++ name ++ "' contains an empty label"
  | .longLabel label name =>
    "label '" ++ label ++ "' in '" ++ name ++ "' is longer than 63 characters"
  | .blank name => "'" ++ name ++ "' contains whitespace"

/-- The text without one dot at its end. -/
def dropDot (cs : List Char) : List Char :=
  if cs.getLast? = some '.' then cs.dropLast else cs

/-- The first thing that is wrong with a label of `name`. -/
def checkLabel (name : String) (label : List Char) : Except Fault Unit :=
  if label.isEmpty then .error (.emptyLabel name)
  else if 63 < Text.width label then .error (.longLabel (String.ofList label) name)
  else if label.any Text.isBlank then .error (.blank name)
  else .ok ()

/-- The canonical form of a name: blanks around it dropped, small letters, a dot at the end. At most
253 bytes and labels of 1 to 63 bytes without blanks are accepted, and the root, written `.`. -/
def canonical (name : String) : Except Fault String :=
  let trimmed := Text.trim name.toList
  if trimmed = ['.'] then .ok "."
  else
    let bare := dropDot trimmed
    if bare.isEmpty then .error .empty
    else if 253 < Text.width bare then .error (.tooLong name)
    else do
      (Text.pieces (· == '.') bare).forM (checkLabel name)
      .ok (String.ofList (Text.fold bare ++ ['.']))

/-- The form under which a query's name is looked up. -/
def lookupKey (name : String) : String :=
  let folded := Text.fold name.toList
  String.ofList (if folded.getLast? = some '.' then folded else folded ++ ['.'])

end SplitHorizon.Name
