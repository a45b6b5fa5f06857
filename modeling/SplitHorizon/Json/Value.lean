import SplitHorizon.Number.Binary64
/-!
# JSON values

The values of the answers document. An object lists its members in the order of their names, each
name once; `ofMembers` brings members as they are written into that form, the last one of a name
staying. The order is that of the code points, which is also that of the bytes in UTF-8.

A number is whole if it was written without a point and without an exponent and fits into 64 bits
(with or without a sign); otherwise it is a binary fraction.
-/

namespace SplitHorizon

namespace Json

inductive Number
  | whole (value : Int)
  | fraction (value : Binary64)
  deriving DecidableEq, Repr

end Json

inductive Json
  | null
  | bool (value : Bool)
  | number (value : Json.Number)
  | string (value : String)
  | array (items : List Json)
  | object (members : List (String × Json))
  deriving Repr

namespace Json

/-- Members in the order of their names with one more, which replaces one of its name. -/
def insertMember (name : String) (value : Json) : List (String × Json) → List (String × Json)
  | [] => [(name, value)]
  | m :: ms =>
    if name < m.1 then (name, value) :: m :: ms
    else if name = m.1 then (name, value) :: ms
    else m :: insertMember name value ms

/-- Members as written, brought into order; the last one of a name stays. -/
def ofMembers (ms : List (String × Json)) : List (String × Json) :=
  ms.foldl (fun acc m => insertMember m.1 m.2 acc) []

def member? (members : List (String × Json)) (name : String) : Option Json :=
  (members.find? fun m => m.1 == name).map (·.2)

end Json

end SplitHorizon
