import SplitHorizon.Text.Blank
/-!
# Record kinds

The eight kinds of record that the answers document can hold. A question of any other type has no
local answer.
-/

namespace SplitHorizon

/-- A kind of record that can be answered locally. -/
inductive RecordKind
  | a
  | aaaa
  | cname
  | ns
  | ptr
  | mx
  | txt
  | srv
  deriving DecidableEq, Repr

namespace RecordKind

def all : List RecordKind := [a, aaaa, cname, ns, ptr, mx, txt, srv]

def text : RecordKind → String
  | a => "A"
  | aaaa => "AAAA"
  | cname => "CNAME"
  | ns => "NS"
  | ptr => "PTR"
  | mx => "MX"
  | txt => "TXT"
  | srv => "SRV"

/-- The kind with a mnemonic, in letters of any case. -/
def ofText? (s : String) : Option RecordKind :=
  all.find? fun k => Text.sameLetters k.text.toList s.toList

def code : RecordKind → UInt16
  | a => 1
  | aaaa => 28
  | cname => 5
  | ns => 2
  | ptr => 12
  | mx => 15
  | txt => 16
  | srv => 33

def ofCode? (n : UInt16) : Option RecordKind := all.find? fun k => k.code == n

end RecordKind

end SplitHorizon
