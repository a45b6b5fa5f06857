import SplitHorizon.Address.Grouped
/-!
# Endpoints

The text of an address of either family, and endpoints: an address with a port, the place a message
is sent to. An endpoint of 128 bits may name the link it is on by a scope; two endpoints that differ
in it are different.
-/

namespace SplitHorizon

namespace Address

/-- Reads a whole text as an address. A text that starts as a dotted address is one or nothing. -/
def read (cs : List Char) : Option Address :=
  match Dotted.scan cs with
  | some (bits, []) => some (v4 bits)
  | some _ => none
  | none => (Grouped.read cs).map v6

def render : Address → List Char
  | v4 bits => Dotted.render bits
  | v6 bits => Grouped.render bits

def toText (a : Address) : String := String.ofList a.render

def ofText? (s : String) : Option Address := read s.toList

end Address

/-- Where a message is sent to. -/
inductive Endpoint
  | v4 (bits : BitVec 32) (port : UInt16)
  | v6 (bits : BitVec 128) (scope : UInt32) (port : UInt16)
  deriving DecidableEq, Repr

namespace Endpoint

/-- The endpoint at an address, outside every scope. -/
def ofAddress (a : Address) (port : UInt16) : Endpoint :=
  match a with
  | .v4 bits => .v4 bits port
  | .v6 bits => .v6 bits 0 port

def address : Endpoint → Address
  | v4 bits _ => .v4 bits
  | v6 bits _ _ => .v6 bits

def port : Endpoint → UInt16
  | v4 _ port => port
  | v6 _ _ port => port

/-! ## Reading -/

/-- Reads a number of at most `limit` off the front of a text; zeros may lead, a sign may not. -/
def scanNumber (limit : Nat) (cs : List Char) : Option (Nat × List Char) :=
  let (ds, rest) := Address.Dotted.spanDigits cs
  if ds.isEmpty then none
  else
    let n := Address.Dotted.value ds
    if n ≤ limit then some (n, rest) else none

/-- Reads a colon and the port that ends a text. -/
def readPort : List Char → Option UInt16
  | ':' :: cs =>
    match scanNumber 65535 cs with
    | some (n, []) => some (UInt16.ofNat n)
    | _ => none
  | _ => none

/-- Reads the scope in front of the closing bracket, none counting as zero. -/
def scanScope : List Char → UInt32 × List Char
  | '%' :: cs =>
    match scanNumber 4294967295 cs with
    | some (n, rest) => (UInt32.ofNat n, rest)
    | none => (0, '%' :: cs)
  | cs => (0, cs)

/-- Reads `[address%scope]:port`. -/
def readBracketed : List Char → Option Endpoint
  | '[' :: cs => do
    let (bits, rest) ← Address.Grouped.scan cs
    let (scope, rest) := scanScope rest
    match rest with
    | ']' :: rest => (readPort rest).map (v6 bits scope)
    | _ => none
  | _ => none

def read (cs : List Char) : Option Endpoint :=
  match Address.Dotted.scan cs with
  | some (bits, rest) => (readPort rest).map (v4 bits)
  | none => readBracketed cs

/-! ## Writing -/

/-- The text of an endpoint: the scope shows only if there is one. -/
def render : Endpoint → List Char
  | v4 bits port => Address.Dotted.render bits ++ ':' :: Decimal.digits port.toNat
  | v6 bits scope port =>
    let mark := if scope = 0 then [] else '%' :: Decimal.digits scope.toNat
    '[' :: Address.Grouped.render bits ++ mark ++ [']', ':'] ++ Decimal.digits port.toNat

def toText (e : Endpoint) : String := String.ofList e.render

def ofText? (s : String) : Option Endpoint := read s.toList

end Endpoint

end SplitHorizon
