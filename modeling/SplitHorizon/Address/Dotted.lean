import SplitHorizon.Address.Basic
import SplitHorizon.Number.Decimal
/-!
# Dotted addresses

The text `a.b.c.d` of an address of 32 bits: four decimal parts of one to three digits, each at
most 255 and without a leading zero. `scan` reads such a text off the front of a longer one.
-/

namespace SplitHorizon.Address.Dotted

/-- The characters of a decimal number at the front of a text, and what follows them. -/
def spanDigits (cs : List Char) : List Char × List Char :=
  cs.span fun c => (Decimal.digit? c).isSome

def value (ds : List Char) : Nat :=
  ds.foldl (fun n c => n * 10 + (Decimal.digit? c).getD 0) 0

/-- Whether digits spell a part: one to three of them, no leading zero, at most 255. -/
def isPart (ds : List Char) : Bool :=
  match ds with
  | [] => false
  | [_] => true
  | d :: ds => d != '0' && ds.length ≤ 2 && value (d :: ds) ≤ 255

def scanPart (cs : List Char) : Option (Nat × List Char) :=
  let (ds, rest) := spanDigits cs
  if isPart ds then some (value ds, rest) else none

/-- Reads a dot and the part after it. -/
def scanNext : List Char → Option (Nat × List Char)
  | '.' :: cs => scanPart cs
  | _ => none

/-- Reads an address off the front of a text. -/
def scan (cs : List Char) : Option (BitVec 32 × List Char) := do
  let (a, cs) ← scanPart cs
  let (b, cs) ← scanNext cs
  let (c, cs) ← scanNext cs
  let (d, cs) ← scanNext cs
  pure (ofOctets [a, b, c, d], cs)

def read (cs : List Char) : Option (BitVec 32) :=
  match scan cs with
  | some (bits, []) => some bits
  | _ => none

def render (bits : BitVec 32) : List Char :=
  ['.'].intercalate ((octets bits).map Decimal.digits)

end SplitHorizon.Address.Dotted
