import SplitHorizon.Message.Basic
import SplitHorizon.Wire.Reader
/-!
# Options of the extension record

The body of an extension record is a list of options: a code, a length and that many bytes. A body
that ends inside the bytes of its last option, or before its length, is taken to have no options at
all; one that ends inside a number is malformed, and so is a length that is more than the whole
body.

The option that names the client's subnet is the only one that is looked into: its prefix is not
longer than its family's addresses, and its bytes behind the address are dropped.
-/

namespace SplitHorizon

namespace EdnsOption

open Wire (put16)

/-! ## The client's subnet -/

/-- The code of the option that names the client's subnet. -/
def subnetCode : UInt16 := 8

/-- The number of bytes that hold a prefix. -/
def prefixBytes (length : UInt8) : Nat := (length.toNat + 7) / 8

/-- The number of bytes of a family's addresses. -/
def familyBytes? : (family : Nat) → Option Nat
  | 1 => some 4
  | 2 => some 16
  | _ => none

/-- The part of a subnet option that counts: a family, two prefix lengths, and the bytes of an
address that hold the first of them. -/
def subnet? : List UInt8 → Option (List UInt8)
  | f :: g :: source :: scope :: bytes => do
    let limit ← familyBytes? (f.toNat * 256 + g.toNat)
    guard (prefixBytes source ≤ limit)
    let (address, _) ← Wire.splitExactly (prefixBytes source) bytes
    some (f :: g :: source :: scope :: address)
  | _ => none

/-! ## All options -/

/-- The option of a code and bytes, if they can stand under that code. -/
def ofBytes (code : UInt16) (bytes : List UInt8) : Option EdnsOption :=
  if code = subnetCode then (subnet? bytes).map (⟨code, ·⟩) else some ⟨code, bytes⟩

/-- The options of a body up to its end, or up to one that the body cuts short. -/
structure Listed where
  options : List EdnsOption
  whole : Bool

/-- Reads the options of a body of `size` bytes; `fuel` is more than the number of bytes. -/
def readList (size : Nat) : (fuel : Nat) → List UInt8 → Option Listed
  | 0, _ => none
  | _ + 1, [] => some ⟨[], true⟩
  | _ + 1, [_] => none
  | _ + 1, [_, _] => some ⟨[], false⟩
  | _ + 1, [_, _, _] => none
  | fuel + 1, a :: b :: c :: d :: rest =>
    let length := Places.ofBytes [c, d]
    if size < length then none
    else
      match Wire.splitExactly length rest with
      | none => some ⟨[], false⟩
      | some (value, rest) => do
        let o ← ofBytes (UInt16.ofNat (Places.ofBytes [a, b])) value
        let more ← readList size fuel rest
        some { more with options := o :: more.options }

def readBody (bytes : List UInt8) : Option (List EdnsOption) :=
  (readList bytes.length (bytes.length + 1) bytes).map fun l => if l.whole then l.options else []

def put (o : EdnsOption) : List UInt8 :=
  put16 o.code ++ put16 (UInt16.ofNat o.value.length) ++ o.value

end EdnsOption

end SplitHorizon
