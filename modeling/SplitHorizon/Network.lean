import SplitHorizon.Address.Endpoint
import SplitHorizon.Text.Blank
/-!
# Networks

A network is an address with the number of leading bits that its members share with it. The bits
after those are kept for display and ignored otherwise. It is written `address/length`; for an
address of 32 bits a dotted netmask of leading ones may stand in place of the length.
-/

namespace SplitHorizon

/-- An address and the number of leading bits that matter. -/
inductive Network
  | v4 (bits : BitVec 32) (length : Nat) (length_le : length ≤ 32)
  | v6 (bits : BitVec 128) (length : Nat) (length_le : length ≤ 128)
  deriving DecidableEq, Repr

namespace Network

/-- The number of leading bits that matter. -/
def length : Network → Nat
  | v4 _ n _ => n
  | v6 _ n _ => n

def single : Address → Network
  | .v4 bits => v4 bits 32 (Nat.le_refl _)
  | .v6 bits => v6 bits 128 (Nat.le_refl _)

/-- Whether an address shares the family and the leading bits of a network. -/
def contains : Network → Address → Bool
  | v4 bits n _, .v4 ip => bits >>> (32 - n) == ip >>> (32 - n)
  | v6 bits n _, .v6 ip => bits >>> (128 - n) == ip >>> (128 - n)
  | _, _ => false

/-! ## Reading -/

/-- The length a netmask stands for: its leading ones, if no one follows a zero. -/
def maskLength (mask : BitVec 32) : Option Nat :=
  (List.range 33).find? fun n => mask.toNat == 0x100000000 - Nat.pow 2 (32 - n)

/-- Reads a prefix length, or a netmask. -/
def readLength4 (cs : List Char) : Option Nat :=
  match Address.Dotted.read cs with
  | some mask => maskLength mask
  | none => (Decimal.read 255 cs).toOption

/-- Reads `address/length` of either family; exactly one slash divides the two. -/
def read (cs : List Char) : Option Network := do
  let (left, right) ← Text.cutFirst '/' cs
  if right.contains '/' then none
  else
    match Address.Dotted.read left with
    | some bits =>
      let n ← readLength4 right
      if h : n ≤ 32 then some (v4 bits n h) else none
    | none =>
      let bits ← Address.Grouped.read left
      let n ← (Decimal.read 255 right).toOption
      if h : n ≤ 128 then some (v6 bits n h) else none

/-! ## Writing -/

def render : Network → List Char
  | v4 bits n _ => Address.Dotted.render bits ++ '/' :: Decimal.digits n
  | v6 bits n _ => Address.Grouped.render bits ++ '/' :: Decimal.digits n

end Network

end SplitHorizon
