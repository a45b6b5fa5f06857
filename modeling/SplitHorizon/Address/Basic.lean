import SplitHorizon.Number.Places
/-!
# Addresses

An Internet address is a word of 32 or of 128 bits. An address of the first kind also has a form of
the second, `::ffff:a.b.c.d`; a client that arrives under that form is the same client, so every
comparison goes through `Address.canonical`, which undoes it.
-/

namespace SplitHorizon

/-- An address of either family. -/
inductive Address
  | v4 (bits : BitVec 32)
  | v6 (bits : BitVec 128)
  deriving DecidableEq, Repr

namespace Address

/-- The four octets of an address of 32 bits. -/
def octets (bits : BitVec 32) : List Nat := Places.ofNat 256 4 bits.toNat

/-- The address with these four octets. -/
def ofOctets (parts : List Nat) : BitVec 32 := BitVec.ofNat 32 (Places.toNat 256 parts)

/-- The eight groups of an address of 128 bits. -/
def groups (bits : BitVec 128) : List Nat := Places.ofNat 65536 8 bits.toNat

/-- The address with these eight groups. -/
def ofGroups (parts : List Nat) : BitVec 128 := BitVec.ofNat 128 (Places.toNat 65536 parts)

/-- The 32 bits inside `::ffff:a.b.c.d`, and of no other address. -/
def mapped? (bits : BitVec 128) : Option (BitVec 32) :=
  if bits.toNat / 0x100000000 = 0xffff then some (BitVec.ofNat 32 bits.toNat) else none

/-- The form that decides which client an address is. -/
def canonical : Address → Address
  | v4 bits => v4 bits
  | v6 bits =>
    match mapped? bits with
    | some inner => v4 inner
    | none => v6 bits

end Address

end SplitHorizon
