/-!
# Numbers by places

A number as its places in some base, the most significant first. Addresses are read and written
through it (four places of base 256, eight of base 65536), and so are the fields of a message (one,
two or four bytes).
-/

namespace SplitHorizon.Places

/-- The `count` places of a number in base `base`; higher ones are cut off. -/
def ofNat (base : Nat) : (count : Nat) → Nat → List Nat
  | 0, _ => []
  | count + 1, n => ofNat base count (n / base) ++ [n % base]

/-- The number that has these places in base `base`. -/
def toNat (base : Nat) (places : List Nat) : Nat :=
  places.foldl (fun n d => n * base + d) 0

/-- A number as `count` bytes, the most significant first. -/
def bytes (count n : Nat) : List UInt8 := (ofNat 256 count n).map UInt8.ofNat

/-- The number that bytes spell, the most significant first. -/
def ofBytes (bs : List UInt8) : Nat := toNat 256 (bs.map UInt8.toNat)

/-! ## Hexadecimal digits -/

def hexDigit? (c : Char) : Option Nat :=
  let n := c.toNat
  if 48 ≤ n && n ≤ 57 then some (n - 48)
  else if 97 ≤ n && n ≤ 102 then some (n - 87)
  else if 65 ≤ n && n ≤ 70 then some (n - 55)
  else none

/-- The small hexadecimal digit of a value below sixteen. -/
def hexDigitChar (d : Nat) : Char := Char.ofNat (if d < 10 then 48 + d else 87 + d)

/-- The hexadecimal digits of a number, without leading zeros. -/
def hexDigits (n : Nat) : List Char :=
  if n < 16 then [hexDigitChar n] else hexDigits (n / 16) ++ [hexDigitChar (n % 16)]
termination_by n

end SplitHorizon.Places
