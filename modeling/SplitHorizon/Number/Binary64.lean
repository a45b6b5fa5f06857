/-!
# Binary fractions of 53 bits

The numbers of the IEEE format binary64, held exactly: a sign, a mantissa below `2 ^ 53` and an
exponent. Sums of the answers document's numbers are never formed; such a number is only read and
written again, so all that is needed is rounding a quotient of whole numbers to the nearest one, and
the shortest decimal that rounds back.
-/

namespace SplitHorizon

/-- The value `± mantissa * 2 ^ exponent`. -/
structure Binary64 where
  negative : Bool
  mantissa : Nat
  exponent : Int
  deriving DecidableEq, Repr

namespace Binary64

def zero : Binary64 := ⟨false, 0, -1074⟩

/-- The least mantissa of 53 bits. -/
def minFull : Nat := 0x10000000000000

def signed (negative : Bool) (x : Binary64) : Binary64 := { x with negative }

/-! ## Rounding -/

/-- The whole number nearest to `num / den`; of two equally near ones the even one. -/
def nearest (num den : Nat) : Nat :=
  let q := num / den
  let r := num % den
  if 2 * r < den then q
  else if den < 2 * r then q + 1
  else if q % 2 = 0 then q else q + 1

/-- `x * 2 ^ e` as a quotient. -/
def shift (x : Nat × Nat) (e : Int) : Nat × Nat :=
  (x.1 * Nat.pow 2 e.toNat, x.2 * Nat.pow 2 (-e).toNat)

/-- The exponent at which `num / den` has a mantissa of 53 bits, or the least exponent there is. -/
def exponentFor (num den : Nat) : Int :=
  let guess : Int := (Nat.log2 num : Int) - Nat.log2 den - 52
  let scaled := shift (num, den) (-guess)
  let e := if scaled.1 < minFull * scaled.2 then guess - 1 else guess
  max e (-1074)

/-- The number nearest to `num / den`; none if that is beyond the largest one. -/
def ofQuotient (num den : Nat) : Option Binary64 :=
  if num = 0 then some zero
  else
    let e := exponentFor num den
    let scaled := shift (num, den) (-e)
    let m := nearest scaled.1 scaled.2
    let (m, e) := if m = 2 * minFull then (minFull, e + 1) else (m, e)
    if 971 < e then none else some ⟨false, m, e⟩

/-- The number as a quotient, its sign left out. -/
def toQuotient (x : Binary64) : Nat × Nat := shift (x.mantissa, 1) x.exponent

def powerOfTen (k : Nat) : Option Binary64 := ofQuotient (Nat.pow 10 k) 1

def mul (x y : Binary64) : Option Binary64 :=
  let a := x.toQuotient
  let b := y.toQuotient
  ofQuotient (a.1 * b.1) (a.2 * b.2)

def div (x y : Binary64) : Option Binary64 :=
  let a := x.toQuotient
  let b := y.toQuotient
  ofQuotient (a.1 * b.2) (a.2 * b.1)

/-! ## The shortest decimal -/

/-- A positive decimal `digits * 10 ^ place`. -/
structure Decimal where
  digits : Nat
  place : Int
  deriving DecidableEq, Repr

/-- Four times the ends of the interval of reals that round to a number: half way to the neighbour
above, and half way to the one below, which is nearer under a power of two. -/
def quarterEnds (x : Binary64) : Nat × Nat :=
  let below := if x.mantissa = minFull && -1074 < x.exponent then 1 else 2
  (4 * x.mantissa - below, 4 * x.mantissa + 2)

/-- The multiple of `10 ^ place` that rounds to a number and is nearest to it, if one does. -/
def onGrid (x : Binary64) (place : Int) : Option Decimal :=
  let num := fun n : Nat => n * Nat.pow 2 (x.exponent - 2).toNat * Nat.pow 10 (-place).toNat
  let den := Nat.pow 2 (2 - x.exponent).toNat * Nat.pow 10 place.toNat
  let (low, high) := x.quarterEnds
  let value := num (4 * x.mantissa)
  let inside := fun c : Nat =>
    if x.mantissa % 2 = 0 then num low ≤ c * den && c * den ≤ num high
    else num low < c * den && c * den < num high
  let floor := value / den
  let best := nearest value den
  let other := if best = floor then floor + 1 else floor
  if best ≠ 0 && inside best then some ⟨best, place⟩
  else if other ≠ 0 && inside other then some ⟨other, place⟩
  else none

/-- The decimal exponent of the first digit of a positive number. -/
def leadingPlace (x : Binary64) : Int :=
  let q := x.toQuotient
  let below := fun k : Nat =>
    let e : Int := (k : Int) - 324
    q.1 * Nat.pow 10 (-e).toNat < q.2 * Nat.pow 10 e.toNat
  ((List.range 634).find? below).elim 309 fun k => (k : Int) - 325

/-- The decimal with the fewest digits that rounds to a positive number, and of those the nearest:
the coarsest grid with a hit decides. -/
def shortest (x : Binary64) : Decimal :=
  let top := x.leadingPlace
  ((List.range 18).findSome? fun k : Nat => x.onGrid (top + 1 - (k : Int))).getD ⟨0, 0⟩

end Binary64

end SplitHorizon
