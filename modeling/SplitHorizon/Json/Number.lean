import SplitHorizon.Json.Value
import SplitHorizon.Number.Decimal
import SplitHorizon.Number.Places
/-!
# Numbers in JSON text

Reading takes digits into a significand of 64 bits while they fit and lets further ones only move
the point. The significand and the power of ten are then each rounded to a binary fraction, and so
is their product or quotient. A power beyond the greatest one is taken in steps.

Writing a binary fraction shows the shortest decimal that rounds back: positionally from `1e-5` up
to below `1e16`, with a point in every case, and otherwise with an exponent that has a sign.
-/

namespace SplitHorizon.Json.Number

/-! ## Reading -/

def maxSignificand : Nat := 0xffffffffffffffff

/-- The greatest power of ten that is taken in one step. -/
def maxPower : Nat := 308

/-- Divides by powers of ten, at most `maxPower` at a time. -/
def divideByTens : (steps : Nat) → Binary64 → Nat → Option Binary64
  | 0, x, _ => some x
  | steps + 1, x, k =>
    if x.mantissa = 0 then some x
    else do
      let p ← Binary64.powerOfTen (min k maxPower)
      let x ← x.div p
      if k ≤ maxPower then some x else divideByTens steps x (k - maxPower)

/-- `significand * 10 ^ place` as a binary fraction; none if it is too large. -/
def scale (significand : Nat) (place : Int) : Option Binary64 := do
  let x ← Binary64.ofQuotient significand 1
  if x.mantissa = 0 then some x
  else if 0 ≤ place then
    if maxPower < place.toNat then none
    else
      let p ← Binary64.powerOfTen place.toNat
      x.mul p
  else divideByTens ((-place).toNat / maxPower + 1) x (-place).toNat

/-- Digits taken into a significand: its value, the number of digits taken in, and the number of
digits that were left out. -/
structure Significand where
  value : Nat
  taken : Nat
  dropped : Nat

/-- Takes one digit in. Once one has not fitted, none is taken in any more. -/
def Significand.push (s : Significand) (d : Nat) : Significand :=
  if s.dropped = 0 && s.value * 10 + d ≤ maxSignificand then
    { s with value := s.value * 10 + d, taken := s.taken + 1 }
  else { s with dropped := s.dropped + 1 }

/-- Takes digits in, starting from a value. -/
def Significand.ofDigits (value : Nat) (ds : List Char) : Significand :=
  ds.foldl (fun s c => s.push ((Decimal.digit? c).getD 0)) ⟨value, 0, 0⟩

/-- The digits at the front of a text, and what follows them. -/
def spanDigits (cs : List Char) : List Char × List Char :=
  cs.span fun c => (Decimal.digit? c).isSome

/-- The value of the digits of an exponent, or none if it does not fit into 32 bits. -/
def exponentValue (ds : List Char) : Option Nat :=
  match Decimal.readDigits 2147483647 0 ds with
  | .ok n => some n
  | .error _ => none

/-- The sign in front of an exponent, and what follows it. -/
def exponentSign : List Char → Bool × List Char
  | '+' :: cs => (false, cs)
  | '-' :: cs => (true, cs)
  | cs => (false, cs)

/-- The sign and the digits of an exponent, if there is one; none where it is malformed. -/
def readExponent : List Char → Option (Option (Bool × List Char) × List Char)
  | 'e' :: cs | 'E' :: cs =>
    let (negative, cs) := exponentSign cs
    match spanDigits cs with
    | ([], _) => none
    | (ds, rest) => some (some (negative, ds), rest)
  | cs => some (none, cs)

/-- The digits after a point, empty where there is no point; none where it is malformed. -/
def readPoint : List Char → Option (List Char × List Char)
  | '.' :: cs =>
    match spanDigits cs with
    | ([], _) => none
    | (ds, rest) => some (ds, rest)
  | cs => some ([], cs)

/-- The fraction with a significand, a place and an exponent's digits. -/
def withExponent (significand : Nat) (place : Int) (negative : Bool) (ds : List Char) :
    Option Binary64 :=
  match exponentValue ds with
  | some k => scale significand (if negative then place - k else place + k)
  | none => if significand ≠ 0 && !negative then none else some .zero

/-- The value of a number without point and exponent. -/
def ofDigits (negative : Bool) (ds : List Char) : Option Number :=
  let s := Significand.ofDigits 0 ds
  if s.dropped = 0 then
    if !negative then some (.whole s.value)
    else if s.value = 0 || 0x8000000000000000 < s.value then
      (Binary64.ofQuotient s.value 1).map fun x => .fraction (x.signed true)
    else some (.whole (-(s.value : Int)))
  else (scale s.value s.dropped).map fun x => .fraction (x.signed negative)

/-- The value of a number with a point or an exponent. Digits left out before the point raise the
place, digits taken in after it lower it. -/
def ofParts (negative : Bool) (digits point : List Char) (exponent : Option (Bool × List Char)) :
    Option Number :=
  let before := Significand.ofDigits 0 digits
  let after := Significand.ofDigits before.value point
  let place : Int := (before.dropped : Int) - after.taken
  let x :=
    match exponent with
    | some (down, ds) => withExponent after.value place down ds
    | none => scale after.value place
  x.map fun x => .fraction (x.signed negative)

/-- The sign of a number, and what follows it. -/
def numberSign : List Char → Bool × List Char
  | '-' :: cs => (true, cs)
  | cs => (false, cs)

/-- Reads a number off the front of a text. A zero that leads stands alone. -/
def read (cs : List Char) : Option (Number × List Char) := do
  let (negative, cs) := numberSign cs
  let (digits, cs) := spanDigits cs
  if digits.isEmpty || (digits.head? = some '0' && 1 < digits.length) then none
  else
    let (point, cs) ← readPoint cs
    let (exponent, cs) ← readExponent cs
    let n ← if point.isEmpty && exponent.isNone then ofDigits negative digits
      else ofParts negative digits point exponent
    some (n, cs)

/-! ## Writing -/

def renderDecimal (d : Binary64.Decimal) : List Char :=
  let ds := Decimal.digits d.digits
  let top : Int := d.place + ds.length - 1
  if top < -5 || 15 < top then
    let sign := if top < 0 then '-' else '+'
    let tail := match ds.drop 1 with
      | [] => []
      | rest => '.' :: rest
    ds.take 1 ++ tail ++ ['e', sign] ++ Decimal.digits top.natAbs
  else if top < 0 then
    ['0', '.'] ++ List.replicate (-top - 1).toNat '0' ++ ds
  else if 0 ≤ d.place then
    ds ++ List.replicate d.place.toNat '0' ++ ['.', '0']
  else ds.take (top + 1).toNat ++ '.' :: ds.drop (top + 1).toNat

/-- The text of a binary fraction. -/
def renderFraction (x : Binary64) : List Char :=
  let sign := if x.negative then ['-'] else []
  sign ++ if x.mantissa = 0 then ['0', '.', '0'] else renderDecimal x.shortest

def render : Number → List Char
  | .whole (.ofNat n) => Decimal.digits n
  | .whole (.negSucc n) => '-' :: Decimal.digits (n + 1)
  | .fraction x => renderFraction x

end SplitHorizon.Json.Number
