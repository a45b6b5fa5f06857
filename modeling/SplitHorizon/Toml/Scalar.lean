import SplitHorizon.Number.Binary64
import SplitHorizon.Number.Decimal
import SplitHorizon.Number.Places
import SplitHorizon.Text.Blank
import SplitHorizon.Toml.Table
/-!
# TOML scalars

The values that are written without quotes and brackets: whole numbers, fractions, truth values and
points in time. Each is read from the whole of its text. A number that is well formed may still be
beyond the range of numbers: 128 bits for a whole number, 64 bits for a fraction.
-/

namespace SplitHorizon.Toml

/-! ## Numbers -/

/-- Digits without the single underscores that stand between them. -/
def ungroup (isDigit : Char → Bool) : List Char → Option (List Char)
  | [] => none
  | [c] => if isDigit c then some [c] else none
  | c :: '_' :: cs => if isDigit c then (ungroup isDigit cs).map (c :: ·) else none
  | c :: cs => if isDigit c then (ungroup isDigit cs).map (c :: ·) else none

def isDigit (c : Char) : Bool := (Decimal.digit? c).isSome

/-- The value of a digit in a base of at most sixteen. -/
def digitOf? (base : Nat) (c : Char) : Option Nat :=
  (Places.hexDigit? c).filter fun d => d < base

def valueOf (base : Nat) (ds : List Char) : Nat :=
  Places.toNat base (ds.map fun c => (digitOf? base c).getD 0)

/-- The sign in front of a number, and the rest. -/
def sign : List Char → Bool × List Char
  | '+' :: cs => (false, cs)
  | '-' :: cs => (true, cs)
  | cs => (false, cs)

/-- Whether digits have a zero in front of others. -/
def hasLeadingZero : List Char → Bool
  | '0' :: _ :: _ => true
  | _ => false

/-- The digits of a decimal number, without a leading zero. -/
def decimalDigits (cs : List Char) : Option (List Char) :=
  (ungroup isDigit cs).filter fun ds => !hasLeadingZero ds

/-- Whether a whole number fits into 128 bits, with or without a sign. -/
def isBoundedInteger (n : Int) : Bool :=
  -0x80000000000000000000000000000000 ≤ n && n < 0x100000000000000000000000000000000

/-- Reads digits of a base as a whole number. -/
def readBase (base : Nat) (cs : List Char) : Option Int := do
  let ds ← ungroup (fun c => (digitOf? base c).isSome) cs
  some (valueOf base ds)

def readInteger (cs : List Char) : Option Int :=
  match cs with
  | '0' :: 'x' :: ds => readBase 16 ds
  | '0' :: 'o' :: ds => readBase 8 ds
  | '0' :: 'b' :: ds => readBase 2 ds
  | _ => do
    let (negative, ds) := sign cs
    let ds ← decimalDigits ds
    let n : Int := valueOf 10 ds
    some (if negative then -n else n)

/-- Whether a text is the exponent of a fraction, behind the letter. -/
def isExponent (cs : List Char) : Bool := (ungroup isDigit (sign cs).2).isSome

/-- What stands before and after the letter of an exponent. -/
def cutExponent (cs : List Char) : Option (List Char × List Char) :=
  (Text.cutFirst 'e' cs).or (Text.cutFirst 'E' cs)

/-- Whether a text is digits, with or without a point and more digits behind them. -/
def isPointed (cs : List Char) : Bool :=
  match Text.cutFirst '.' cs with
  | some (whole, part) => (decimalDigits whole).isSome && (ungroup isDigit part).isSome
  | none => (decimalDigits cs).isSome

/-- Whether a text is a fraction: digits with a point, an exponent or both, or one of the two values
that are written as words. -/
def isFraction (cs : List Char) : Bool :=
  let cs := (sign cs).2
  cs == "inf".toList || cs == "nan".toList ||
    match cutExponent cs with
    | some (digits, exponent) => isPointed digits && isExponent exponent
    | none => cs.contains '.' && isPointed cs

/-- The digits of a fraction, and the power of ten that the number they spell is multiplied by. -/
def decimalOf (cs : List Char) : List Char × Int :=
  let cs := cs.filter fun c => c != '_'
  let (digits, exponent) := (cutExponent cs).getD (cs, [])
  let (whole, part) := (Text.cutFirst '.' digits).getD (digits, [])
  let (down, es) := sign exponent
  let e : Int := valueOf 10 es
  (whole ++ part, (if down then -e else e) - part.length)

/-- The number of digits of the largest number of 64 bits. -/
def topDigits : Int := 309

/-- Whether a fraction rounds to a number of 64 bits. The count of its digits decides, unless there
are as many of them as the largest number has. -/
def isBoundedFraction (cs : List Char) : Bool :=
  let (ds, place) := decimalOf (sign cs).2
  let ds := ds.dropWhile (· == '0')
  let size := ds.length + place
  if ds.all isDigit && !ds.isEmpty && topDigits ≤ size then
    let n := valueOf 10 ds
    let scaled := (n * Nat.pow 10 place.toNat, Nat.pow 10 (-place).toNat)
    size = topDigits && (Binary64.ofQuotient scaled.1 scaled.2).isSome
  else true

/-! ## Points in time -/

def two? (a b : Char) : Option Nat := do
  let a ← Decimal.digit? a
  let b ← Decimal.digit? b
  some (a * 10 + b)

def daysIn (year month : Nat) : Nat :=
  if month = 2 then
    if year % 4 = 0 && (year % 100 ≠ 0 || year % 400 = 0) then 29 else 28
  else if [4, 6, 9, 11].contains month then 30
  else 31

def scanDate : List Char → Option (List Char)
  | a :: b :: c :: d :: '-' :: e :: f :: '-' :: g :: h :: rest => do
    let high ← two? a b
    let low ← two? c d
    let month ← two? e f
    let day ← two? g h
    if 1 ≤ month && month ≤ 12 && 1 ≤ day && day ≤ daysIn (high * 100 + low) month then some rest
    else none
  | _ => none

/-- Reads a point and digits, if there is a point. -/
def scanPart : List Char → Option (List Char)
  | '.' :: cs =>
    let rest := cs.dropWhile isDigit
    if rest.length < cs.length then some rest else none
  | cs => some cs

def scanSeconds : List Char → Option (List Char)
  | ':' :: a :: b :: rest => do
    let second ← two? a b
    if second ≤ 60 then scanPart rest else none
  | ':' :: _ => none
  | cs => some cs

def scanTime : List Char → Option (List Char)
  | a :: b :: ':' :: c :: d :: rest => do
    let hour ← two? a b
    let minute ← two? c d
    if hour ≤ 23 && minute ≤ 59 then scanSeconds rest else none
  | _ => none

/-- Whether a text is a distance from universal time. -/
def isOffset : List Char → Bool
  | ['Z'] | ['z'] => true
  | [s, a, b, ':', c, d] =>
    (s == '+' || s == '-') && (two? a b).any (· ≤ 23) && (two? c d).any (· ≤ 59)
  | _ => false

/-- Whether a character stands between a date and a time. -/
def isDivider (c : Char) : Bool := c == 'T' || c == 't' || c == ' '

/-- Whether a text is a date, a time, or both, with a distance from universal time or without. -/
def isMoment (cs : List Char) : Bool :=
  match scanDate cs with
  | some [] => true
  | some (c :: rest) =>
    isDivider c &&
      match scanTime rest with
      | some offset => offset.isEmpty || isOffset offset
      | none => false
  | none => scanTime cs == some []

/-! ## All scalars -/

def readScalar (cs : List Char) : Option Toml :=
  if cs = "true".toList then some (.boolean true)
  else if cs = "false".toList then some (.boolean false)
  else
    match readInteger cs with
    | some n => some (if isBoundedInteger n then .integer n else .excess (String.ofList cs))
    | none =>
      if isFraction cs then
        let text := String.ofList cs
        some (if isBoundedFraction cs then .fraction text else .excess text)
      else if isMoment cs then some (.moment (String.ofList cs))
      else none

/-- Whether a character can be part of a scalar. -/
def isScalarChar (c : Char) : Bool := c.isAlphanum || ['+', '-', '_', '.', ':'].contains c

/-- Takes the text of a scalar off the front. A blank may divide a date from a time. -/
def spanScalar (cs : List Char) : List Char × List Char :=
  let (front, rest) := cs.span isScalarChar
  match scanDate front, rest with
  | some [], ' ' :: c :: more =>
    if isDigit c then
      let (time, rest) := (c :: more).span isScalarChar
      (front ++ ' ' :: time, rest)
    else (front, rest)
  | _, _ => (front, rest)

end SplitHorizon.Toml
