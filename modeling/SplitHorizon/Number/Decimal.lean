/-!
# Decimal numbers with a limit

Whole numbers written in decimal, read up to a limit. A plus sign may stand first and zeros may
lead. The characters are taken from the left, and the first one at which something is wrong, a
character that is no digit or a value over the limit, decides which fault is reported.
-/

namespace SplitHorizon.Decimal

/-- Why a text is not a number within the limit. -/
inductive Fault
  | empty
  | invalidDigit
  | tooLarge
  deriving DecidableEq, Repr

def Fault.message : Fault → String
  | .empty => "cannot parse integer from empty string"
  | .invalidDigit => "invalid digit found in string"
  | .tooLarge => "number too large to fit in target type"

/-! ## Digits -/

def digit? (c : Char) : Option Nat :=
  if 48 ≤ c.toNat && c.toNat ≤ 57 then some (c.toNat - 48) else none

def digitChar (d : Nat) : Char := Char.ofNat (48 + d)

/-- The digits of a number, the most significant first, without leading zeros. -/
def digits (n : Nat) : List Char :=
  if n < 10 then [digitChar n] else digits (n / 10) ++ [digitChar (n % 10)]
termination_by n

def render (n : Nat) : String := String.ofList (digits n)

/-! ## Reading -/

/-- Reads digits onto the value read so far. -/
def readDigits (limit : Nat) : Nat → List Char → Except Fault Nat
  | n, [] => .ok n
  | n, c :: cs =>
    match digit? c with
    | none => .error .invalidDigit
    | some d => if limit < n * 10 + d then .error .tooLarge else readDigits limit (n * 10 + d) cs

/-- Reads a whole text as a number of at most `limit`. -/
def read (limit : Nat) : List Char → Except Fault Nat
  | [] => .error .empty
  | ['+'] => .error .invalidDigit
  | '+' :: cs => readDigits limit 0 cs
  | cs => readDigits limit 0 cs

def read16 (cs : List Char) : Except Fault UInt16 :=
  (read 65535 cs).map UInt16.ofNat

def read32 (cs : List Char) : Except Fault UInt32 :=
  (read 4294967295 cs).map UInt32.ofNat

end SplitHorizon.Decimal
