import SplitHorizon.Log.Pattern.Support
import SplitHorizon.Number.Decimal
/-!
# Log filters

What is logged is chosen by a text: directives with commas between them, of which empty ones do not
count. A directive is a level, or the name of a part of the program, which stands for all its
levels, or such a name, an equals sign and a level. A level is a word or a number, and no level at
all behind the sign stands for all of them. The name may be followed, or replaced, by the name of a
span in brackets, with a field in braces behind it; a field may ask for a value, which is a number
or a pattern.

Blanks around a directive are passed over where its parts are looked for, but they are counted where
its parts are cut out: with blanks in front each part is taken from as many bytes too early, and it
can not be taken at all if that is inside a character.
-/

namespace SplitHorizon.Log

/-- Why a text is no filter. -/
inductive FilterFault
  | malformed
  /-- A part of it would begin or end inside a character. -/
  | cutCharacter
  deriving DecidableEq, Repr

/-- Fails unless a condition holds. -/
def require (holds : Bool) : Except FilterFault Unit :=
  if holds then .ok () else .error .malformed

/-! ## Levels -/

def levels : List String := ["off", "error", "warn", "info", "debug", "trace"]

def isLevel (cs : List Char) : Bool :=
  (Decimal.read 5 cs).toBool || levels.any fun l => Text.sameLetters l.toList cs

/-- Whether a text stands for levels behind an equals sign. -/
def isLevelOrNone (cs : List Char) : Bool := cs.isEmpty || isLevel cs

/-! ## Values -/

/-- Whether a text is a decimal digit after the other, at least one. -/
def areDigits (cs : List Char) : Bool :=
  !cs.isEmpty && cs.all fun c => (Decimal.digit? c).isSome

/-- The text behind a sign, if it starts with one. -/
def dropSign : List Char → List Char
  | '+' :: cs | '-' :: cs => cs
  | cs => cs

/-- Whether a text is an exponent, or nothing. -/
def isExponentOrNone : List Char → Bool
  | [] => true
  | c :: cs => (c == 'e' || c == 'E') && areDigits (dropSign cs)

/-- Whether a text is digits, with a point before, among or behind them or none, and with an
exponent or none. -/
def isDecimal (cs : List Char) : Bool :=
  let isDigit := fun c => (Decimal.digit? c).isSome
  let (whole, rest) := cs.span isDigit
  let (part, rest) :=
    match rest with
    | '.' :: rest => rest.span isDigit
    | rest => ([], rest)
  !(whole ++ part).isEmpty && isExponentOrNone rest

/-- Whether a text is a number, with a sign or none. The words for what has no digits count. -/
def isNumber (cs : List Char) : Bool :=
  let cs := dropSign cs
  isDecimal cs || ["inf", "infinity", "nan"].any fun w => Text.sameLetters w.toList cs

/-- Whether a text stands for values. -/
def isValue (cs : List Char) : Bool := isNumber cs || Pattern.isPattern cs

/-- Whether a text stands for a field: a name, or a name and a value with an equals sign between
them. What follows a second sign is not looked at. -/
def isField (cs : List Char) : Bool :=
  !cs.isEmpty &&
    match Text.pieces (· == '=') cs with
    | _ :: value :: _ => isValue value
    | _ => true

/-! ## Cutting -/

/-- The text behind its first `n` bytes; none inside a character. -/
def dropBytes : (n : Nat) → List Char → Option (List Char)
  | 0, cs => some cs
  | _ + 1, [] => some []
  | n + 1, c :: cs => if c.utf8Size ≤ n + 1 then dropBytes (n + 1 - c.utf8Size) cs else none

/-- The first `n` bytes of a text; none inside a character. -/
def takeBytes : (n : Nat) → List Char → Option (List Char)
  | 0, _ => some []
  | _ + 1, [] => some []
  | n + 1, c :: cs =>
    if c.utf8Size ≤ n + 1 then (takeBytes (n + 1 - c.utf8Size) cs).map (c :: ·) else none

/-- The text from a byte on. -/
def partFrom (raw : List Char) (start : Nat) : Except FilterFault (List Char) :=
  (dropBytes start raw).elim (.error .cutCharacter) .ok

/-- The text of `n` bytes from a byte on. -/
def part (raw : List Char) (start n : Nat) : Except FilterFault (List Char) := do
  let cs ← partFrom raw start
  (takeBytes n cs).elim (.error .cutCharacter) .ok

/-! ## Directives -/

def beginsName (c : Char) : Bool := ['-', ':', '_'].contains c || Text.isLetterOrDigit c

/-- Checks the level that the directive `raw` ends in, from a byte on. -/
def checkLevel (raw : List Char) (start : Nat) : Except FilterFault Unit := do
  let level ← partFrom raw start
  require (isLevelOrNone level)

/-- Checks what follows a closing bracket: nothing, or a level. -/
def checkAfterSpan (raw : List Char) (place : Nat) : List Char → Except FilterFault Unit
  | [] => .ok ()
  | '=' :: _ => checkLevel raw (place + 1)
  | _ => .error .malformed

/-- Checks what follows an opening brace: a field, and the end of the span. -/
def checkField (raw : List Char) (place : Nat) (cs : List Char) : Except FilterFault Unit := do
  let (field, rest) := cs.span (· != '\x7d')
  let n := Text.width field
  match rest with
  | [] => .error .malformed
  | _ :: rest =>
    let cut ← part raw place n
    require (isField cut)
    match rest with
    | ']' :: rest => checkAfterSpan raw (place + n + 2) rest
    | _ => .error .malformed

/-- Checks what follows an opening bracket: the name of a span, with a field or without. -/
def checkSpan (raw : List Char) (place : Nat) (cs : List Char) : Except FilterFault Unit := do
  let (name, rest) := cs.span fun c => c != ']' && c != '\x7b'
  let n := Text.width name
  match rest with
  | [] => .error .malformed
  | c :: rest =>
    let _ ← part raw place n
    if c == ']' then checkAfterSpan raw (place + n + 1) rest
    else checkField raw (place + n + 1) rest

def checkDirective (raw : List Char) : Except FilterFault Unit := do
  match Text.trim raw with
  | [] => .error .malformed
  | '[' :: rest => checkSpan raw 1 rest
  | c :: cs =>
    require (beginsName c)
    let (name, rest) := (c :: cs).span fun d => d != '=' && d != '['
    let n := Text.width name
    match rest with
    | [] => .ok ()
    | sign :: rest =>
      let _ ← part raw 0 n
      if sign == '=' then checkLevel raw (n + 1) else checkSpan raw (n + 1) rest

/-! ## Filters -/

def directives (text : String) : List (List Char) :=
  (Text.pieces (· == ',') text.toList).filter fun d => !d.isEmpty

/-- Checks a filter. The first directive with a fault decides. -/
def check (text : String) : Except FilterFault Unit := (directives text).forM checkDirective

end SplitHorizon.Log
