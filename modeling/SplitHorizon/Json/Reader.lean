import SplitHorizon.Json.Number
/-!
# Reading JSON text

The grammar of RFC 8259, without leniency: no mark at the start, nothing but blanks after the value,
no lone surrogate among the escapes. Arrays and objects that are open at the same time are counted,
and a value that would open one too many is refused.

A value is read by recursion on the number of levels that may still be opened; the items of one
level are read by a loop that is bounded by the length of the text.
-/

namespace SplitHorizon.Json

/-- The levels that may be open at the same time. -/
def maxDepth : Nat := 127

/-- The blanks of the grammar. -/
def isSpace (c : Char) : Bool := c == ' ' || c == '\n' || c == '\t' || c == '\r'

def skipSpace (cs : List Char) : List Char := cs.dropWhile isSpace

/-! ## Strings -/

def escaped? : Char → Option Char
  | '"' => some '"'
  | '\\' => some '\\'
  | '/' => some '/'
  | 'b' => some '\x08'
  | 'f' => some '\x0c'
  | 'n' => some '\n'
  | 'r' => some '\r'
  | 't' => some '\t'
  | _ => none

/-- The number that four hexadecimal digits spell. -/
def unit? (a b c d : Char) : Option Nat := do
  let a ← Places.hexDigit? a
  let b ← Places.hexDigit? b
  let c ← Places.hexDigit? c
  let d ← Places.hexDigit? d
  some (((a * 16 + b) * 16 + c) * 16 + d)

def isHighSurrogate (u : Nat) : Bool := 0xD800 ≤ u && u ≤ 0xDBFF

def isLowSurrogate (u : Nat) : Bool := 0xDC00 ≤ u && u ≤ 0xDFFF

/-- The character of a pair of surrogates. -/
def pair (high low : Nat) : Char := Char.ofNat (0x10000 + (high - 0xD800) * 0x400 + (low - 0xDC00))

/-- The character that a unit escape stands for, with the second half of a pair read off the text
that follows it. -/
def scanUnit (u : Nat) (cs : List Char) : Option (Char × List Char) :=
  if isLowSurrogate u then none
  else if isHighSurrogate u then
    match cs with
    | '\\' :: 'u' :: a :: b :: c :: d :: rest => do
      let low ← unit? a b c d
      if isLowSurrogate low then some (pair u low, rest) else none
    | _ => none
  else some (Char.ofNat u, cs)

/-- Reads one character of a string; none at its end or where it is malformed. -/
def scanChar : List Char → Option (Char × List Char)
  | [] => none
  | '"' :: _ => none
  | '\\' :: 'u' :: a :: b :: c :: d :: rest => do
    let u ← unit? a b c d
    scanUnit u rest
  | '\\' :: e :: rest => (escaped? e).map fun c => (c, rest)
  | c :: rest => if c == '\\' || c.toNat < 0x20 then none else some (c, rest)

/-- Reads a string after its opening quote. -/
def scanString : (fuel : Nat) → (read : List Char) → List Char → Option (String × List Char)
  | 0, _, _ => none
  | _ + 1, read, '"' :: cs => some (String.ofList read.reverse, cs)
  | fuel + 1, read, cs =>
    match scanChar cs with
    | some (c, rest) => scanString fuel (c :: read) rest
    | none => none

def readString : List Char → Option (String × List Char)
  | '"' :: cs => scanString (cs.length + 1) [] cs
  | _ => none

/-! ## Values -/

/-- Takes a given text off the front. -/
def literal (text : String) (value : Json) (cs : List Char) : Option (Json × List Char) :=
  let expected := text.toList
  if expected.isPrefixOf cs then some (value, cs.drop expected.length) else none

/-- A value that opens no level. -/
def readScalar (cs : List Char) : Option (Json × List Char) :=
  match cs with
  | 'n' :: _ => literal "null" .null cs
  | 't' :: _ => literal "true" (.bool true) cs
  | 'f' :: _ => literal "false" (.bool false) cs
  | '"' :: _ => (readString cs).map fun p => (.string p.1, p.2)
  | _ => (Number.read cs).map fun p => (.number p.1, p.2)

/-- Reads items between commas up to a closing character. -/
def readItems {α : Type} (item : List Char → Option (α × List Char)) (close : Char) :
    (fuel : Nat) → List Char → Option (List α × List Char)
  | 0, _ => none
  | fuel + 1, cs =>
    match item (skipSpace cs) with
    | none => none
    | some (a, rest) =>
      match skipSpace rest with
      | c :: rest =>
        if c == close then some ([a], rest)
        else if c == ',' then (readItems item close fuel rest).map fun p => (a :: p.1, p.2)
        else none
      | [] => none

/-- Reads the items of a level that has just been opened, none of them or some. -/
def readLevel {α : Type} (item : List Char → Option (α × List Char)) (close : Char)
    (cs : List Char) : Option (List α × List Char) :=
  match skipSpace cs with
  | [] => none
  | c :: rest =>
    if c == close then some ([], rest) else readItems item close (rest.length + 1) (c :: rest)

/-- Reads a name, a colon and a value. -/
def readMember (value : List Char → Option (Json × List Char)) (cs : List Char) :
    Option ((String × Json) × List Char) := do
  let (name, rest) ← readString cs
  match skipSpace rest with
  | ':' :: rest =>
    let (v, rest) ← value (skipSpace rest)
    some ((name, v), rest)
  | _ => none

/-- Reads a value off a text that starts with it; `depth` more levels may be opened. -/
def readValue : (depth : Nat) → List Char → Option (Json × List Char)
  | 0, cs =>
    match cs with
    | '[' :: _ | '{' :: _ => none
    | _ => readScalar cs
  | depth + 1, cs =>
    match cs with
    | '[' :: rest => (readLevel (readValue depth) ']' rest).map fun p => (.array p.1, p.2)
    | '{' :: rest =>
      (readLevel (readMember (readValue depth)) '}' rest).map fun p =>
        (.object (ofMembers p.1), p.2)
    | _ => readScalar cs

/-- The result of reading a whole text: only blanks may follow. -/
def whole {α : Type} : Option (α × List Char) → Option α
  | some (a, rest) => if (skipSpace rest).isEmpty then some a else none
  | none => none

def read (cs : List Char) : Option Json := whole (readValue maxDepth (skipSpace cs))

/-- Reads a whole text as an object whose members are kept as they are written, repeated names
included. -/
def readEntries (cs : List Char) : Option (List (String × Json)) :=
  match skipSpace cs with
  | '{' :: rest => whole (readLevel (readMember (readValue (maxDepth - 1))) '}' rest)
  | _ => none

end SplitHorizon.Json
