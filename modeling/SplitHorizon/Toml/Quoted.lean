import SplitHorizon.Number.Places
/-!
# TOML strings

A string stands between quotation marks or between apostrophes, one of them on each side or three.
Escapes count between quotation marks only. Between three marks line ends may stand, the first one
is dropped if nothing stands before it, and a backslash at the end of a line drops all blanks and
line ends that follow it. Up to two marks may stand in front of the closing three.
-/

namespace SplitHorizon.Toml

/-- Whether a character may stand in a text as it is; a tab may, other control characters may
not. -/
def isTextChar (c : Char) : Bool := c == '\t' || (0x20 ≤ c.toNat && c.toNat ≠ 0x7F)

/-- Takes a line end off the front. -/
def lineEnd? : List Char → Option (List Char)
  | '\n' :: cs => some cs
  | '\r' :: '\n' :: cs => some cs
  | _ => none

/-! ## Escapes -/

def charOf? (n : Nat) : Option Char := if n.isValidChar then some (Char.ofNat n) else none

/-- Reads the character with a code of `n` hexadecimal digits. -/
def scanCode : (n : Nat) → (value : Nat) → List Char → Option (Char × List Char)
  | 0, value, cs => (charOf? value).map fun c => (c, cs)
  | _ + 1, _, [] => none
  | n + 1, value, c :: cs => do
    let d ← Places.hexDigit? c
    scanCode n (value * 16 + d) cs

/-- The character that an escape of one letter stands for. -/
def letter? (c : Char) : Option Char :=
  match c with
  | 'b' => some '\x08'
  | 't' => some '\t'
  | 'n' => some '\n'
  | 'f' => some '\x0c'
  | 'r' => some '\r'
  | 'e' => some '\x1b'
  | '"' => some '"'
  | '\\' => some '\\'
  | _ => none

def scanEscape : List Char → Option (Char × List Char)
  | 'x' :: cs => scanCode 2 0 cs
  | 'u' :: cs => scanCode 4 0 cs
  | 'U' :: cs => scanCode 8 0 cs
  | c :: cs => (letter? c).map fun e => (e, cs)
  | [] => none

/-! ## Strings on one line -/

/-- Reads a string between single marks; `escapes` tells whether a backslash escapes. -/
def scanLine (mark : Char) (escapes : Bool) : (fuel : Nat) → (read : List Char) → List Char →
    Option (String × List Char)
  | 0, _, _ => none
  | _ + 1, _, [] => none
  | fuel + 1, read, c :: cs =>
    if c == mark then some (String.ofList read.reverse, cs)
    else if escapes && c == '\\' then do
      let (e, cs) ← scanEscape cs
      scanLine mark escapes fuel (e :: read) cs
    else if isTextChar c then scanLine mark escapes fuel (c :: read) cs
    else none

/-! ## Strings over lines -/

/-- The text without the blanks and line ends that it starts with. -/
def skipSpaces : List Char → List Char
  | ' ' :: cs | '\t' :: cs | '\n' :: cs => skipSpaces cs
  | '\r' :: '\n' :: cs => skipSpaces cs
  | cs => cs

/-- Drops a line end and what follows it, if only blanks stand before it. -/
def joinLines (cs : List Char) : Option (List Char) :=
  (lineEnd? (cs.dropWhile fun c => c == ' ' || c == '\t')).map skipSpaces

/-- Reads a string between triple marks. -/
def scanLines (mark : Char) (escapes : Bool) : (fuel : Nat) → (read : List Char) → List Char →
    Option (String × List Char)
  | 0, _, _ => none
  | _ + 1, _, [] => none
  | fuel + 1, read, c :: cs =>
    if c == mark then
      let marks := (c :: cs).takeWhile (· == mark)
      if 3 ≤ marks.length then
        let extra := min (marks.length - 3) 2
        some (String.ofList (read.reverse ++ List.replicate extra mark), (c :: cs).drop (extra + 3))
      else scanLines mark escapes fuel (c :: read) cs
    else if escapes && c == '\\' then
      match joinLines cs with
      | some cs => scanLines mark escapes fuel read cs
      | none => do
        let (e, cs) ← scanEscape cs
        scanLines mark escapes fuel (e :: read) cs
    else if isTextChar c || c == '\n' then scanLines mark escapes fuel (c :: read) cs
    else
      match c, cs with
      | '\r', '\n' :: cs => scanLines mark escapes fuel ('\n' :: '\r' :: read) cs
      | _, _ => none

/-! ## All strings -/

/-- Reads a string on one line, which a key may be too. -/
def readLine : List Char → Option (String × List Char)
  | '"' :: cs => scanLine '"' true (cs.length + 1) [] cs
  | '\'' :: cs => scanLine '\'' false (cs.length + 1) [] cs
  | _ => none

def readString (cs : List Char) : Option (String × List Char) :=
  match cs with
  | '"' :: '"' :: '"' :: rest =>
    let rest := (lineEnd? rest).getD rest
    scanLines '"' true (rest.length + 1) [] rest
  | '\'' :: '\'' :: '\'' :: rest =>
    let rest := (lineEnd? rest).getD rest
    scanLines '\'' false (rest.length + 1) [] rest
  | _ => readLine cs

end SplitHorizon.Toml
