import SplitHorizon.Name.Labels
import SplitHorizon.Text.Blank
/-!
# Names as text

The text of a domain name: its labels with a dot between them, and one at the end if the name ends
at the root. A byte that is not a plain character of host names is escaped, by a backslash in front
of it if it can be shown and by three octal digits if it can not. Two names whose labels differ
never have the same text, because a dot or a backslash inside a label is escaped.

Reading undoes the escapes, but takes only labels of plain characters and dots; it does not accept
every text that `DomainName.toText` gives.
-/

namespace SplitHorizon.DomainName

/-! ## Writing -/

def isAlphanumeric (b : UInt8) : Bool :=
  (48 ≤ b && b ≤ 57) || (65 ≤ b && b ≤ 90) || (97 ≤ b && b ≤ 122)

/-- Whether a byte stands for itself; `first` tells that it begins its label. -/
def isPlain (first : Bool) (b : UInt8) : Bool :=
  isAlphanumeric b || b == 95 || (b == 45 && !first) || (b == 42 && first)

/-- The character of a byte below 128. -/
def charOf (b : UInt8) : Char := Char.ofNat b.toNat

def octalChar (n : Nat) : Char := Char.ofNat (48 + n)

/-- A byte as text. -/
def escape (first : Bool) (b : UInt8) : List Char :=
  if isPlain first b then [charOf b]
  else if 0x21 ≤ b && b ≤ 0x7e then ['\\', charOf b]
  else
    let n := b.toNat
    ['\\', octalChar (n / 64), octalChar (n / 8 % 8), octalChar (n % 8)]

def renderLabel : List UInt8 → List Char
  | [] => []
  | b :: bs => escape true b ++ bs.flatMap (escape false)

def render (name : DomainName) : List Char :=
  if name.labels.isEmpty then (if name.absolute then ['.'] else [])
  else
    List.intercalate ['.'] (name.labels.map renderLabel) ++ (if name.absolute then ['.'] else [])

def toText (name : DomainName) : String := String.ofList name.render

/-- The form under which the question for a name is looked up: its text in small letters. -/
def question (name : DomainName) : String := String.ofList (Text.fold name.render)

/-! ## Reading -/

/-- A piece of a name's text: the end of a label, or a byte of one. -/
inductive Piece
  | dot
  | byte (value : UInt8)
  deriving DecidableEq, Repr

/-- The byte of a code below 128. -/
def byteOf? (n : Nat) : Option UInt8 := if n < 128 then some (UInt8.ofNat n) else none

/-- The value of an octal digit. -/
def octal? (c : Char) : Option Nat :=
  if 48 ≤ c.toNat && c.toNat ≤ 55 then some (c.toNat - 48) else none

def isDigit (c : Char) : Bool := 48 ≤ c.toNat && c.toNat ≤ 57

/-- Whether a character can be shown: it is neither a blank nor a control character. -/
def isShown (c : Char) : Bool := 0x21 ≤ c.toNat && c.toNat ≤ 0x7e

/-- The pieces of a text. An escape that the end of the text cuts short is dropped. -/
def piecesOf : List Char → Option (List Piece)
  | [] => some []
  | '.' :: cs => (piecesOf cs).map (.dot :: ·)
  | ['\\'] => some []
  | '\\' :: c :: cs =>
    if !isDigit c then do
      let b ← byteOf? c.toNat
      let ps ← piecesOf cs
      some (.byte b :: ps)
    else
      match octal? c, cs with
      | none, _ => none
      | some _, [] => some []
      | some high, d :: cs =>
        match octal? d, cs with
        | none, _ => none
        | some _, [] => some []
        | some middle, e :: cs => do
          let low ← octal? e
          let b ← byteOf? (high * 64 + middle * 8 + low)
          let ps ← piecesOf cs
          some (.byte b :: ps)
  | c :: cs =>
    if isShown c then do
      let ps ← piecesOf cs
      some (.byte (UInt8.ofNat c.toNat) :: ps)
    else none

/-- The labels between dots, one more than there are dots. -/
def split : List Piece → List (List UInt8)
  | [] => [[]]
  | .dot :: ps => [] :: split ps
  | .byte b :: ps =>
    match split ps with
    | [] => [[b]]
    | l :: ls => (b :: l) :: ls

/-- Whether a byte may stand in a label that is read from text. -/
def isAllowed (first : Bool) (b : UInt8) : Bool := isPlain first b || b == 46

/-- Whether a label may be read from text. -/
def isReadable : List UInt8 → Bool
  | [] => false
  | b :: bs => fits (b :: bs) && isAllowed true b && bs.all (isAllowed false)

/-- Reads a name from text. It ends at the root if the text ends with a dot that is not escaped. -/
def read (cs : List Char) : Option DomainName :=
  if cs = ['.'] then some root
  else do
    let ps ← piecesOf cs
    let labels := split ps
    let last := labels.getLastD []
    let labels := if last.isEmpty then labels.dropLast else labels
    let name : DomainName := ⟨labels, last.isEmpty && !cs.isEmpty⟩
    if labels.all isReadable && name.size ≤ maxSize then some name else none

def ofText? (s : String) : Option DomainName := read s.toList

end SplitHorizon.DomainName
