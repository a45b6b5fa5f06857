/-!
# Blank characters

Which characters count as white space, and the two things done with them: trimming a text at both
ends and cutting it into fields. The set is Unicode's property `White_Space`; the zero-width
characters (U+200B, U+FEFF) are outside it and count as text.

Texts are worked on as lists of characters. A `String` is taken apart where a function is entered
and put together where its result leaves.
-/

namespace SplitHorizon.Text

/-! ## The property -/

/-- The blank code points, as inclusive ranges in ascending order. -/
def blankRanges : List (Nat × Nat) :=
  [(0x9, 0xD), (0x20, 0x20), (0x85, 0x85), (0xA0, 0xA0), (0x1680, 0x1680), (0x2000, 0x200A),
   (0x2028, 0x2029), (0x202F, 0x202F), (0x205F, 0x205F), (0x3000, 0x3000)]

/-- Whether a character is white space. -/
def isBlank (c : Char) : Bool :=
  blankRanges.any fun r => r.1 ≤ c.toNat && c.toNat ≤ r.2

/-! ## Trimming -/

def trimStart (cs : List Char) : List Char := cs.dropWhile isBlank

def trimEnd (cs : List Char) : List Char := (cs.reverse.dropWhile isBlank).reverse

def trim (cs : List Char) : List Char := trimEnd (trimStart cs)

/-! ## Cutting -/

/-- The pieces between the characters that satisfy `p`, empty ones included: one more than there
are such characters. -/
def pieces (p : Char → Bool) : List Char → List (List Char)
  | [] => [[]]
  | c :: cs =>
    if p c then [] :: pieces p cs
    else
      match pieces p cs with
      | [] => [[c]]
      | w :: ws => (c :: w) :: ws

/-- The runs of characters that are not blank. -/
def fields (cs : List Char) : List (List Char) :=
  (pieces isBlank cs).filter fun w => !w.isEmpty

/-- What stands before and after the first `c`. -/
def cutFirst (c : Char) : List Char → Option (List Char × List Char)
  | [] => none
  | d :: ds =>
    if d == c then some ([], ds)
    else (cutFirst c ds).map fun p => (d :: p.1, p.2)

/-- What stands before and after the last `c`. -/
def cutLast (c : Char) : List Char → Option (List Char × List Char)
  | [] => none
  | d :: ds =>
    match cutLast c ds with
    | some p => some (d :: p.1, p.2)
    | none => if d == c then some ([], ds) else none

/-! ## Measure and letter case -/

def width (cs : List Char) : Nat := cs.foldr (fun c n => c.utf8Size + n) 0

def utf8 (cs : List Char) : List UInt8 := cs.flatMap String.utf8EncodeChar

/-- The text with the letters A to Z made small; other characters stay. -/
def fold (cs : List Char) : List Char := cs.map Char.toLower

def sameLetters (a b : List Char) : Bool := fold a == fold b

end SplitHorizon.Text
