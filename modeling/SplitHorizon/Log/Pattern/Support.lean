import SplitHorizon.Log.Pattern.Reader
/-!
# Supported patterns

Not every pattern can be matched. Matching goes byte by byte over text in UTF-8 and knows no tables
of characters: so there are no classes of them but those that are written out, letters can not be
matched in either case, and a place can not depend on the characters of words. A flag that takes the
tables back makes a pattern speak of ASCII only; then it must not match a part of a character.

Apart from that, patterns may be nested up to a limit, and no two groups have the same name.
-/

namespace SplitHorizon.Log.Pattern

/-! ## Nesting -/

mutual

def ClassItem.depth : ClassItem → Nat
  | .bracketed _ set => set.depth + 1
  | .literal _ | .range _ _ | .named _ | .shorthand _ | .property => 0

/-- The number of levels of a set. Items make a level if there are several. -/
def ClassSet.depth : ClassSet → Nat
  | .union items => deepest items + if items.length ≤ 1 then 0 else 1
  | .combined left right => max left.depth right.depth + 1

def deepest : List ClassItem → Nat
  | [] => 0
  | i :: is => max i.depth (deepest is)

end

mutual

def depth : Pattern → Nat
  | .bracketed _ set => set.depth + 1
  | .repeated p => p.depth + 1
  | .group _ _ p => p.depth + 1
  | .sequence ps => deepestOf ps + if ps.length ≤ 1 then 0 else 1
  | .choice ps => deepestOf ps + 1
  | .flags _ | .literal _ | .dot | .place _ | .shorthand _ | .property => 0

def deepestOf : List Pattern → Nat
  | [] => 0
  | p :: ps => max p.depth (deepestOf ps)

end

def maxDepth : Nat := 250

/-! ## Names -/

mutual

def names : Pattern → List String
  | .repeated p => p.names
  | .group name _ p => name.toList ++ p.names
  | .sequence ps => namesOf ps
  | .choice ps => namesOf ps
  | .bracketed _ _ | .flags _ | .literal _ | .dot | .place _ | .shorthand _ | .property => []

def namesOf : List Pattern → List String
  | [] => []
  | p :: ps => p.names ++ namesOf ps

end

/-! ## Matching -/

/-- The flags that decide what can be matched. -/
structure Mode where
  ignoreCase : Bool
  unicode : Bool
  deriving DecidableEq, Repr

def Mode.initial : Mode := ⟨false, true⟩

def Mode.apply (m : Mode) (fs : Flags) : Mode :=
  ⟨(fs.state? .ignoreCase).getD m.ignoreCase, (fs.state? .unicode).getD m.unicode⟩

/-- Whether a character can be matched. -/
def Literal.isSupported (m : Mode) (l : Literal) : Bool :=
  if m.unicode then !m.ignoreCase else !l.isByte || l.char.toNat < 128

/-- Whether a character can be matched as one of a class. -/
def Literal.isMember (m : Mode) (l : Literal) : Bool :=
  if m.unicode then !m.ignoreCase else l.char.toNat < 128

/-- Whether what matches all but some characters can be matched. -/
def isNegatable (m : Mode) (negated : Bool) : Bool := m.unicode || !negated

mutual

def ClassItem.isSupported (m : Mode) : ClassItem → Bool
  | .literal l => l.isMember m
  | .range first last => first.isMember m && last.isMember m
  | .named negated => isNegatable m negated && !(m.unicode && m.ignoreCase)
  | .shorthand negated => !m.unicode && !negated
  | .property => false
  | .bracketed negated set => isNegatable m negated && set.isSupported m

def ClassSet.isSupported (m : Mode) : ClassSet → Bool
  | .union items => areSupported m items
  | .combined left right => left.isSupported m && right.isSupported m

def areSupported (m : Mode) : List ClassItem → Bool
  | [] => true
  | i :: is => i.isSupported m && areSupported m is

end

mutual

/-- The mode behind a pattern, if it can be matched. -/
def modeAfter (m : Mode) : Pattern → Option Mode
  | .flags fs => some (m.apply fs)
  | .literal l => if l.isSupported m then some m else none
  | .dot => if m.unicode then some m else none
  | .place word => if word && m.unicode then none else some m
  | .shorthand negated => if !m.unicode && !negated then some m else none
  | .property => none
  | .bracketed negated set =>
    if isNegatable m negated && set.isSupported m then some m else none
  | .repeated p => modeAfter m p
  | .group _ fs p => (modeAfter (m.apply fs) p).map fun _ => m
  | .sequence ps => modeAfterAll m ps
  | .choice ps => modeAfterAll m ps

/-- The mode behind patterns one after the other, if they can be matched. -/
def modeAfterAll (m : Mode) : List Pattern → Option Mode
  | [] => some m
  | p :: ps => (modeAfter m p).bind fun m => modeAfterAll m ps

end

def isSupported (p : Pattern) : Bool :=
  p.depth ≤ maxDepth && p.names.eraseDups.length == p.names.length &&
    (modeAfter .initial p).isSome

def isPattern (cs : List Char) : Bool := (read cs).any isSupported

end SplitHorizon.Log.Pattern
