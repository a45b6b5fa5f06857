/-!
# Patterns for values

A filter of the log may ask for the value of a field by a regular expression. This is the tree of
one, as it is written: what matters here is whether there is such an expression, so of the parts
that only change what is matched no more is kept than that takes.
-/

namespace SplitHorizon.Log

namespace Pattern

/-- A character that stands for itself, and whether it is written as the two digits of a byte. -/
structure Literal where
  char : Char
  isByte : Bool
  deriving DecidableEq, Repr

/-- What a flag changes. -/
inductive Flag
  | ignoreCase
  | manyLines
  | dotTakesLines
  | lazy
  | unicode
  | carriageReturns
  | ignoreBlanks
  deriving DecidableEq, Repr

/-- Flags that are set and flags that are taken back. -/
structure Flags where
  on : List Flag
  off : List Flag
  deriving DecidableEq, Repr

/-- What flags say of one of them, if anything. -/
def Flags.state? (fs : Flags) (f : Flag) : Option Bool :=
  if fs.on.contains f then some true
  else if fs.off.contains f then some false
  else none

mutual

/-- An item between brackets. -/
inductive ClassItem
  | literal (l : Literal)
  | range (first last : Literal)
  /-- A class of ASCII characters with a name. -/
  | named (negated : Bool)
  /-- The digits, the blanks or the characters of words. -/
  | shorthand (negated : Bool)
  | property
  | bracketed (negated : Bool) (set : ClassSet)

/-- What stands between brackets: items, or two sets with an operator between them. -/
inductive ClassSet
  | union (items : List ClassItem)
  | combined (left right : ClassSet)

end

end Pattern

open Pattern in
/-- A regular expression. -/
inductive Pattern
  | flags (fs : Flags)
  | literal (l : Literal)
  | dot
  /-- A place; `word` tells whether the characters of words decide if it is one. -/
  | place (word : Bool)
  | shorthand (negated : Bool)
  | property
  | bracketed (negated : Bool) (set : ClassSet)
  | repeated (p : Pattern)
  | group (name : Option String) (fs : Flags) (p : Pattern)
  /-- Patterns one after the other; without any of them it is empty. -/
  | sequence (ps : List Pattern)
  /-- Patterns of which one is to match. -/
  | choice (ps : List Pattern)

end SplitHorizon.Log
