/-!
# Domain names as labels

A domain name inside a message is a sequence of labels, each of them a few arbitrary bytes. The
names of a message end at the root; a name that was read from text without the dot at its end does
not.
-/

namespace SplitHorizon

/-- A domain name: its labels, and whether it ends at the root. -/
structure DomainName where
  labels : List (List UInt8)
  absolute : Bool
  deriving DecidableEq, Repr

namespace DomainName

def root : DomainName := ⟨[], true⟩

/-- The name of labels below the root. -/
def ofLabels (labels : List (List UInt8)) : DomainName := ⟨labels, true⟩

def maxLabel : Nat := 63

def maxSize : Nat := 255

/-- The bytes that labels take in a message: each has its length in front. -/
def span (labels : List (List UInt8)) : Nat := labels.foldr (fun l n => l.length + 1 + n) 0

def size (name : DomainName) : Nat := span name.labels + 1

/-- A byte, with a letter from A to Z made small. -/
def smallByte (b : UInt8) : UInt8 := if 65 ≤ b && b ≤ 90 then b + 32 else b

def small (name : DomainName) : DomainName :=
  { name with labels := name.labels.map fun l => l.map smallByte }

/-- Whether a label can stand in a message. -/
def fits (label : List UInt8) : Bool := !label.isEmpty && label.length ≤ maxLabel

/-- A name that can stand in a message. -/
structure Valid (name : DomainName) : Prop where
  labels : ∀ l ∈ name.labels, fits l = true
  size : name.size ≤ maxSize

end DomainName

end SplitHorizon
