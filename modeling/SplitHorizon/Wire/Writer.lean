import SplitHorizon.Name.Labels
import SplitHorizon.Wire.Reader
/-!
# Writing bytes

The fields of a message are written one after the other. A writer knows how many bytes stand before
it, how many there may be in all, and which names stand where among them, because a name that has
been written may be referred to. It fails where the bytes do not fit.

Of several items as many are written as fit: `front` stops at the first one that does not, and
forgets all that this one would have left behind.
-/

namespace SplitHorizon.Wire

/-- What a writer knows of the bytes before it: the most that there may be in all, their number, and
the ends of names among them with the places where they start. -/
structure Draft where
  limit : Nat
  size : Nat
  names : List (List (List UInt8) × Nat)
  deriving DecidableEq, Repr

def Draft.empty (limit : Nat) : Draft := ⟨limit, 0, []⟩

/-- Writes bytes, or fails. -/
abbrev Writer := StateT Draft Option (List UInt8)

namespace Writer

def bytes (bs : List UInt8) : Writer := fun d =>
  if d.size + bs.length ≤ d.limit then some (bs, { d with size := d.size + bs.length }) else none

/-- Writes several things one after the other. -/
def all : List Writer → Writer
  | [] => pure []
  | w :: ws => do
    let front ← w
    let rest ← all ws
    pure (front ++ rest)

/-- Writes something with its length in front, as a number of 16 bits. -/
def sized (w : Writer) : Writer := do
  let _ ← bytes [0, 0]
  let inside ← w
  pure (put16 (UInt16.ofNat inside.length) ++ inside)

/-- The bytes of something that stands alone. -/
def alone (w : Writer) (limit : Nat) : Option (List UInt8) := (w.run (.empty limit)).map (·.1)

end Writer

/-- What has been written of some items: the bytes, the number of items in them, and whether these
are all. -/
structure Front where
  bytes : List UInt8
  count : Nat
  whole : Bool
  deriving DecidableEq, Repr

/-- Writes as many items as fit. -/
def front {α : Type} (write : α → Writer) : List α → StateM Draft Front
  | [], d => (⟨[], 0, true⟩, d)
  | a :: as, d =>
    match write a d with
    | none => (⟨[], 0, false⟩, d)
    | some (bs, d) =>
      let (rest, d) := front write as d
      (⟨bs ++ rest.bytes, rest.count + 1, rest.whole⟩, d)

end SplitHorizon.Wire
