import SplitHorizon.Number.Places
/-!
# Reading bytes

The fields of a message are read one after the other off its bytes. A reader knows how far from the
start of the message it stands, because names refer to each other by that distance, and it fails
where the bytes run out.
-/

namespace SplitHorizon.Wire

/-- Where a reader stands: the bytes before it, counted, and those it has not read. -/
structure Cursor where
  offset : Nat
  rest : List UInt8
  deriving DecidableEq, Repr

/-- Reads a value off the bytes ahead, or fails. -/
abbrev Reader (α : Type) := StateT Cursor Option α

/-- The first `n` items and the others; nothing if there are fewer. -/
def splitExactly {α : Type} : (n : Nat) → List α → Option (List α × List α)
  | 0, xs => some ([], xs)
  | _ + 1, [] => none
  | n + 1, x :: xs => (splitExactly n xs).map fun p => (x :: p.1, p.2)

namespace Reader

def fail {α : Type} : Reader α := fun _ => none

/-- Takes the next `n` bytes. -/
def take (n : Nat) : Reader (List UInt8) := fun c =>
  (splitExactly n c.rest).map fun p => (p.1, ⟨c.offset + n, p.2⟩)

/-- Takes a number of `n` bytes, the most significant first. -/
def number (n : Nat) : Reader Nat := do
  let bs ← take n
  pure (Places.ofBytes bs)

def number8 : Reader UInt8 := do
  let n ← number 1
  pure (UInt8.ofNat n)

def number16 : Reader UInt16 := do
  let n ← number 2
  pure (UInt16.ofNat n)

def number32 : Reader UInt32 := do
  let n ← number 4
  pure (UInt32.ofNat n)

/-- Takes a string with its length in front. -/
def string : Reader (List UInt8) := do
  let n ← number 1
  take n

/-- Reads `n` values one after the other. -/
def times {α : Type} (r : Reader α) : (n : Nat) → Reader (List α)
  | 0 => pure []
  | n + 1 => do
    let a ← r
    let as ← times r n
    pure (a :: as)

/-- Reads values until the bytes run out. Each takes at least one byte, so `fuel` is not reached if
it is the number of bytes ahead. -/
def many {α : Type} (r : Reader α) : (fuel : Nat) → Reader (List α)
  | 0 => pure []
  | fuel + 1 => do
    let c ← get
    if c.rest.isEmpty then pure []
    else do
      let a ← r
      let as ← many r fuel
      pure (a :: as)

/-- Reads a value, and keeps the bytes that it was read from. -/
def seen {α : Type} (r : Reader α) : Reader (α × List UInt8) := fun c => do
  let (a, c') ← r c
  some ((a, c.rest.take (c'.offset - c.offset)), c')

/-- Reads a value that takes up all of the next `n` bytes. -/
def within {α : Type} (n : Nat) (r : Reader α) : Reader α := fun c => do
  let (inside, rest) ← splitExactly n c.rest
  let (a, c') ← r ⟨c.offset, inside⟩
  if c'.rest.isEmpty then some (a, ⟨c.offset + n, rest⟩) else none

end Reader

/-! ## Writing -/

def put16 (n : UInt16) : List UInt8 := Places.bytes 2 n.toNat

def put32 (n : UInt32) : List UInt8 := Places.bytes 4 n.toNat

/-- Bytes with their number in front, as one byte. -/
def putString (bs : List UInt8) : List UInt8 := UInt8.ofNat bs.length :: bs

end SplitHorizon.Wire
