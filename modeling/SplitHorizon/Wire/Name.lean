import SplitHorizon.Wire.Writer
/-!
# Names in a message

A name is written as its labels, each with its length in front, up to the empty label of the root.
Instead of going on to the root it may end in a pointer: the distance, from the start of the
message, of a place where the name goes on. The labels from one such place to a root or a pointer
are a run.

A pointer leads strictly backwards, in front of the run that it ends; and the run that it leads to
has to end before that run as well. So following pointers comes to an end, whatever the bytes are.

Where a name is written, the longest end of it that stands before it already is replaced by a
pointer, unless the place asks for the whole name. Either way the ends that are new are remembered,
as long as the whole name would stand in the range of pointers.
-/

namespace SplitHorizon.Wire

/-- How a run of labels ends. -/
inductive RunEnd
  | root
  | pointer (target : Nat)
  deriving DecidableEq, Repr

/-- The labels of a run, its end, and the bytes behind it. -/
structure Run where
  labels : List (List UInt8)
  ending : RunEnd
  rest : List UInt8

def RunEnd.size : RunEnd → Nat
  | root => 1
  | pointer _ => 2

def Run.size (r : Run) : Nat := DomainName.span r.labels + r.ending.size

theorem splitExactly_length {α : Type} :
    ∀ {n : Nat} {xs : List α} {p : List α × List α}, splitExactly n xs = some p →
      p.2.length ≤ xs.length
  | 0, xs, p, h => by
    simp only [splitExactly, Option.some.injEq] at h
    subst h
    exact Nat.le_refl _
  | _ + 1, [], p, h => by simp [splitExactly] at h
  | n + 1, x :: xs, p, h => by
    simp only [splitExactly, Option.map_eq_some_iff] at h
    obtain ⟨q, hq, rfl⟩ := h
    have := splitExactly_length hq
    simp only [List.length_cons]
    omega

/-- Reads a run off the front of bytes. A first byte of 64 to 191 begins neither a label nor a
pointer. -/
def readRun (bytes : List UInt8) : Option Run :=
  match bytes with
  | [] => none
  | b :: rest =>
    if b = 0 then some ⟨[], .root, rest⟩
    else if b < 64 then
      match _h : splitExactly b.toNat rest with
      | none => none
      | some (label, rest') =>
        (readRun rest').map fun r => { r with labels := label :: r.labels }
    else if b < 192 then none
    else
      match rest with
      | [] => none
      | c :: rest => some ⟨[], .pointer ((b.toNat - 192) * 256 + c.toNat), rest⟩
termination_by bytes.length
decreasing_by
  have : rest'.length ≤ rest.length := splitExactly_length _h
  simp only [List.length_cons]
  omega

/-- Follows a run that begins at `start` to the labels behind it. -/
def follow (message : List UInt8) (start : Nat) (ending : RunEnd) : Option (List (List UInt8)) :=
  match ending with
  | .root => some []
  | .pointer target =>
    if target < start then do
      let r ← readRun (message.drop target)
      if target + DomainName.span r.labels < start then do
        let more ← follow message target r.ending
        some (r.labels ++ more)
      else none
    else none
termination_by start

def readName (message : List UInt8) : Reader DomainName := fun c => do
  let r ← readRun c.rest
  let more ← follow message c.offset r.ending
  let name := DomainName.ofLabels (r.labels ++ more)
  if name.size ≤ DomainName.maxSize then some (name, ⟨c.offset + r.size, r.rest⟩) else none

def putLabels (labels : List (List UInt8)) : List UInt8 := labels.flatMap putString

def putName (name : DomainName) : List UInt8 := putLabels name.labels ++ [0]

/-! ## Names in a draft -/

/-- Pointers lead to places before this one. -/
def pointerRange : Nat := 0x3FFF

/-- The place that an end of a name stands at. -/
def Draft.place? (d : Draft) (labels : List (List UInt8)) : Option Nat :=
  (d.names.find? fun n => n.1 == labels).map (·.2)

/-- The labels in front of the longest end that has a place, and that place. -/
def Draft.cut (d : Draft) : List (List UInt8) → List (List UInt8) × Option Nat
  | [] => ([], none)
  | label :: labels =>
    match d.place? (label :: labels) with
    | some place => ([], some place)
    | none =>
      let (new, place) := d.cut labels
      (label :: new, place)

/-- The ends of labels, with the places where they start if the first one is written at `start`. -/
def ends (start : Nat) : List (List UInt8) → List (List (List UInt8) × Nat)
  | [] => []
  | label :: labels => (label :: labels, start) :: ends (start + label.length + 1) labels

/-- The draft with the ends of a name that is about to be written. -/
def Draft.remember (d : Draft) (labels : List (List UInt8)) : Draft :=
  if d.size + DomainName.span labels < pointerRange then
    { d with names := (ends d.size labels).take (d.cut labels).1.length ++ d.names }
  else d

def putPointer (place : Nat) : List UInt8 := put16 (UInt16.ofNat (0xC000 + place))

def writeWhole (name : DomainName) : Writer := fun d =>
  Writer.bytes (putName name) (d.remember name.labels)

/-- Writes a name, with a pointer for the longest end of it that stands before. There has to be room
for all of its labels, even if a pointer replaces some. -/
def writeName (name : DomainName) : Writer := fun d =>
  if d.limit < d.size + DomainName.span name.labels then none
  else
    let (new, place) := d.cut name.labels
    let bytes := putLabels new ++ place.elim [0] putPointer
    Writer.bytes bytes (d.remember name.labels)

end SplitHorizon.Wire
