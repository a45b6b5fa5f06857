import SplitHorizon.Address.Dotted
/-!
# Grouped addresses

The text of an address of 128 bits: up to eight groups of one to four hexadecimal digits between
colons, where `::` stands once for at least one zero group and the last two groups may be written as
a dotted address. It is written in the form of RFC 5952: the longest run of at least two zero groups
is shortened, the first one on a tie; digits are small and do not lead with zeros; and only an
address of the form `::ffff:a.b.c.d` is written with a dotted end.
-/

namespace SplitHorizon.Address.Grouped

/-! ## Reading -/

def scanGroup (cs : List Char) : Option (Nat × List Char) :=
  let (ds, rest) := cs.span fun c => (Places.hexDigit? c).isSome
  if 1 ≤ ds.length && ds.length ≤ 4 then
    some (ds.foldl (fun n c => n * 16 + (Places.hexDigit? c).getD 0) 0, rest)
  else none

/-- What stands before a group: nothing at the first one, a colon at every other. -/
def separator : (first : Bool) → List Char → Option (List Char)
  | true, cs => some cs
  | false, ':' :: cs => some cs
  | false, _ => none

/-- Groups read off a text: the groups, whether a dotted address ended them, and the rest. -/
structure Run where
  groups : List Nat
  dotted : Bool
  rest : List Char

/-- Reads groups while they last, `room` at the most. A dotted address counts as two groups, so it
is tried only where two fit, and it ends the run. -/
def scanRun : (room : Nat) → (first : Bool) → List Char → Run
  | 0, _, cs => ⟨[], false, cs⟩
  | room + 1, first, cs =>
    match separator first cs with
    | none => ⟨[], false, cs⟩
    | some body =>
      match if room = 0 then none else Dotted.scan body with
      | some (bits, rest) => ⟨Places.ofNat 65536 2 bits.toNat, true, rest⟩
      | none =>
        match scanGroup body with
        | none => ⟨[], false, cs⟩
        | some (g, rest) =>
          let run := scanRun room false rest
          ⟨g :: run.groups, run.dotted, run.rest⟩

/-- Reads an address off the front of a text: eight groups, or fewer around one `::`. -/
def scan (cs : List Char) : Option (BitVec 128 × List Char) :=
  let head := scanRun 8 true cs
  if head.groups.length = 8 then some (ofGroups head.groups, head.rest)
  else if head.dotted then none
  else
    match head.rest with
    | ':' :: ':' :: rest =>
      let tail := scanRun (7 - head.groups.length) true rest
      let zeros := List.replicate (8 - head.groups.length - tail.groups.length) 0
      some (ofGroups (head.groups ++ zeros ++ tail.groups), tail.rest)
    | _ => none

def read (cs : List Char) : Option (BitVec 128) :=
  match scan cs with
  | some (bits, []) => some bits
  | _ => none

/-! ## Writing -/

/-- The number of zero groups at the front. -/
def zerosAhead (gs : List Nat) : Nat := (gs.takeWhile (· == 0)).length

/-- Where the longest run of zero groups starts, and its length; the first one on a tie. -/
def longestZeros (gs : List Nat) : Nat × Nat :=
  (List.range gs.length).foldl
    (fun best i =>
      let n := zerosAhead (gs.drop i)
      if best.2 < n then (i, n) else best)
    (0, 0)

def join (gs : List Nat) : List Char := [':'].intercalate (gs.map Places.hexDigits)

/-- Groups with their longest run of at least two zeros shortened. -/
def shorten (gs : List Nat) : List Char :=
  let (start, count) := longestZeros gs
  if 2 ≤ count then join (gs.take start) ++ [':', ':'] ++ join (gs.drop (start + count))
  else join gs

def render (bits : BitVec 128) : List Char :=
  match mapped? bits with
  | some inner => "::ffff:".toList ++ Dotted.render inner
  | none => shorten (groups bits)

end SplitHorizon.Address.Grouped
