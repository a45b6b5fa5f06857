import SplitHorizon.Address.Endpoint
import SplitHorizon.Proofs.Address.Grouped
import SplitHorizon.Proofs.Text.Blank
/-!
# Addresses and endpoints, written and read

An address of either family and an endpoint are read back from their texts (`Address.read_render`,
`Endpoint.read_render`). No text is an address in both families, and what is read as an address has
nothing in it but digits, dots and colons: a dot, or two colons at least (`Address.goesOn_of_read`).
So there is no blank in it, and none in the text of an endpoint.
-/

namespace SplitHorizon

namespace Address

open Grouped (goesOn)
open Text (Stops)

/-- A text is read as an address of 32 bits exactly if it is a dotted one. -/
theorem read_eq_v4_iff {cs : List Char} {bits : BitVec 32} :
    read cs = some (v4 bits) ↔ Dotted.read cs = some bits := by
  rw [Dotted.read_eq_some_iff]
  unfold read
  split
  · rename_i bits' hscan
    rw [hscan]
    simp
  · rename_i read hread hscan
    refine ⟨nofun, fun h => ?_⟩
    rw [hscan] at h
    exact absurd (Option.some.inj h) (hread bits)
  · rename_i hscan
    rw [hscan]
    simp

/-- A text that is read as an address of 128 bits does not begin with a dotted one. -/
theorem read_eq_v6_iff {cs : List Char} {bits : BitVec 128} :
    read cs = some (v6 bits) ↔ Grouped.read cs = some bits := by
  rw [Grouped.read_eq_some_iff]
  unfold read
  cases hscan : Dotted.scan cs with
  | some read =>
    rw [Grouped.scan_of_dotted hscan]
    split <;> simp_all
  | none =>
    rw [← Grouped.read_eq_some_iff]
    simp

/-- **An address is read back from its text.** -/
theorem read_render (a : Address) : read a.render = some a := by
  cases a with
  | v4 bits => exact read_eq_v4_iff.mpr (Dotted.read_render bits)
  | v6 bits => exact read_eq_v6_iff.mpr (Grouped.read_render bits)

/-! ## The characters of addresses -/

/-- **What is read as an address are digits with a dot or two colons among them.** -/
theorem goesOn_of_read {cs : List Char} {a : Address} (h : read cs = some a) :
    (∀ c ∈ cs, goesOn c = true) ∧ ('.' ∈ cs ∨ 2 ≤ cs.count ':') := by
  cases a with
  | v4 bits =>
    obtain ⟨hcs, hdot⟩ := Dotted.goesOn_of_read (read_eq_v4_iff.mp h)
    exact ⟨fun c hc => Grouped.goesOn_of_dotted (hcs c hc), .inl hdot⟩
  | v6 bits =>
    obtain ⟨hcs, hcolon⟩ := Grouped.goesOn_of_read (read_eq_v6_iff.mp h)
    exact ⟨hcs, .inr hcolon⟩

theorem render_ne_nil (a : Address) : a.render ≠ [] := by
  intro h
  have hread := read_render a
  rw [h] at hread
  cases hread

/-- An address is written with the characters of addresses only. -/
theorem notMem_render {a : Address} {c : Char} (hc : goesOn c = false) : c ∉ a.render := by
  intro hmem
  have hgoes := (goesOn_of_read (read_render a)).1 c hmem
  rw [hc] at hgoes
  cases hgoes

theorem isBlank_of_goesOn {c : Char} (h : goesOn c = true) : Text.isBlank c = false := by
  simp only [goesOn, Bool.or_eq_true, beq_iff_eq] at h
  rcases h with (h | rfl) | rfl
  · have hrange := Places.toNat_of_isSome_hexDigit? h
    exact Text.isBlank_of_visible (by omega) (by omega)
  · rfl
  · rfl

/-- There is no blank in the text of an address. -/
theorem isBlank_of_mem_render {a : Address} {c : Char} (h : c ∈ a.render) :
    Text.isBlank c = false :=
  isBlank_of_goesOn ((goesOn_of_read (read_render a)).1 c h)

end Address

namespace Endpoint

open Text (Stops)

/-! ## Ports and scopes -/

/-- Digits that spell a number within the limit are read off as that number. -/
theorem scanNumber_of_digits {limit : Nat} {ds t : List Char} (hne : ds ≠ [])
    (hds : ∀ c ∈ ds, (Decimal.digit? c).isSome = true) (hle : Decimal.valueFrom 0 ds ≤ limit)
    (ht : Stops Address.Dotted.isDigit t) :
    scanNumber limit (ds ++ t) = some (Decimal.valueFrom 0 ds, t) := by
  unfold scanNumber
  rw [Address.Dotted.spanDigits_append_self hds ht]
  dsimp only
  rw [if_neg (by simpa using hne)]
  exact if_pos hle

theorem scanNumber_digits {limit n : Nat} (h : n ≤ limit) {t : List Char}
    (ht : Stops Address.Dotted.isDigit t) :
    scanNumber limit (Decimal.digits n ++ t) = some (n, t) := by
  have hvalue := Decimal.valueFrom_digits n
  rw [scanNumber_of_digits (Decimal.digits_ne_nil n) (fun _ => Decimal.isSome_digit?_of_mem)
    (by rw [hvalue]; exact h) ht, hvalue]

/-- A number that is within the limit is a port, if no sign stands before it. -/
theorem readPort_of_digits {ds : List Char} (hne : ds ≠ [])
    (hds : ∀ c ∈ ds, (Decimal.digit? c).isSome = true) (hle : Decimal.valueFrom 0 ds ≤ 65535) :
    readPort (':' :: ds) = some (UInt16.ofNat (Decimal.valueFrom 0 ds)) := by
  have hscan := scanNumber_of_digits hne hds hle Text.stops_nil
  rw [List.append_nil] at hscan
  simp only [readPort, hscan]

/-- A port is read back from the colon and the digits that it is written with. -/
theorem readPort_digits (port : UInt16) :
    readPort (':' :: Decimal.digits port.toNat) = some port := by
  have hle : port.toNat ≤ 65535 := Nat.le_of_lt_succ port.toNat_lt
  have hvalue := Decimal.valueFrom_digits port.toNat
  rw [readPort_of_digits (Decimal.digits_ne_nil _) (fun _ => Decimal.isSome_digit?_of_mem)
    (by rw [hvalue]; exact hle), hvalue, UInt16.ofNat_toNat]

/-- The scope is read back, none from a text without one. -/
theorem scanScope_mark (scope : UInt32) (t : List Char) :
    scanScope ((if scope = 0 then [] else '%' :: Decimal.digits scope.toNat) ++ ']' :: t) =
      (scope, ']' :: t) := by
  split
  · rename_i hzero
    rw [hzero]
    rfl
  · have hle : scope.toNat ≤ 4294967295 := Nat.le_of_lt_succ scope.toNat_lt
    have hscan := scanNumber_digits hle (t := ']' :: t) (Text.stops_cons.mpr rfl)
    rw [List.cons_append, scanScope, hscan]
    simp

/-! ## Endpoints -/

/-- **An endpoint is read back from its text.** -/
theorem read_render (e : Endpoint) : read e.render = some e := by
  cases e with
  | v4 bits port =>
    have hscan := Address.Dotted.scan_render_append bits
      (t := ':' :: Decimal.digits port.toNat) (Text.stops_cons.mpr rfl)
    simp only [render, read, hscan, readPort_digits, Option.map_some]
  | v6 bits scope port =>
    let mark := if scope = 0 then [] else '%' :: Decimal.digits scope.toNat
    have hrender : render (v6 bits scope port) = '[' :: (Address.Grouped.render bits ++
        (mark ++ ']' :: ':' :: Decimal.digits port.toNat)) := by
      simp [render, mark]
    have hdotted : ∀ t, Address.Dotted.scan ('[' :: t) = none := fun t =>
      Address.Dotted.scan_of_stops (Text.stops_cons.mpr rfl)
    have hstops : Stops Address.Grouped.goesOn
        (mark ++ ']' :: ':' :: Decimal.digits port.toNat) := by
      simp only [mark]
      split <;> exact Text.stops_cons.mpr rfl
    rw [hrender, read, hdotted, readBracketed, Address.Grouped.scan_render_append bits hstops]
    simp only [Option.bind_eq_bind, Option.bind_some, mark, scanScope_mark, readPort_digits,
      Option.map_some]

/-! ## The characters of endpoints -/

theorem isBlank_of_mem_digits {n : Nat} {c : Char} (h : c ∈ Decimal.digits n) :
    Text.isBlank c = false :=
  Address.isBlank_of_goesOn
    (Address.Grouped.goesOn_of_dotted
      (Bool.or_eq_true_iff.mpr (.inl (Decimal.isSome_digit?_of_mem h))))

/-- There is no blank in the text of an endpoint. -/
theorem isBlank_of_mem_render (e : Endpoint) : ∀ c ∈ e.render, Text.isBlank c = false := by
  intro c hc
  cases e with
  | v4 bits port =>
    rw [render, List.mem_append, List.mem_cons] at hc
    rcases hc with hc | rfl | hc
    · exact Address.isBlank_of_mem_render (a := .v4 bits) hc
    · rfl
    · exact isBlank_of_mem_digits hc
  | v6 bits scope port =>
    simp only [render, List.mem_append, List.mem_cons, List.not_mem_nil, or_false] at hc
    rcases hc with (((rfl | hc) | hc) | rfl | rfl) | hc
    · rfl
    · exact Address.isBlank_of_mem_render (a := .v6 bits) hc
    · split at hc
      · cases hc
      · rcases List.mem_cons.mp hc with rfl | hc
        · rfl
        · exact isBlank_of_mem_digits hc
    · rfl
    · rfl
    · exact isBlank_of_mem_digits hc

end Endpoint

end SplitHorizon
