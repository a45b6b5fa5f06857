import SplitHorizon.Address.Dotted
import SplitHorizon.Proofs.Number.Digits
import SplitHorizon.Proofs.Text.Runs
/-!
# Dotted addresses, written and read

An address of 32 bits is read back from its text (`scan_render`). What follows a dotted address in a
longer text has no part in reading it, unless it begins with a digit or a dot (`scan_append`), and
what has been read off is made of digits and dots (`front_of_scan`).
-/

namespace SplitHorizon.Address

/-! ## Bits and their octets -/

/-- The octets of an address make it up again. -/
theorem ofOctets_octets (bits : BitVec 32) : ofOctets (octets bits) = bits := by
  have hlt : bits.toNat < Nat.pow 256 4 := bits.isLt
  rw [ofOctets, octets, Places.toNat_ofNat hlt, BitVec.ofNat_toNat, BitVec.setWidth_eq]

/-- An address has four octets. -/
theorem exists_octets (bits : BitVec 32) :
    ∃ a b c d, octets bits = [a, b, c, d] ∧ a ≤ 255 ∧ b ≤ 255 ∧ c ≤ 255 ∧ d ≤ 255 := by
  obtain ⟨a, b, c, d, h⟩ : ∃ a b c d, octets bits = [a, b, c, d] :=
    ⟨_, _, _, _, rfl⟩
  have hle : ∀ n ∈ octets bits, n ≤ 255 :=
    fun n hn => Nat.le_of_lt_succ (Places.lt_of_mem_ofNat (by decide) hn)
  simp only [h, List.forall_mem_cons] at hle
  exact ⟨a, b, c, d, h, hle.1, hle.2.1, hle.2.2.1, hle.2.2.2.1⟩

namespace Dotted

open Text (Stops leaving)

/-! ## Parts -/

/-- Whether a character is a decimal digit. -/
def isDigit (c : Char) : Bool := (Decimal.digit? c).isSome

/-- Whether a dotted address can go on with a character. -/
def goesOn (c : Char) : Bool := isDigit c || c == '.'

theorem stops_isDigit {t : List Char} (h : Stops goesOn t) : Stops isDigit t :=
  h.mono fun _ hc => Bool.or_eq_true_iff.mpr (.inl hc)

theorem isDigit_of_mem_digits {n : Nat} : ∀ c ∈ Decimal.digits n, isDigit c = true :=
  fun _ => Decimal.isSome_digit?_of_mem

theorem spanDigits_append {cs t : List Char} (h : Stops isDigit t) :
    spanDigits (cs ++ t) = leaving t (spanDigits cs) :=
  Text.span_append h

theorem spanDigits_append_self {cs t : List Char} (hcs : ∀ c ∈ cs, isDigit c = true)
    (ht : Stops isDigit t) : spanDigits (cs ++ t) = (cs, t) :=
  Text.span_append_self hcs ht

theorem value_digits (n : Nat) : value (Decimal.digits n) = n := Decimal.valueFrom_digits n

/-- The digits of an octet spell a part. -/
theorem isPart_digits {n : Nat} (h : n ≤ 255) : isPart (Decimal.digits n) = true := by
  have hlength : (Decimal.digits n).length ≤ 3 := by
    rw [Decimal.digits_eq, List.length_map]
    exact Places.length_shortest_le (k := 2) (by decide) (Nat.lt_of_le_of_lt h (by decide))
  have hvalue := value_digits n
  cases hds : Decimal.digits n with
  | nil => exact absurd hds (Decimal.digits_ne_nil n)
  | cons d rest =>
    cases rest with
    | nil => rfl
    | cons e rest =>
      rw [hds] at hlength hvalue
      simp only [List.length_cons] at hlength
      simp only [isPart, hvalue, List.length_cons, Bool.and_eq_true, decide_eq_true_eq, bne_iff_ne]
      exact ⟨⟨Decimal.ne_zero_of_digits hds, by omega⟩, h⟩

/-- What follows a part has no part in reading it, unless it begins with a digit. -/
theorem scanPart_append {cs t : List Char} (h : Stops isDigit t) :
    scanPart (cs ++ t) = (scanPart cs).map (leaving t) := by
  unfold scanPart
  rw [spanDigits_append h]
  cases hpart : isPart (spanDigits cs).1 <;> simp [leaving, hpart]

/-- A part of at most 255 is read back from its digits. -/
theorem scanPart_digits {n : Nat} (h : n ≤ 255) {t : List Char} (ht : Stops isDigit t) :
    scanPart (Decimal.digits n ++ t) = some (n, t) := by
  unfold scanPart
  rw [spanDigits_append_self isDigit_of_mem_digits ht]
  simp only [isPart_digits h, if_true, value_digits]

/-- What follows a further part has no part in reading it, unless it begins with a digit or a dot.
-/
theorem scanNext_append {cs t : List Char} (h : Stops goesOn t) :
    scanNext (cs ++ t) = (scanNext cs).map (leaving t) := by
  cases cs with
  | nil =>
    cases t with
    | nil => rfl
    | cons c t =>
      have hc : c ≠ '.' := by
        rintro rfl
        exact Bool.noConfusion (Text.stops_cons.mp h)
      simp [scanNext, hc]
  | cons c cs =>
    by_cases hc : c = '.'
    · subst hc
      exact scanPart_append (stops_isDigit h)
    · simp [scanNext, hc]

/-! ## Addresses -/

/-- **What follows a dotted address has no part in reading it**, unless it begins with a digit or a
dot. -/
theorem scan_append {cs t : List Char} (h : Stops goesOn t) :
    scan (cs ++ t) = (scan cs).map (leaving t) := by
  unfold scan
  rw [scanPart_append (stops_isDigit h)]
  cases scanPart cs with
  | none => rfl
  | some a =>
    simp only [Option.map_some, leaving, Option.bind_eq_bind, Option.bind_some, scanNext_append h]
    cases scanNext a.2 with
    | none => rfl
    | some b =>
      simp only [Option.map_some, leaving, Option.bind_some, scanNext_append h]
      cases scanNext b.2 with
      | none => rfl
      | some c =>
        simp only [Option.map_some, leaving, Option.bind_some, scanNext_append h]
        cases scanNext c.2 <;> rfl

/-- No dotted address begins with a character that is no digit. -/
theorem scan_of_stops {t : List Char} (h : Stops goesOn t) : scan t = none := @scan_append [] t h

/-- **An address is read back from its text.** -/
theorem scan_render (bits : BitVec 32) : scan (render bits) = some (bits, []) := by
  obtain ⟨a, b, c, d, hoctets, ha, hb, hc, hd⟩ := exists_octets bits
  have hdot : ∀ t, Stops isDigit ('.' :: t) := fun t => Text.stops_cons.mpr rfl
  have hrender : render bits = Decimal.digits a ++ '.' :: (Decimal.digits b ++
      '.' :: (Decimal.digits c ++ '.' :: (Decimal.digits d ++ []))) := by
    simp [render, hoctets, List.intercalate]
  simp only [hrender, scan, scanPart_digits ha (hdot _), scanNext, Option.bind_eq_bind,
    Option.bind_some, scanPart_digits hb (hdot _), scanPart_digits hc (hdot _),
    scanPart_digits hd Text.stops_nil, Option.pure_def, ← hoctets, ofOctets_octets]

/-- An address is read off the front of a text that does not go on with a digit or a dot. -/
theorem scan_render_append (bits : BitVec 32) {t : List Char} (h : Stops goesOn t) :
    scan (render bits ++ t) = some (bits, t) := by
  rw [scan_append h, scan_render]
  rfl

/-- A text is read as an address exactly if one is read off its front and nothing is left. -/
theorem read_eq_some_iff {cs : List Char} {bits : BitVec 32} :
    read cs = some bits ↔ scan cs = some (bits, []) := by
  unfold read
  split
  · rename_i bits' hscan
    rw [hscan]
    simp
  · rename_i hscan
    exact ⟨nofun, fun h => absurd h (hscan bits)⟩

theorem read_render (bits : BitVec 32) : read (render bits) = some bits :=
  read_eq_some_iff.mpr (scan_render bits)

/-! ## What has been read -/

/-- What is read as a part are digits. -/
theorem front_of_scanPart {cs rest : List Char} {n : Nat} (h : scanPart cs = some (n, rest)) :
    ∃ front, cs = front ++ rest ∧ ∀ c ∈ front, goesOn c = true := by
  unfold scanPart at h
  cases hspan : spanDigits cs with
  | mk run left =>
    rw [hspan] at h
    dsimp only at h
    split at h
    · cases h
      obtain ⟨hcs, hrun⟩ := Text.append_of_span hspan
      exact ⟨run, hcs, fun c hc => Bool.or_eq_true_iff.mpr (.inl (hrun c hc))⟩
    · cases h

/-- What is read as a further part are a dot and digits. -/
theorem front_of_scanNext {cs rest : List Char} {n : Nat} (h : scanNext cs = some (n, rest)) :
    ∃ front, cs = front ++ rest ∧ (∀ c ∈ front, goesOn c = true) ∧ '.' ∈ front := by
  unfold scanNext at h
  split at h
  · obtain ⟨front, rfl, hfront⟩ := front_of_scanPart h
    exact ⟨'.' :: front, rfl, List.forall_mem_cons.mpr ⟨rfl, hfront⟩, List.mem_cons_self⟩
  · cases h

/-- **What is read as a dotted address are digits and dots.** -/
theorem front_of_scan {cs rest : List Char} {bits : BitVec 32} (h : scan cs = some (bits, rest)) :
    ∃ front, cs = front ++ rest ∧ (∀ c ∈ front, goesOn c = true) ∧ '.' ∈ front := by
  unfold scan at h
  obtain ⟨_, h₁, h⟩ := Option.bind_eq_some_iff.mp h
  obtain ⟨_, h₂, h⟩ := Option.bind_eq_some_iff.mp h
  obtain ⟨_, h₃, h⟩ := Option.bind_eq_some_iff.mp h
  obtain ⟨_, h₄, h⟩ := Option.bind_eq_some_iff.mp h
  cases h
  obtain ⟨part₁, hcs, hpart₁⟩ := front_of_scanPart h₁
  obtain ⟨part₂, hrest₁, hpart₂, hdot⟩ := front_of_scanNext h₂
  obtain ⟨part₃, hrest₂, hpart₃, _⟩ := front_of_scanNext h₃
  obtain ⟨part₄, hrest₃, hpart₄, _⟩ := front_of_scanNext h₄
  refine ⟨part₁ ++ part₂ ++ part₃ ++ part₄, ?_, ?_, ?_⟩
  · simp only [List.append_assoc, ← hrest₃, ← hrest₂, ← hrest₁, ← hcs]
  · simp only [List.forall_mem_append]
    exact ⟨⟨⟨hpart₁, hpart₂⟩, hpart₃⟩, hpart₄⟩
  · simp only [List.mem_append]
    exact .inl (.inl (.inr hdot))

/-- A text that is read as an address has a dot, and nothing but digits and dots. -/
theorem goesOn_of_read {cs : List Char} {bits : BitVec 32} (h : read cs = some bits) :
    (∀ c ∈ cs, goesOn c = true) ∧ '.' ∈ cs := by
  obtain ⟨front, hcs, hfront, hdot⟩ := front_of_scan (read_eq_some_iff.mp h)
  rw [List.append_nil] at hcs
  exact hcs ▸ ⟨hfront, hdot⟩

end Dotted

end SplitHorizon.Address
