import SplitHorizon.Proofs.Text.Bytes
/-!
# Where a text can be cut

A text is cut between its characters. Its bytes tell where that is: in front of a byte that begins a
character, and at the end (`isBoundary_utf8_iff`). Going back from any offset, a byte at a time, one
comes to the last boundary that is not behind it (`backUp_eq`).
-/

namespace SplitHorizon.Text

/-- Whether bytes of a text can be cut at an offset. -/
def isBoundary (bytes : List UInt8) (i : Nat) : Bool :=
  match bytes[i]? with
  | some b => decide b.IsUTF8FirstByte
  | none => i == bytes.length

/-- The first boundary at an offset or in front of it, looked for a byte at a time. -/
def backUp (bytes : List UInt8) : Nat → Nat
  | 0 => 0
  | i + 1 => if isBoundary bytes (i + 1) then i + 1 else backUp bytes i

theorem utf8_cons (c : Char) (cs : List Char) :
    utf8 (c :: cs) = String.utf8EncodeChar c ++ utf8 cs := List.flatMap_cons

theorem utf8_append (cs ds : List Char) : utf8 (cs ++ ds) = utf8 cs ++ utf8 ds :=
  List.flatMap_append

/-! ## Boundaries -/

/-- A text can be cut at its start. -/
theorem isBoundary_utf8_zero (cs : List Char) : isBoundary (utf8 cs) 0 = true := by
  cases cs with
  | nil => rfl
  | cons c cs =>
    have hlength := String.length_utf8EncodeChar c
    have hpos : 0 < (String.utf8EncodeChar c).length := hlength ▸ c.utf8Size_pos
    have hfirst : ((String.utf8EncodeChar c)[0]).IsUTF8FirstByte :=
      UInt8.isUTF8FirstByte_getElem_utf8EncodeChar.mpr rfl
    rw [isBoundary, utf8_cons, List.getElem?_append_left hpos, List.getElem?_eq_getElem hpos]
    exact decide_eq_true hfirst

/-- Behind its start a text can not be cut inside its first character, and behind that where what
follows can be cut. -/
theorem isBoundary_utf8_cons (c : Char) (cs : List Char) {i : Nat} (hi : 0 < i) :
    isBoundary (utf8 (c :: cs)) i = true ↔
      c.utf8Size ≤ i ∧ isBoundary (utf8 cs) (i - c.utf8Size) = true := by
  have hlength := String.length_utf8EncodeChar c
  by_cases hinside : i < c.utf8Size
  · have hlt : i < (String.utf8EncodeChar c).length := hlength ▸ hinside
    have hlater : ¬ ((String.utf8EncodeChar c)[i]).IsUTF8FirstByte := by
      rw [UInt8.isUTF8FirstByte_getElem_utf8EncodeChar]
      omega
    rw [isBoundary, utf8_cons, List.getElem?_append_left hlt, List.getElem?_eq_getElem hlt]
    simp [hlater, Nat.not_le_of_lt hinside]
  · have hle : (String.utf8EncodeChar c).length ≤ i := hlength ▸ Nat.le_of_not_lt hinside
    rw [isBoundary, isBoundary, utf8_cons, List.getElem?_append_right hle, hlength,
      List.length_append, hlength]
    have hsame : (i = c.utf8Size + (utf8 cs).length) ↔ (i - c.utf8Size = (utf8 cs).length) := by
      omega
    cases (utf8 cs)[i - c.utf8Size]? with
    | some b => simp [Nat.le_of_not_lt hinside]
    | none => simp [Nat.le_of_not_lt hinside, hsame]

/-- **The boundaries of a text are the places between its characters**, and its ends. -/
theorem isBoundary_utf8_iff {cs : List Char} {i : Nat} :
    isBoundary (utf8 cs) i = true ↔ ∃ front rest, cs = front ++ rest ∧ i = width front := by
  induction cs generalizing i with
  | nil =>
    constructor
    · intro h
      exact ⟨[], [], rfl, beq_iff_eq.mp h⟩
    · rintro ⟨front, rest, hcs, rfl⟩
      rw [(List.append_eq_nil_iff.mp hcs.symm).1]
      rfl
  | cons c cs ih =>
    rcases Nat.eq_zero_or_pos i with rfl | hi
    · exact iff_of_true (isBoundary_utf8_zero _) ⟨[], c :: cs, rfl, rfl⟩
    · rw [isBoundary_utf8_cons c cs hi, ih]
      constructor
      · rintro ⟨hle, front, rest, rfl, hwidth⟩
        exact ⟨c :: front, rest, rfl, by rw [width_cons]; omega⟩
      · rintro ⟨front, rest, hcs, rfl⟩
        cases front with
        | nil => exact absurd hi (Nat.lt_irrefl 0)
        | cons d front =>
          obtain ⟨rfl, rfl⟩ := List.cons.inj hcs
          rw [width_cons]
          exact ⟨Nat.le_add_right _ _, front, rest, rfl, by omega⟩

/-! ## Going back -/

/-- **Going back leads to the last boundary** that is not behind the offset. -/
theorem backUp_eq {bytes : List UInt8} {i n : Nat} (hi : isBoundary bytes i = true) (hle : i ≤ n)
    (hlast : ∀ j ≤ n, isBoundary bytes j = true → j ≤ i) : backUp bytes n = i := by
  induction n with
  | zero => exact (Nat.le_zero.mp hle).symm
  | succ n ih =>
    rw [backUp]
    split
    · rename_i hhere
      exact Nat.le_antisymm (hlast _ (Nat.le_refl _) hhere) hle
    · rename_i hhere
      have hne : i ≠ n + 1 := by
        rintro rfl
        exact hhere hi
      exact ih (by omega) fun j hj => hlast j (Nat.le_succ_of_le hj)

end SplitHorizon.Text
