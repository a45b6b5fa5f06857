import SplitHorizon.Text.Blank
/-!
# Texts cut in two

A text is cut at the first or at the last place where a character stands. The two parts with the
character between them are the text, and the character is not in the first part
(`cutFirst_eq_some_iff`), or not in the second one (`cutLast_eq_some_iff`). No other two parts of
the text are so, and a text without the character is not cut.
-/

namespace SplitHorizon.Text

variable {c : Char} {cs before after : List Char}

/-! ## The first place -/

theorem cutFirst_of_notMem (h : c ∉ cs) : cutFirst c cs = none := by
  induction cs with
  | nil => rfl
  | cons d ds ih =>
    rw [List.mem_cons, not_or] at h
    simp [cutFirst, ih h.2, Ne.symm h.1]

/-- A text is cut at the first place where the character stands. -/
theorem cutFirst_append_cons (h : c ∉ before) :
    cutFirst c (before ++ c :: after) = some (before, after) := by
  induction before with
  | nil => simp [cutFirst]
  | cons d before ih =>
    rw [List.mem_cons, not_or] at h
    simp [cutFirst, ih h.2, Ne.symm h.1]

/-- **The first cut leaves none of the character before it.** -/
theorem cutFirst_eq_some_iff :
    cutFirst c cs = some (before, after) ↔ cs = before ++ c :: after ∧ c ∉ before := by
  constructor
  · intro h
    by_cases hmem : c ∈ cs
    · obtain ⟨front, rest, rfl, hfront⟩ := List.eq_append_cons_of_mem hmem
      rw [cutFirst_append_cons hfront] at h
      cases h
      exact ⟨rfl, hfront⟩
    · rw [cutFirst_of_notMem hmem] at h
      cases h
  · rintro ⟨rfl, hbefore⟩
    exact cutFirst_append_cons hbefore

/-! ## The last place -/

theorem cutLast_of_notMem (h : c ∉ cs) : cutLast c cs = none := by
  induction cs with
  | nil => rfl
  | cons d ds ih =>
    rw [List.mem_cons, not_or] at h
    simp [cutLast, ih h.2, Ne.symm h.1]

/-- A text is cut at the last place where the character stands. -/
theorem cutLast_append_cons (h : c ∉ after) :
    cutLast c (before ++ c :: after) = some (before, after) := by
  induction before with
  | nil => simp [cutLast, cutLast_of_notMem h]
  | cons d before ih => simp [cutLast, ih]

/-- A character that stands in a text has a last place in it. -/
theorem exists_last_of_mem (h : c ∈ cs) :
    ∃ before after, cs = before ++ c :: after ∧ c ∉ after := by
  obtain ⟨after, before, hcs, hafter⟩ := List.eq_append_cons_of_mem (List.mem_reverse.mpr h)
  refine ⟨before.reverse, after.reverse, ?_, fun hc => hafter (List.mem_reverse.mp hc)⟩
  rw [← List.reverse_reverse cs, hcs]
  simp

/-- **The last cut leaves none of the character behind it.** -/
theorem cutLast_eq_some_iff :
    cutLast c cs = some (before, after) ↔ cs = before ++ c :: after ∧ c ∉ after := by
  constructor
  · intro h
    by_cases hmem : c ∈ cs
    · obtain ⟨front, rest, rfl, hrest⟩ := exists_last_of_mem hmem
      rw [cutLast_append_cons hrest] at h
      cases h
      exact ⟨rfl, hrest⟩
    · rw [cutLast_of_notMem hmem] at h
      cases h
  · rintro ⟨rfl, hafter⟩
    exact cutLast_append_cons hafter

end SplitHorizon.Text
