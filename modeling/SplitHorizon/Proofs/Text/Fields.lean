import Mathlib.Data.List.TakeWhile
import SplitHorizon.Proofs.Text.Blank
import SplitHorizon.Proofs.Text.Pieces
/-!
# The fields of a text

Words with a blank between every two of them are the fields of the text that they make
(`fields_intercalate`). Blanks at the ends of a text change neither its fields nor what is left of
it when it is trimmed, so the fields of a text are those of the trimmed one (`fields_trim`).
-/

namespace SplitHorizon.Text

/-! ## Blanks at the ends -/

/-- **Blanks around a text are trimmed.** -/
theorem trim_append {before after : List Char} (hbefore : ∀ c ∈ before, isBlank c = true)
    (hafter : ∀ c ∈ after, isBlank c = true) (cs : List Char) :
    trim (before ++ cs ++ after) = trim cs := by
  have hend : ∀ ds, trimEnd (ds ++ after) = trimEnd ds := by
    intro ds
    rw [trimEnd, List.reverse_append, List.dropWhile_append_of_pos, trimEnd]
    simpa using hafter
  rw [trim, trim, trimStart, trimStart, List.append_assoc, List.dropWhile_append_of_pos hbefore,
    List.dropWhile_append]
  split
  · -- nothing but blanks is left
    rename_i hblank
    rw [List.isEmpty_iff] at hblank
    rw [hblank, List.dropWhile_eq_nil_iff.mpr hafter]
  · exact hend _

/-- A text is what it is trimmed to, with blanks around that. -/
theorem exists_append_trim (cs : List Char) : ∃ before after,
    cs = before ++ trim cs ++ after ∧ (∀ c ∈ before, isBlank c = true) ∧
      ∀ c ∈ after, isBlank c = true := by
  refine ⟨cs.takeWhile isBlank, ((trimStart cs).reverse.takeWhile isBlank).reverse, ?_, ?_, ?_⟩
  · have hend : trimStart cs = trim cs ++ ((trimStart cs).reverse.takeWhile isBlank).reverse := by
      rw [trim, trimEnd, ← List.reverse_append, List.takeWhile_append_dropWhile,
        List.reverse_reverse]
    rw [List.append_assoc, ← hend, trimStart, List.takeWhile_append_dropWhile]
  · exact fun c hc => List.mem_takeWhile_imp hc
  · exact fun c hc => List.mem_takeWhile_imp (List.mem_reverse.mp hc)

/-! ## Fields -/

/-- A blank in front of a text belongs to no word. -/
theorem fields_cons {c : Char} (h : isBlank c = true) (cs : List Char) :
    fields (c :: cs) = fields cs := by
  rw [fields, pieces_cons_of_pos h]
  rfl

theorem fields_concat {c : Char} (h : isBlank c = true) (cs : List Char) :
    fields (cs ++ [c]) = fields cs := by
  simp [fields, pieces_concat h]

/-- Blanks around a text are in none of its fields. -/
theorem fields_append {before after : List Char} (hbefore : ∀ c ∈ before, isBlank c = true)
    (hafter : ∀ c ∈ after, isBlank c = true) (cs : List Char) :
    fields (before ++ cs ++ after) = fields cs := by
  have hend : ∀ ds, fields (ds ++ after) = fields ds := by
    intro ds
    induction after generalizing ds with
    | nil => rw [List.append_nil]
    | cons c after ih =>
      rw [List.forall_mem_cons] at hafter
      rw [← List.singleton_append, ← List.append_assoc, ih hafter.2, fields_concat hafter.1]
  rw [hend]
  induction before with
  | nil => rfl
  | cons c before ih =>
    rw [List.forall_mem_cons] at hbefore
    rw [List.cons_append, fields_cons hbefore.1, ih hbefore.2]

/-- **A text has the fields of the trimmed one.** -/
theorem fields_trim (cs : List Char) : fields (trim cs) = fields cs := by
  obtain ⟨before, after, hcs, hbefore, hafter⟩ := exists_append_trim cs
  conv => rhs; rw [hcs, fields_append hbefore hafter]

/-- A text with something in it and no blanks. -/
structure IsWord (w : List Char) : Prop where
  ne_nil : w ≠ []
  visible : ∀ c ∈ w, isBlank c = false

/-- A word with a blank behind it is the first one of a text. -/
theorem IsWord.fields_append_cons {w : List Char} (h : IsWord w) {d : Char}
    (hd : isBlank d = true) (cs : List Char) : fields (w ++ d :: cs) = w :: fields cs := by
  have hne : w.isEmpty = false := by simpa using h.ne_nil
  rw [fields, pieces_append_cons h.visible hd, List.filter_cons_of_pos (by simp [hne]), fields]

/-- A word alone is the only one of its text. -/
theorem IsWord.fields_eq {w : List Char} (h : IsWord w) : fields w = [w] := by
  have hblank : isBlank ' ' = true := rfl
  rw [← fields_concat hblank, h.fields_append_cons hblank]
  rfl

/-- **Words with spaces between them are the fields** of what they make. -/
theorem fields_intercalate {words : List (List Char)} (h : ∀ w ∈ words, IsWord w) :
    fields ([' '].intercalate words) = words := by
  induction words with
  | nil => rfl
  | cons w words ih =>
    rw [List.forall_mem_cons] at h
    cases words with
    | nil => rw [List.intercalate_singleton, h.1.fields_eq]
    | cons w' words =>
      rw [List.intercalate_cons_cons, List.append_assoc, List.singleton_append,
        h.1.fields_append_cons rfl, ih h.2]

end SplitHorizon.Text
