import SplitHorizon.Proofs.Text.Bytes
/-!
# Texts without blanks

A text without blanks has nothing to trim, and making letters small makes no blank and loses none.
-/

namespace SplitHorizon.Text

theorem trimStart_eq_self {cs : List Char} (h : ∀ c ∈ cs, isBlank c = false) :
    trimStart cs = cs := by
  cases cs with
  | nil => rfl
  | cons c cs =>
    rw [trimStart, List.dropWhile_cons_of_neg]
    rw [h c List.mem_cons_self]
    exact Bool.false_ne_true

/-- **A text without blanks is trimmed already.** -/
theorem trim_eq_self {cs : List Char} (h : ∀ c ∈ cs, isBlank c = false) : trim cs = cs := by
  have hend : trimEnd cs = (trimStart cs.reverse).reverse := rfl
  rw [trim, trimStart_eq_self h, hend,
    trimStart_eq_self fun c hc => h c (List.mem_reverse.mp hc), List.reverse_reverse]

/-- No character of ASCII that can be seen is blank. -/
theorem isBlank_of_visible {c : Char} (hlow : 33 ≤ c.toNat) (hhigh : c.toNat ≤ 126) :
    isBlank c = false := by
  rw [← Bool.not_eq_true, isBlank, blankRanges]
  simp only [List.any_cons, List.any_nil, Bool.or_false, Bool.or_eq_true, Bool.and_eq_true,
    decide_eq_true_eq]
  omega

/-- A small letter is blank exactly if the letter is. -/
theorem isBlank_toLower (c : Char) : isBlank c.toLower = isBlank c := by
  rcases toLower_cases c with h | ⟨hlow, hhigh, h⟩
  · rw [h]
  · rw [isBlank_of_visible (by omega) (by omega), isBlank_of_visible (by omega) (by omega)]

/-- Letters are made small once. -/
theorem toLower_toLower (c : Char) : c.toLower.toLower = c.toLower := by
  rcases toLower_cases c.toLower with h | ⟨_, hhigh, _⟩
  · exact h
  · rcases toLower_cases c with h | ⟨hlow, _, h⟩
    · rw [h, h]
    · omega

/-- A text in small letters is left as it is. -/
theorem fold_fold (cs : List Char) : fold (fold cs) = fold cs := by
  rw [fold, fold, List.map_map]
  exact List.map_congr_left fun c _ => toLower_toLower c

theorem isBlank_of_mem_fold {cs : List Char} (h : ∀ c ∈ cs, isBlank c = false) :
    ∀ c ∈ fold cs, isBlank c = false := by
  intro c hc
  obtain ⟨d, hd, rfl⟩ := List.mem_map.mp hc
  rw [isBlank_toLower, h d hd]

end SplitHorizon.Text
