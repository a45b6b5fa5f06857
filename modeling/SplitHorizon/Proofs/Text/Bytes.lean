import SplitHorizon.Text.Blank
/-!
# The bytes of a text

The width of a text is the number of its bytes. Every character takes at least one, the characters
of ASCII take no more than that, and making letters small changes none of the numbers.
-/

namespace SplitHorizon.Text

theorem width_cons (c : Char) (cs : List Char) : width (c :: cs) = c.utf8Size + width cs := rfl

theorem width_append (cs ds : List Char) : width (cs ++ ds) = width cs + width ds := by
  induction cs with
  | nil => simp [width]
  | cons c cs ih => rw [List.cons_append, width_cons, width_cons, ih, Nat.add_assoc]

/-- The width of a text is the number of its bytes. -/
theorem length_utf8 (cs : List Char) : (utf8 cs).length = width cs := by
  induction cs with
  | nil => rfl
  | cons c cs ih =>
    rw [utf8, List.flatMap_cons, List.length_append, String.length_utf8EncodeChar, width_cons, ← ih,
      utf8]

/-- A text is as wide as its bytes are many. -/
theorem utf8ByteSize_eq (s : String) : s.utf8ByteSize = width s.toList := by
  rw [← String.size_toByteArray, ← String.utf8Encode_toList, List.utf8Encode,
    List.size_toByteArray, ← length_utf8, utf8]

theorem utf8_flatten (ws : List (List Char)) : utf8 ws.flatten = (ws.map utf8).flatten := by
  induction ws with
  | nil => rfl
  | cons w ws ih =>
    rw [List.flatten_cons, List.map_cons, List.flatten_cons, ← ih]
    exact List.flatMap_append

theorem length_le_width (cs : List Char) : cs.length ≤ width cs := by
  induction cs with
  | nil => exact Nat.le_refl 0
  | cons c cs ih =>
    have hc : 0 < c.utf8Size := c.utf8Size_pos
    rw [List.length_cons, width_cons]
    omega

/-! ## Letter case -/

/-- The capital letters of ASCII are those with codes from 65 to 90. -/
theorem isUpper_iff {c : Char} : c.isUpper = true ↔ 65 ≤ c.toNat ∧ c.toNat ≤ 90 :=
  decide_eq_true_iff.trans (and_congr UInt32.le_iff_toNat_le UInt32.le_iff_toNat_le)

/-- A capital letter is moved by 32; every other character stays. -/
theorem toNat_toLower (c : Char) :
    c.toLower.toNat = if c.isUpper then c.toNat + 32 else c.toNat := by
  unfold Char.toLower
  by_cases h : c.isUpper = true
  · have hhigh : c.toNat ≤ 90 := (isUpper_iff.mp h).2
    rw [if_pos h, dif_pos (of_decide_eq_true h)]
    show (c.val + 32).toNat = c.val.toNat + 32
    rw [UInt32.toNat_add]
    exact Nat.mod_eq_of_lt (Nat.lt_of_le_of_lt (Nat.add_le_add_right hhigh 32) (by decide))
  · rw [if_neg h, dif_neg fun hrange => h (decide_eq_true hrange)]

/-- A character is small already, or is a capital of ASCII, 32 before its small one. -/
theorem toLower_cases (c : Char) :
    c.toLower = c ∨ (65 ≤ c.toNat ∧ c.toNat ≤ 90 ∧ c.toLower.toNat = c.toNat + 32) := by
  have hmoved := toNat_toLower c
  split at hmoved
  · rename_i hupper
    obtain ⟨hlow, hhigh⟩ := isUpper_iff.mp hupper
    exact .inr ⟨hlow, hhigh, hmoved⟩
  · exact .inl (Char.toNat_inj.mp hmoved)

/-- Making letters small makes no dot and leaves those that there are. -/
theorem toLower_eq_dot (c : Char) : (c.toLower == '.') = (c == '.') := by
  rcases toLower_cases c with h | ⟨hlow, _, h⟩
  · rw [h]
  · have hne : ∀ d : Char, 65 ≤ d.toNat → (d == '.') = false := by
      intro d hd
      refine beq_eq_false_iff_ne.mpr ?_
      rintro rfl
      exact absurd hd (by decide)
    rw [hne c hlow, hne c.toLower (by omega)]

/-- The characters of ASCII take one byte. -/
theorem utf8Size_eq_one {c : Char} (h : c.toNat ≤ 127) : c.utf8Size = 1 :=
  Char.utf8Size_eq_one_iff.mpr (UInt32.le_iff_toNat_le.mpr h)

/-- A letter takes as many bytes small as before. -/
theorem utf8Size_toLower (c : Char) : c.toLower.utf8Size = c.utf8Size := by
  rcases toLower_cases c with h | ⟨_, hhigh, h⟩
  · rw [h]
  · rw [utf8Size_eq_one (c := c) (by omega), utf8Size_eq_one (c := c.toLower) (by omega)]

/-- Making letters small leaves the number of bytes. -/
theorem width_fold (cs : List Char) : width (fold cs) = width cs := by
  induction cs with
  | nil => rfl
  | cons c cs ih =>
    show c.toLower.utf8Size + width (fold cs) = c.utf8Size + width cs
    rw [utf8Size_toLower, ih]

end SplitHorizon.Text
