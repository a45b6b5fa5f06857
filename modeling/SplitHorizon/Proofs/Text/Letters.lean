import Mathlib.Data.List.Forall2
import SplitHorizon.Proofs.Text.Bytes
/-!
# Texts that differ in letter case

Texts are compared without regard to letter case by making their letters small. Two texts have the
same small letters exactly if they agree at every place, up to the size of the letters from A to Z
(`fold_eq_fold_iff`); no other letters have a size here. What has no capital letter stays as it is
(`fold_eq_self_iff`).
-/

namespace SplitHorizon.Text

/-- Two characters are the same, or they are a letter from A to Z in both its sizes: the small one
stands 32 behind the capital. -/
def SameLetter (c d : Char) : Prop :=
  c = d ∨ (c.isUpper ∧ d.toNat = c.toNat + 32) ∨ (d.isUpper ∧ c.toNat = d.toNat + 32)

instance (c d : Char) : Decidable (SameLetter c d) := inferInstanceAs (Decidable (_ ∨ _))

/-- Characters have one small letter exactly if they differ in case at most. -/
theorem toLower_eq_toLower_iff {c d : Char} : c.toLower = d.toLower ↔ SameLetter c d := by
  rw [SameLetter, ← Char.toNat_inj, ← Char.toNat_inj, toNat_toLower, toNat_toLower]
  simp only [isUpper_iff]
  split <;> split <;> omega

/-- A character is left as it is exactly if it is no capital letter. -/
theorem toLower_eq_self_iff {c : Char} : c.toLower = c ↔ c.isUpper = false := by
  rw [← Char.toNat_inj, toNat_toLower]
  cases c.isUpper <;> simp

/-- **Texts have the same small letters exactly if they differ in the case of letters only.** -/
theorem fold_eq_fold_iff {cs ds : List Char} :
    fold cs = fold ds ↔ List.Forall₂ SameLetter cs ds := by
  rw [fold, fold, ← List.forall₂_eq_eq_eq, List.forall₂_map_left_iff, List.forall₂_map_right_iff]
  simp only [toLower_eq_toLower_iff]

/-- A text is in small letters exactly if none of its letters is a capital. -/
theorem fold_eq_self_iff {cs : List Char} : fold cs = cs ↔ ∀ c ∈ cs, c.isUpper = false := by
  have hmap : fold cs = cs ↔ cs.map Char.toLower = cs.map fun c => c := by
    rw [List.map_id', fold]
  rw [hmap, List.map_eq_map_iff]
  simp only [toLower_eq_self_iff]

end SplitHorizon.Text
