import SplitHorizon.Proofs.Name.Canonical
/-!
# The form of canonical names

The texts that are canonical names are told here without the function that makes them: labels of 1
to 63 bytes with a dot behind each, in small letters, without blanks, 254 bytes at most, and the
root. These are the names that are their own canonical form (`canonical_eq_self_iff`).

So the canonical form of a name is a normal form (`form_canonical`). Every name that is accepted has
one, it is left as it is when it is read again, and two names share it exactly if they are spellings
of one name. A zone relies on both directions of this: what is declared twice is found out by its
form, and what is looked up under a form is what was declared.
-/

namespace SplitHorizon.Name

/-! ## The form -/

/-- A text that can stand between the dots of a name. -/
structure IsLabel (label : String) : Prop where
  no_dot : '.' ∉ label.toList
  size_pos : 1 ≤ label.utf8ByteSize
  size_le : label.utf8ByteSize ≤ 63

/-- The form that names are filed in. -/
structure IsCanonicalForm (name : String) : Prop where
  dot : name.toList.getLast? = some '.'
  small : ∀ c ∈ name.toList, c.isUpper = false
  visible : ∀ c ∈ name.toList, Text.isBlank c = false
  size_le : name.utf8ByteSize ≤ 254
  labels : name = "." ∨ ∃ labels : List String,
    name = String.join (labels.map (· ++ ".")) ∧ ∀ l ∈ labels, IsLabel l

/-- The characters of a label are at least one and not too many, and no dot is among them. -/
theorem isLabel_iff {label : String} :
    IsLabel label ↔ '.' ∉ label.toList ∧ label.toList ≠ [] ∧ Text.width label.toList ≤ 63 := by
  have hpos : 1 ≤ label.utf8ByteSize ↔ label.toList ≠ [] := by
    rw [Nat.one_le_iff_ne_zero, Ne, Ne, String.utf8ByteSize_eq_zero_iff, String.toList_eq_nil_iff]
  rw [← hpos, ← Text.utf8ByteSize_eq]
  exact ⟨fun h => ⟨h.no_dot, h.size_pos, h.size_le⟩, fun h => ⟨h.1, h.2.1, h.2.2⟩⟩

/-- The characters of labels with a dot behind each. -/
theorem toList_join_labels (labels : List String) :
    (String.join (labels.map (· ++ "."))).toList =
      (labels.map String.toList).flatMap (· ++ ['.']) := by
  rw [String.toList_join, List.flatMap_map, List.flatMap_map]
  simp only [String.toList_append, show ".".toList = ['.'] from rfl]

/-- What stands in front of the dot is cut into the labels that the name is made of. -/
theorem isCanonical_iff {bare : List Char} :
    IsCanonical bare ↔ (String.ofList (bare ++ ['.'])).utf8ByteSize ≤ 254 ∧
      ∃ labels : List String, String.ofList (bare ++ ['.']) = String.join (labels.map (· ++ ".")) ∧
        ∀ l ∈ labels, IsLabel l := by
  have hsize : (String.ofList (bare ++ ['.'])).utf8ByteSize = Text.width bare + 1 := by
    rw [Text.utf8ByteSize_eq, String.toList_ofList, Text.width_append]
    rfl
  rw [hsize]
  constructor
  · intro h
    refine ⟨Nat.succ_le_succ h.width_le, (Text.pieces (· == '.') bare).map String.ofList, ?_, ?_⟩
    · rw [← String.toList_inj, String.toList_ofList, toList_join_labels, List.map_map,
        ← Text.flatMap_pieces]
      simp
    · refine List.forall_mem_map.mpr fun l hl => ?_
      rw [isLabel_iff, String.toList_ofList]
      refine ⟨fun hdot => ?_, h.label l hl⟩
      exact Bool.false_ne_true (Text.exists_mem_pieces_iff.mp ⟨l, hl, hdot⟩).2.symm
  · rintro ⟨hwidth, labels, hjoin, hlabels⟩
    have hpieces : Text.pieces (· == '.') bare = labels.map String.toList := by
      have hchars := congrArg String.toList hjoin
      rw [String.toList_ofList, toList_join_labels] at hchars
      have hcut := Text.pieces_flatMap (List.forall_mem_map.mpr fun l hl => (hlabels l hl).no_dot)
      rw [← hchars, Text.pieces_concat rfl] at hcut
      exact List.append_cancel_right hcut
    refine ⟨Nat.le_of_succ_le_succ hwidth, ?_⟩
    rw [hpieces]
    exact List.forall_mem_map.mpr fun l hl => (isLabel_iff.mp (hlabels l hl)).2

/-- **A name is its own canonical form exactly if it is written in the form that names are filed
in.** -/
theorem canonical_eq_self_iff {name : String} :
    canonical name = .ok name ↔ IsCanonicalForm name := by
  constructor
  · intro h
    obtain ⟨hfold, hdot⟩ := fold_canonical h
    have hsmall := Text.fold_eq_self_iff.mp hfold
    have hvisible := isBlank_of_mem_canonical h
    rcases canonical_spec h with rfl | ⟨bare, rfl, hcanonical⟩
    · exact ⟨hdot, hsmall, hvisible, by decide, .inl rfl⟩
    · obtain ⟨hsize, hlabels⟩ := isCanonical_iff.mp hcanonical
      exact ⟨hdot, hsmall, hvisible, hsize, .inr hlabels⟩
  · intro h
    obtain ⟨hdot, hsmall, hvisible, hsize, hroot | hlabels⟩ := h
    · rw [hroot]
      rfl
    · obtain ⟨bare, hbare⟩ := List.getLast?_eq_some_iff.mp hdot
      obtain rfl : name = String.ofList (bare ++ ['.']) := by
        rw [← hbare, String.ofList_toList]
      rw [String.toList_ofList, List.forall_mem_append] at hsmall hvisible
      exact canonical_append_dot (isCanonical_iff.mpr ⟨hsize, hlabels⟩) hvisible.1
        (Text.fold_eq_self_iff.mpr hsmall.1)

/-! ## The normal form -/

/-- **The canonical form of a name is a normal form.** It is accepted again and stays as it is; it
ends with a dot, has no capital letter and no blank, has 254 bytes at most and is the root or labels
of 1 to 63 bytes. The texts that have it are the spellings of the name: they differ from what was
written in the blanks around it, the dot at its end and the case of its letters, and in nothing
else. And no text is refused that has this form already. -/
theorem form_canonical {written name : String} (h : canonical written = .ok name) :
    canonical name = .ok name ∧ IsCanonicalForm name ∧
      (∀ other, canonical other = .ok name ↔ SameName written other) ∧
      ∀ form, IsCanonicalForm form → canonical form = .ok form := by
  have hself := canonical_canonical h
  exact ⟨hself, canonical_eq_self_iff.mp hself, canonical_eq_ok_iff_sameName h,
    fun _ => canonical_eq_self_iff.mpr⟩

/-- Letters with a mark have one size only, so ` Mail.MÜNCHEN.example.` is a spelling of
`MAIL.mÜnchen.EXAMPLE` and not of `mail.münchen.example`. -/
theorem form_canonical_umlaut :
    canonical " Mail.MÜNCHEN.example.\n" = .ok "mail.mÜnchen.example." ∧
      IsCanonicalForm "mail.mÜnchen.example." ∧
      canonical "MAIL.mÜnchen.EXAMPLE" = .ok "mail.mÜnchen.example." ∧
      canonical "mail.münchen.example" ≠ .ok "mail.mÜnchen.example." := by
  have h : canonical " Mail.MÜNCHEN.example.\n" = .ok "mail.mÜnchen.example." :=
    toOption_eq_some_iff.mp (by decide +kernel)
  obtain ⟨_, hform, hspellings, _⟩ := form_canonical h
  refine ⟨h, hform, (hspellings _).mpr (by decide +kernel), fun hother => ?_⟩
  exact absurd ((hspellings _).mp hother) (by decide +kernel)

end SplitHorizon.Name
