import SplitHorizon.Name.Canonical
import SplitHorizon.Proofs.Except
import SplitHorizon.Proofs.Text.Blank
import SplitHorizon.Proofs.Text.Letters
import SplitHorizon.Proofs.Text.Pieces
/-!
# What canonical names are

A name that is accepted for the document is the root, or labels with a dot behind each of them. The
labels are not empty, and they and the name have at most as many bytes as a message leaves room for
(`canonical_spec`). Making letters small changes neither the dots nor the number of bytes, and so a
name that is canonical stays as it is (`canonical_canonical`).

Nothing else about a text is lost: what has the canonical form of a name is the same text up to the
blanks around it, the dot at its end and the case of its letters (`canonical_eq_ok_iff_sameName`).
-/

namespace SplitHorizon

/-- Making letters small changes no dot. -/
theorem Text.pieces_fold (cs : List Char) :
    pieces (· == '.') (fold cs) = (pieces (· == '.') cs).map fold :=
  pieces_map toLower_eq_dot cs

namespace Name

/-- A name that fits into a message, without the dot at its end. -/
structure IsCanonical (bare : List Char) : Prop where
  width_le : Text.width bare ≤ 253
  label : ∀ l ∈ Text.pieces (· == '.') bare, l ≠ [] ∧ Text.width l ≤ 63

/-- The labels are not empty, so there is something in front of the dot. -/
theorem IsCanonical.ne_nil {bare : List Char} (h : IsCanonical bare) : bare ≠ [] := by
  rintro rfl
  exact (h.label [] List.mem_cons_self).1 rfl

/-- A canonical name in small letters is canonical. -/
theorem IsCanonical.fold {bare : List Char} (h : IsCanonical bare) :
    IsCanonical (Text.fold bare) := by
  refine ⟨?_, fun l hl => ?_⟩
  · rw [Text.width_fold]
    exact h.width_le
  · rw [Text.pieces_fold] at hl
    obtain ⟨label, hlabel, rfl⟩ := List.mem_map.mp hl
    obtain ⟨hne, hle⟩ := h.label label hlabel
    rw [Text.width_fold]
    exact ⟨fun hnil => hne (List.map_eq_nil_iff.mp hnil), hle⟩

/-- A name fits exactly if it fits in small letters. -/
theorem isCanonical_fold_iff {bare : List Char} :
    IsCanonical (Text.fold bare) ↔ IsCanonical bare := by
  refine ⟨fun h => ⟨?_, fun l hl => ?_⟩, IsCanonical.fold⟩
  · rw [← Text.width_fold]
    exact h.width_le
  · obtain ⟨hne, hle⟩ := h.label (Text.fold l)
      (by rw [Text.pieces_fold]; exact List.mem_map_of_mem hl)
    rw [Text.width_fold] at hle
    exact ⟨fun hnil => hne (List.map_eq_nil_iff.mpr hnil), hle⟩

/-- A label passes exactly if it is neither empty nor too long, and has no blank. -/
theorem checkLabel_eq_ok_iff {name : String} {l : List Char} :
    checkLabel name l = .ok () ↔
      (l ≠ [] ∧ Text.width l ≤ 63) ∧ ∀ c ∈ l, Text.isBlank c = false := by
  unfold checkLabel
  split
  · rename_i hnil
    exact ⟨nofun, fun h => absurd (List.isEmpty_iff.mp hnil) h.1.1⟩
  · rename_i hne
    have hne : l ≠ [] := fun hnil => hne (hnil ▸ rfl)
    split
    · rename_i hwidth
      exact ⟨nofun, fun h => absurd hwidth (Nat.not_lt_of_le h.1.2)⟩
    · rename_i hwidth
      split
      · rename_i hblank
        obtain ⟨c, hc, hblank⟩ := List.any_eq_true.mp hblank
        refine ⟨nofun, fun h => ?_⟩
        rw [h.2 c hc] at hblank
        cases hblank
      · rename_i hblank
        refine ⟨fun _ => ⟨⟨hne, Nat.le_of_not_lt hwidth⟩, fun c hc => ?_⟩, fun _ => rfl⟩
        exact eq_false_of_ne_true fun h => hblank (List.any_eq_true.mpr ⟨c, hc, h⟩)

/-- The labels of a name are accepted if they have sizes of labels and nothing in the name is
blank. -/
theorem forM_checkLabel_eq_ok_iff {name : String} {bare : List Char} :
    (Text.pieces (· == '.') bare).forM (checkLabel name) = .ok () ↔
      (∀ l ∈ Text.pieces (· == '.') bare, l ≠ [] ∧ Text.width l ≤ 63) ∧
        ∀ c ∈ bare, Text.isBlank c = false := by
  have hchars : (∀ l ∈ Text.pieces (· == '.') bare, ∀ c ∈ l, Text.isBlank c = false) ↔
      ∀ c ∈ bare, Text.isBlank c = false := by
    constructor
    · intro h c hc
      by_cases hdot : c = '.'
      · rw [hdot]
        rfl
      · obtain ⟨l, hl, hcl⟩ := (Text.exists_mem_pieces_iff (p := (· == '.'))).mpr
          ⟨hc, beq_eq_false_iff_ne.mpr hdot⟩
        exact h l hl c hcl
    · intro h l hl c hc
      exact h c (Text.exists_mem_pieces_iff.mp ⟨l, hl, hc⟩).1
  rw [forM_eq_ok_iff, ← hchars]
  simp only [checkLabel_eq_ok_iff, forall_and]

/-- **What is accepted as a name, and in which form**: the root, and labels of the sizes of a
message without blanks. Blanks around them, the dot at the end and capital letters make no
difference. -/
theorem canonical_eq_ok_iff {written name : String} :
    canonical written = .ok name ↔
      Text.trim written.toList = ['.'] ∧ name = "." ∨
      Text.trim written.toList ≠ ['.'] ∧ IsCanonical (dropDot (Text.trim written.toList)) ∧
        (∀ c ∈ dropDot (Text.trim written.toList), Text.isBlank c = false) ∧
        name = String.ofList (Text.fold (dropDot (Text.trim written.toList)) ++ ['.']) := by
  unfold canonical
  dsimp only
  generalize Text.trim written.toList = trimmed
  by_cases hroot : trimmed = ['.']
  · rw [if_pos hroot]
    constructor
    · intro h
      exact .inl ⟨hroot, (Except.ok.inj h).symm⟩
    · rintro (⟨_, rfl⟩ | ⟨h, _⟩)
      · rfl
      · exact absurd hroot h
  · rw [if_neg hroot]
    generalize dropDot trimmed = bare
    have hparts : (trimmed = ['.'] ∧ name = "." ∨ trimmed ≠ ['.'] ∧ IsCanonical bare ∧
        (∀ c ∈ bare, Text.isBlank c = false) ∧ name = String.ofList (Text.fold bare ++ ['.'])) ↔
        IsCanonical bare ∧ (∀ c ∈ bare, Text.isBlank c = false) ∧
          name = String.ofList (Text.fold bare ++ ['.']) :=
      ⟨fun h => h.elim (fun h => absurd h.1 hroot) And.right, fun h => .inr ⟨hroot, h⟩⟩
    rw [hparts]
    split
    · rename_i hnil
      exact ⟨nofun, fun h => absurd (List.isEmpty_iff.mp hnil) h.1.ne_nil⟩
    · split
      · rename_i hwidth
        exact ⟨nofun, fun h => absurd hwidth (Nat.not_lt_of_le h.1.width_le)⟩
      · rename_i hwidth
        rw [bind_eq_ok_iff]
        constructor
        · intro hsteps
          obtain ⟨_, hlabels, h⟩ := hsteps
          obtain ⟨hlabel, hblank⟩ := forM_checkLabel_eq_ok_iff.mp hlabels
          exact ⟨⟨Nat.le_of_not_lt hwidth, hlabel⟩, hblank, (Except.ok.inj h).symm⟩
        · intro h
          obtain ⟨hcanonical, hblank, rfl⟩ := h
          exact ⟨(), forM_checkLabel_eq_ok_iff.mpr ⟨hcanonical.label, hblank⟩, rfl⟩

/-- **A canonical name is the root, or its labels with a dot behind each**, and has the size of a
name of a message. -/
theorem canonical_spec {written name : String} (h : canonical written = .ok name) :
    name = "." ∨ ∃ bare, name = String.ofList (bare ++ ['.']) ∧ IsCanonical bare := by
  rcases canonical_eq_ok_iff.mp h with ⟨_, rfl⟩ | ⟨_, hcanonical, _, rfl⟩
  · exact .inl rfl
  · exact .inr ⟨_, rfl, hcanonical.fold⟩

/-! ## The canonical form of a canonical name -/

theorem dropDot_append_dot (bare : List Char) : dropDot (bare ++ ['.']) = bare := by
  rw [dropDot, List.getLast?_concat, if_pos rfl, List.dropLast_concat]

/-- There is no blank in a canonical name. -/
theorem isBlank_of_mem_canonical {written name : String} (h : canonical written = .ok name) :
    ∀ c ∈ name.toList, Text.isBlank c = false := by
  rcases canonical_eq_ok_iff.mp h with ⟨_, rfl⟩ | ⟨_, _, hblank, rfl⟩
  · exact List.forall_mem_singleton.mpr rfl
  · rw [String.toList_ofList, List.forall_mem_append]
    exact ⟨Text.isBlank_of_mem_fold hblank, List.forall_mem_singleton.mpr rfl⟩

/-- What fits, in small letters and without blanks, is accepted with the dot as it stands. -/
theorem canonical_append_dot {bare : List Char} (h : IsCanonical bare)
    (hblank : ∀ c ∈ bare, Text.isBlank c = false) (hfold : Text.fold bare = bare) :
    canonical (String.ofList (bare ++ ['.'])) = .ok (String.ofList (bare ++ ['.'])) := by
  have hvisible : ∀ c ∈ bare ++ ['.'], Text.isBlank c = false :=
    List.forall_mem_append.mpr ⟨hblank, List.forall_mem_singleton.mpr rfl⟩
  refine canonical_eq_ok_iff.mpr (.inr ?_)
  rw [String.toList_ofList, Text.trim_eq_self hvisible, dropDot_append_dot, hfold]
  exact ⟨fun hroot => h.ne_nil (List.append_left_eq_self.mp hroot), h, hblank, rfl⟩

/-- **A canonical name is its own canonical form.** -/
theorem canonical_canonical {written name : String} (h : canonical written = .ok name) :
    canonical name = .ok name := by
  rcases canonical_eq_ok_iff.mp h with ⟨_, rfl⟩ | ⟨_, hcanonical, hblank, rfl⟩
  · rfl
  · exact canonical_append_dot hcanonical.fold (Text.isBlank_of_mem_fold hblank) (Text.fold_fold _)

/-- A canonical name is in small letters and ends with a dot. -/
theorem fold_canonical {written name : String} (h : canonical written = .ok name) :
    Text.fold name.toList = name.toList ∧ name.toList.getLast? = some '.' := by
  rcases canonical_eq_ok_iff.mp h with ⟨_, rfl⟩ | ⟨_, _, _, rfl⟩
  · exact ⟨rfl, rfl⟩
  · rw [String.toList_ofList, List.getLast?_concat, Text.fold, List.map_append, ← Text.fold,
      Text.fold_fold]
    exact ⟨rfl, rfl⟩

/-! ## Spellings of one name -/

/-- Only of the root nothing is left without the dot. -/
theorem dropDot_eq_nil_iff {cs : List Char} (hne : cs ≠ []) : dropDot cs = [] ↔ cs = ['.'] := by
  unfold dropDot
  split
  · rename_i hdot
    obtain ⟨front, rfl⟩ := List.getLast?_eq_some_iff.mp hdot
    rw [List.dropLast_concat]
    exact List.append_left_eq_self.symm
  · rename_i hdot
    refine iff_of_false hne ?_
    rintro rfl
    exact hdot rfl

/-- The canonical form of a name, the root or not, is what stands in front of the dot in small
letters, and the dot. -/
theorem eq_of_canonical {written name : String} (h : canonical written = .ok name) :
    name = String.ofList (Text.fold (dropDot (Text.trim written.toList)) ++ ['.']) := by
  rcases canonical_eq_ok_iff.mp h with ⟨hroot, rfl⟩ | ⟨_, _, _, hname⟩
  · rw [hroot]
    rfl
  · exact hname

/-- A text with nothing but blanks is no name. -/
theorem trim_ne_nil_of_canonical {written name : String} (h : canonical written = .ok name) :
    Text.trim written.toList ≠ [] := by
  rcases canonical_eq_ok_iff.mp h with ⟨hroot, _⟩ | ⟨_, hcanonical, _, _⟩
  · rw [hroot]
    exact List.cons_ne_nil '.' []
  · intro hnil
    rw [hnil] at hcanonical
    exact hcanonical.ne_nil rfl

/-- Two texts are spellings of one name: both of them are the root or none is, and without the
blanks around them and the dot at the end they differ in the case of letters only. -/
structure SameName (a b : String) : Prop where
  root : Text.trim a.toList = ['.'] ↔ Text.trim b.toList = ['.']
  letters : List.Forall₂ Text.SameLetter (dropDot (Text.trim a.toList))
    (dropDot (Text.trim b.toList))

instance (a b : String) : Decidable (SameName a b) :=
  decidable_of_iff (_ ∧ _) ⟨fun h => ⟨h.1, h.2⟩, fun h => ⟨h.root, h.letters⟩⟩

/-- The small letters in front of the dot are enough to compare: only the root has none there. -/
theorem SameName.of_fold_eq {a b : String} (ha : Text.trim a.toList ≠ [])
    (hb : Text.trim b.toList ≠ [])
    (h : Text.fold (dropDot (Text.trim a.toList)) = Text.fold (dropDot (Text.trim b.toList))) :
    SameName a b := by
  refine ⟨?_, Text.fold_eq_fold_iff.mp h⟩
  have hnil : Text.fold (dropDot (Text.trim a.toList)) = [] ↔
      Text.fold (dropDot (Text.trim b.toList)) = [] := by
    rw [h]
  simpa only [Text.fold, List.map_eq_nil_iff, dropDot_eq_nil_iff ha, dropDot_eq_nil_iff hb]
    using hnil

/-- A spelling of a name that is accepted is accepted too, in the same form. -/
theorem SameName.canonical_eq {a b name : String} (h : SameName a b)
    (ha : canonical a = .ok name) : canonical b = .ok name := by
  have hfold := Text.fold_eq_fold_iff.mpr h.letters
  refine canonical_eq_ok_iff.mpr ?_
  rcases canonical_eq_ok_iff.mp ha with ⟨hroot, hname⟩ | ⟨hroot, hcanonical, hblank, hname⟩
  · exact .inl ⟨h.root.mp hroot, hname⟩
  · refine .inr ⟨fun hb => hroot (h.root.mpr hb), ?_, fun c hc => ?_, ?_⟩
    · rw [← isCanonical_fold_iff, ← hfold]
      exact hcanonical.fold
    · rw [← Text.isBlank_toLower]
      apply Text.isBlank_of_mem_fold hblank
      rw [hfold]
      exact List.mem_map_of_mem hc
    · rw [← hfold]
      exact hname

/-- **A text has the canonical form of a name exactly if it is a spelling of it.** -/
theorem canonical_eq_ok_iff_sameName {written name : String} (h : canonical written = .ok name)
    (other : String) : canonical other = .ok name ↔ SameName written other := by
  refine ⟨fun hother => ?_, fun hsame => hsame.canonical_eq h⟩
  have hforms := (eq_of_canonical h).symm.trans (eq_of_canonical hother)
  exact .of_fold_eq (trim_ne_nil_of_canonical h) (trim_ne_nil_of_canonical hother)
    (List.append_cancel_right (String.ofList_injective hforms))

/-! ## The key of a query -/

theorem getLast?_fold {cs : List Char} :
    (Text.fold cs).getLast? = some '.' ↔ cs.getLast? = some '.' := by
  rw [Text.fold, List.getLast?_map, Option.map_eq_some_iff]
  constructor
  · rintro ⟨c, hc, hdot⟩
    have hlower := Text.toLower_eq_dot c
    rw [hdot, beq_self_eq_true] at hlower
    rw [hc, beq_iff_eq.mp hlower.symm]
  · intro h
    exact ⟨'.', h, rfl⟩

/-- A text that ends with a dot is what is left without it, and the dot. -/
theorem dropDot_append_of_getLast? {cs : List Char} (h : cs.getLast? = some '.') :
    dropDot cs ++ ['.'] = cs := by
  obtain ⟨front, rfl⟩ := List.getLast?_eq_some_iff.mp h
  rw [dropDot_append_dot]

/-- The key of a name is its small letters with one dot at the end, whichever way the name is
written. -/
theorem lookupKey_eq (name : String) :
    lookupKey name = String.ofList (Text.fold (dropDot name.toList) ++ ['.']) := by
  by_cases hdot : name.toList.getLast? = some '.'
  · have hfold : Text.fold name.toList = Text.fold (dropDot name.toList) ++ ['.'] :=
      calc Text.fold name.toList = Text.fold (dropDot name.toList ++ ['.']) := by
            rw [dropDot_append_of_getLast? hdot]
        _ = Text.fold (dropDot name.toList) ++ ['.'] := List.map_append
    rw [lookupKey, if_pos (getLast?_fold.mpr hdot), hfold]
  · simp only [lookupKey, getLast?_fold, dropDot, if_neg hdot]

/-- **A name that is trimmed has the canonical form that it is looked up under, or none at all**:
its key is no canonical form of any other name then. -/
theorem canonical_eq_ok_iff_lookupKey {name key : String} (hne : name ≠ "")
    (htrim : Text.trim name.toList = name.toList) :
    canonical name = .ok key ↔ lookupKey name = key ∧ ∃ written, canonical written = .ok key := by
  rw [lookupKey_eq]
  constructor
  · intro h
    have hname := eq_of_canonical h
    rw [htrim] at hname
    exact ⟨hname.symm, name, h⟩
  · rintro ⟨rfl, written, h⟩
    have hname : name.toList ≠ [] := fun hnil => hne (String.toList_eq_nil_iff.mp hnil)
    have hfold : Text.fold (dropDot (Text.trim written.toList)) =
        Text.fold (dropDot (Text.trim name.toList)) := by
      rw [htrim]
      exact (List.append_cancel_right (String.ofList_injective (eq_of_canonical h))).symm
    have hsame : SameName written name :=
      .of_fold_eq (trim_ne_nil_of_canonical h) (by rwa [htrim]) hfold
    exact hsame.canonical_eq h

/-- A name is its own key exactly if it has no capital letters and ends with a dot. -/
theorem lookupKey_eq_self_iff {name : String} :
    lookupKey name = name ↔
      Text.fold name.toList = name.toList ∧ name.toList.getLast? = some '.' := by
  unfold lookupKey
  simp only [getLast?_fold]
  rw [← String.toList_inj, String.toList_ofList]
  split
  · rename_i hdot
    exact ⟨fun h => ⟨h, hdot⟩, And.left⟩
  · rename_i hdot
    refine ⟨fun h => absurd ?_ hdot, fun h => absurd h.2 hdot⟩
    rw [← h]
    exact List.getLast?_concat

/-- A dot at the end is added where it is missing. -/
theorem lookupKey_append_dot {name : String} (h : name.toList.getLast? ≠ some '.') :
    lookupKey (name ++ ".") = lookupKey name := by
  have hdot : dropDot (name ++ ".").toList = dropDot name.toList := by
    rw [String.toList_append, show ".".toList = ['.'] from rfl, dropDot_append_dot, dropDot,
      if_neg h]
  rw [lookupKey_eq, lookupKey_eq, hdot]

end Name

end SplitHorizon
