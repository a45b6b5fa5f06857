import Mathlib.Data.List.Forall2
import SplitHorizon.Answers.Store
import SplitHorizon.Proofs.Name.Spelling
/-!
# Names that are asked for

A question is looked up under the text of its name in small letters, and a record set is filed under
the canonical form of what the document declares. Two questions are looked up under one key exactly
if their names differ in the case of letters only (`lookupKey_question_iff`): a dot, a backslash or
a number that stands inside a label is not taken for what it is elsewhere.

A declared name is reached by some question exactly if it is spelled the way the text of a name is,
with escapes where they are due (`exists_question_iff`). Canonical names need not be: they are taken
from the document as they stand. So a name with a character that is no character of host names can
be declared and is never found, unless the document writes the escape (`canonical_block`).
-/

namespace SplitHorizon.DomainName

/-! ## Names that are looked up alike -/

/-- Whether names differ in the case of letters only: they have as many labels, and labels at one
place differ in nothing else. -/
def SameLetters (a b : DomainName) : Prop :=
  List.Forall₂ (fun l l' => l.map smallByte = l'.map smallByte) a.labels b.labels

theorem Valid.ne_nil {name : DomainName} (h : name.Valid) : ∀ l ∈ name.labels, l ≠ [] := by
  rintro l hl rfl
  cases h.labels [] hl

/-- Names differ in case only exactly if they are the same in small letters. -/
theorem sameLetters_iff {a b : DomainName} (ha : a.absolute = true) (hb : b.absolute = true) :
    SameLetters a b ↔ a.small = b.small := by
  obtain ⟨labels, absolute⟩ := a
  obtain ⟨labels', absolute'⟩ := b
  obtain rfl : absolute = true := ha
  obtain rfl : absolute' = true := hb
  rw [SameLetters, ← List.forall₂_map_right_iff, ← List.forall₂_map_left_iff, List.forall₂_eq_eq_eq]
  simp [small]

/-- The texts of two names in small letters are the same exactly if the names differ in case. -/
theorem toText_small_inj {a b : DomainName} (ha : a.Valid) (hb : b.Valid) (ha' : a.absolute = true)
    (hb' : b.absolute = true) : a.small.toText = b.small.toText ↔ SameLetters a b := by
  rw [sameLetters_iff ha' hb']
  constructor
  · intro h
    have hrender : a.small.render = b.small.render := by
      simpa [toText] using congrArg String.toList h
    calc a.small = spelled a.small.render :=
          (spelled_render_small ha' ha.ne_nil).symm
      _ = spelled b.small.render := congrArg spelled hrender
      _ = b.small := spelled_render_small hb' hb.ne_nil
  · intro h
    rw [h]

/-- **Questions are looked up under one key exactly if their names differ in the case of letters
only**, and then every store has the same answer to both. -/
theorem lookupKey_question_iff {a b : DomainName} (ha : a.Valid) (hb : b.Valid)
    (ha' : a.absolute = true) (hb' : b.absolute = true) :
    (Name.lookupKey a.question = Name.lookupKey b.question ↔ SameLetters a b) ∧
      (SameLetters a b → ∀ (store : Store) (client : Address) (kind : RecordKind),
        store.resolve client a.question kind = store.resolve client b.question kind) := by
  have hkeys : Name.lookupKey a.question = Name.lookupKey b.question ↔ SameLetters a b := by
    rw [lookupKey_question ha', lookupKey_question hb', toText_small_inj ha hb ha' hb']
  refine ⟨hkeys, fun hsame store client kind => ?_⟩
  simp only [Store.resolve, hkeys.mpr hsame]

/-- A label with a dot inside is looked up alike in either case, and never as the two labels that
the dot would stand between. -/
theorem lookupKey_question_dotted :
    Name.lookupKey (question ⟨[[0x41, 0x2e, 0x62]], true⟩) =
        Name.lookupKey (question ⟨[[0x61, 0x2e, 0x42]], true⟩) ∧
      Name.lookupKey (question ⟨[[0x41, 0x2e, 0x62]], true⟩) ≠
        Name.lookupKey (question ⟨[[0x61], [0x62]], true⟩) := by
  have hupper : Valid ⟨[[0x41, 0x2e, 0x62]], true⟩ := ⟨by decide, by decide⟩
  have hlower : Valid ⟨[[0x61, 0x2e, 0x42]], true⟩ := ⟨by decide, by decide⟩
  have hlabels : Valid ⟨[[0x61], [0x62]], true⟩ := ⟨by decide, by decide⟩
  refine ⟨(lookupKey_question_iff hupper hlower rfl rfl).1.mpr (.cons rfl .nil), fun h => ?_⟩
  have hsame := (lookupKey_question_iff hupper hlabels rfl rfl).1.mp h
  cases hsame with
  | cons _ hrest => cases hrest

/-! ## Declared names -/

/-- Whether a text is spelled as the text of a name of a message is: what it spells has the text
again, and labels that fit. -/
def isSpelled (name : String) : Bool :=
  (spelled name.toList).toText == name && (spelled name.toList).labels.all fits

/-- A text is spelled as a name's is exactly if it is the text of what it spells, with labels that
fit. -/
theorem isSpelled_iff {name : String} :
    isSpelled name = true ↔ (spelled name.toList).render = name.toList ∧
      ∀ l ∈ (spelled name.toList).labels, fits l = true := by
  rw [isSpelled, Bool.and_eq_true, beq_iff_eq, List.all_eq_true, toText, ← String.toList_inj,
    String.toList_ofList]

theorem absolute_spelled (cs : List Char) : (spelled cs).absolute = true := by
  unfold spelled
  split <;> rfl

theorem fits_map {f : UInt8 → UInt8} {l : List UInt8} : fits (l.map f) = fits l := by
  simp [fits]

/-- What labels take in a message is not more than their text. -/
theorem span_le_length_renderLabels (labels : List (List UInt8)) :
    span labels ≤ (renderLabels labels).length := by
  induction labels with
  | nil => exact Nat.le_refl 0
  | cons l ls ih =>
    have hlength := length_le_length_renderLabel l
    rw [renderLabels_cons, span_cons, List.length_append, List.length_cons]
    omega

/-- A name takes as many bytes in a message as its text has characters at most, and one for the
root. -/
theorem size_le_length_render {n : DomainName} (habsolute : n.absolute = true) :
    n.size ≤ n.render.length + 1 := by
  by_cases hroot : n.labels = []
  · simp [size, hroot, span]
  · have hspan := span_le_length_renderLabels n.labels
    rw [← render_eq_renderLabels habsolute hroot] at hspan
    exact Nat.succ_le_succ hspan

/-- A canonical name is short enough for a message, with a byte for the root. -/
theorem length_le_of_canonical {written name : String} (h : Name.canonical written = .ok name) :
    name.toList.length ≤ 254 := by
  rcases Name.canonical_spec h with rfl | ⟨bare, rfl, hcanonical⟩
  · decide
  · have hlength := Nat.le_trans (Text.length_le_width bare) hcanonical.width_le
    rw [String.toList_ofList, List.length_append, List.length_singleton]
    exact Nat.succ_le_succ hlength

/-- A canonical name is the key of a question exactly if it is spelled as the text of a name. -/
theorem isSpelled_iff_exists {written name : String} (h : Name.canonical written = .ok name) :
    isSpelled name = true ↔
      ∃ n : DomainName, n.Valid ∧ n.absolute = true ∧ Name.lookupKey n.question = name := by
  rw [isSpelled_iff]
  constructor
  · rintro ⟨hrender, hfits⟩
    have habsolute := absolute_spelled name.toList
    refine ⟨spelled name.toList, ⟨hfits, ?_⟩, habsolute, ?_⟩
    · have hsize := size_le_length_render habsolute
      have hlength := length_le_of_canonical h
      rw [hrender] at hsize
      exact Nat.le_trans hsize (Nat.succ_le_succ hlength)
    · rw [lookupKey_question habsolute, toText, ← fold_render habsolute, hrender,
        (Name.fold_canonical h).1, String.ofList_toList]
  · rintro ⟨n, hvalid, habsolute, hkey⟩
    have hname : name.toList = n.small.render := by
      rw [← hkey, lookupKey_question habsolute, toText, String.toList_ofList]
    rw [hname, spelled_render_small habsolute hvalid.ne_nil]
    refine ⟨rfl, fun l hl => ?_⟩
    obtain ⟨l', hl', rfl⟩ := List.mem_map.mp hl
    rw [fits_map]
    exact hvalid.labels l' hl'

/-! ## Names without escapes -/

/-- A byte whose text has no backslash is plain, and its character is one of host names. -/
theorem escape_of_not_mem {first : Bool} {b : UInt8} (h : '\\' ∉ escape first b) :
    escape first b = [charOf b] ∧ isHostChar first (charOf b) = true := by
  by_cases hplain : isPlain first b = true
  · refine ⟨(escape_of_isPlain hplain).1, ?_⟩
    revert hplain
    refine forall_byte (P := fun b => isPlain first b = true →
      isHostChar first (charOf b) = true) ?_ b
    cases first <;> decide +kernel
  · exfalso
    rw [escape, if_neg hplain] at h
    split at h <;> exact h List.mem_cons_self

/-- A label whose text has no backslash is a label of a host name. -/
theorem isHostLabel_renderLabel {l : List UInt8} (hne : l ≠ []) (h : '\\' ∉ renderLabel l) :
    isHostLabel (renderLabel l) = true := by
  cases l with
  | nil => exact absurd rfl hne
  | cons b bs =>
    rw [renderLabel, List.mem_append, not_or] at h
    obtain ⟨hb, hbs⟩ := h
    obtain ⟨htext, hchar⟩ := escape_of_not_mem hb
    rw [renderLabel, htext, List.singleton_append]
    refine Bool.and_eq_true_iff.mpr ⟨hchar, List.all_eq_true.mpr fun c hc => ?_⟩
    obtain ⟨b', hb', hc⟩ := List.mem_flatMap.mp hc
    obtain ⟨htext', hchar'⟩ :=
      escape_of_not_mem fun hmem => hbs (List.mem_flatMap.mpr ⟨b', hb', hmem⟩)
    rw [htext', List.mem_singleton] at hc
    rw [hc]
    exact hchar'

/-- A label of a host name is its own text. -/
theorem renderLabel_map_code {l : List Char} (h : isHostLabel l = true) :
    renderLabel (l.map code) = l := by
  have hplain : ∀ first c, isHostChar first c = true → escape first (code c) = [c] := by
    intro first c hc
    refine forall_ascii (P := fun c => isHostChar first c = true → escape first (code c) = [c]) ?_
      (toNat_lt_of_isHostChar hc) hc
    cases first <;> decide +kernel
  have hrest : ∀ cs : List Char, (∀ c ∈ cs, isHostChar false c = true) →
      (cs.map code).flatMap (escape false) = cs := by
    intro cs hcs
    induction cs with
    | nil => rfl
    | cons c cs ih =>
      obtain ⟨hc, hcs⟩ := List.forall_mem_cons.mp hcs
      rw [List.map_cons, List.flatMap_cons, hplain false c hc, ih hcs, List.singleton_append]
  cases l with
  | nil => cases h
  | cons c cs =>
    obtain ⟨hc, hcs⟩ := Bool.and_eq_true_iff.mp h
    rw [List.map_cons, renderLabel, hplain true c hc, hrest cs (List.all_eq_true.mp hcs),
      List.singleton_append]

/-- The pieces between the dots of a text are the texts of its labels. -/
theorem pieces_renderLabels {labels : List (List UInt8)} (h : ∀ l ∈ labels, '.' ∉ renderLabel l) :
    Text.pieces (· == '.') (renderLabels labels) = labels.map renderLabel ++ [[]] := by
  have htexts : renderLabels labels = (labels.map renderLabel).flatMap (· ++ ['.']) := by
    rw [renderLabels, List.flatMap_map]
  rw [htexts, Text.pieces_flatMap (List.forall_mem_map.mpr h)]

/-- The pieces of a name's text that has no backslash are labels of a host name. -/
theorem isHostLabel_of_render {n : DomainName} (habsolute : n.absolute = true)
    (hlabels : ∀ l ∈ n.labels, l ≠ []) {bare : List Char} (hbare : bare ≠ [])
    (hslash : '\\' ∉ bare) (h : n.render = bare ++ ['.']) :
    ∀ l ∈ Text.pieces (· == '.') bare, isHostLabel l = true := by
  have hroot : n.labels ≠ [] := by
    intro hnil
    have hdot : n.render = ['.'] := by simp [render, hnil, habsolute]
    exact hbare (List.append_left_eq_self.mp (h.symm.trans hdot))
  have htext : renderLabels n.labels = bare ++ ['.'] :=
    (render_eq_renderLabels habsolute hroot).symm.trans h
  have hhost : ∀ l ∈ n.labels, isHostLabel (renderLabel l) = true := by
    intro l hl
    refine isHostLabel_renderLabel (hlabels l hl) fun hmem => ?_
    have htextmem : '\\' ∈ renderLabels n.labels :=
      List.mem_flatMap.mpr ⟨l, hl, List.mem_append_left _ hmem⟩
    rw [htext] at htextmem
    simp [hslash] at htextmem
  have hdots : ∀ l ∈ n.labels, '.' ∉ renderLabel l := by
    intro l hl hdot
    obtain ⟨first, hchar⟩ := exists_isHostChar_of_mem (hhost l hl) hdot
    exact (isShown_of_isHostChar hchar).2.1 rfl
  have hpieces : Text.pieces (· == '.') bare = n.labels.map renderLabel := by
    have hcut := pieces_renderLabels hdots
    rw [htext, Text.pieces_concat rfl] at hcut
    exact List.append_cancel_right hcut
  rw [hpieces]
  intro l hl
  obtain ⟨l', hl', rfl⟩ := List.mem_map.mp hl
  exact hhost l' hl'

/-- A host name is the text of the name that has its pieces for labels. -/
theorem render_pieces {bare : List Char}
    (h : ∀ l ∈ Text.pieces (· == '.') bare, isHostLabel l = true) :
    (ofLabels ((Text.pieces (· == '.') bare).map (List.map code))).render = bare ++ ['.'] := by
  have hroot : (Text.pieces (· == '.') bare).map (List.map code) ≠ [] := by
    obtain ⟨w, ws, hcut⟩ := Text.exists_pieces_eq_cons (· == '.') bare
    simp [hcut]
  rw [render_ofLabels hroot, ← Text.flatMap_pieces, renderLabels, List.flatMap_map]
  refine List.flatMap_congr fun l hl => ?_
  rw [renderLabel_map_code (h l hl)]

/-- A canonical name without a backslash is spelled as the text of a name exactly if it is a host
name. -/
theorem isSpelled_iff_isHostName {written name : String} (h : Name.canonical written = .ok name)
    (hslash : '\\' ∉ name.toList) : isSpelled name = true ↔ isHostName name = true := by
  rcases Name.canonical_spec h with rfl | ⟨bare, rfl, hcanonical⟩
  · exact ⟨fun _ => rfl, fun _ => by decide⟩
  · rw [isSpelled_iff, isHostName_append_dot hcanonical.ne_nil]
    rw [String.toList_ofList] at hslash ⊢
    constructor
    · rintro ⟨hrender, hfits⟩
      have hlabels : ∀ l ∈ (spelled (bare ++ ['.'])).labels, l ≠ [] := by
        rintro l hl rfl
        cases hfits [] hl
      exact isHostLabel_of_render (absolute_spelled _) hlabels hcanonical.ne_nil
        (fun hmem => hslash (List.mem_append_left _ hmem)) hrender
    · intro hhost
      have hfits : ∀ l ∈ (Text.pieces (· == '.') bare).map (List.map code), fits l = true := by
        intro l hl
        obtain ⟨l', hl', rfl⟩ := List.mem_map.mp hl
        obtain ⟨hne, hwidth⟩ := hcanonical.label l' hl'
        have hlength := Nat.le_trans (Text.length_le_width l') hwidth
        simp [fits, maxLabel, hne, hlength]
      have hspelled : spelled (bare ++ ['.']) =
          ofLabels ((Text.pieces (· == '.') bare).map (List.map code)) := by
        rw [← render_pieces hhost]
        refine spelled_render rfl ?_
        rintro l hl rfl
        cases hfits [] hl
      rw [hspelled]
      exact ⟨render_pieces hhost, hfits⟩

/-- **A declared name is found by some question exactly if it is spelled as the text of a name is.**
One that has no backslash in it is spelled so exactly if it is a host name. -/
theorem exists_question_iff {written name : String} (h : Name.canonical written = .ok name) :
    ((∃ n : DomainName, n.Valid ∧ n.absolute = true ∧ Name.lookupKey n.question = name) ↔
        isSpelled name = true) ∧
      ('\\' ∉ name.toList → (isSpelled name = true ↔ isHostName name = true)) :=
  ⟨(isSpelled_iff_exists h).symm, isSpelled_iff_isHostName h⟩

/-- A document that writes the escape of a dot is asked for the label with the dot inside, and one
that declares a host name for that name. -/
theorem exists_question_escaped :
    (Name.canonical "Smith\\.John.test" = .ok "smith\\.john.test." ∧
      ∃ n : DomainName, n.Valid ∧ n.absolute = true ∧
        Name.lookupKey n.question = "smith\\.john.test.") ∧
    Name.canonical "_LDAP.test" = .ok "_ldap.test." ∧
      ∃ n : DomainName, n.Valid ∧ n.absolute = true ∧
        Name.lookupKey n.question = "_ldap.test." := by
  have hescaped : Name.canonical "Smith\\.John.test" = .ok "smith\\.john.test." :=
    toOption_eq_some_iff.mp (by decide +kernel)
  have hhost : Name.canonical "_LDAP.test" = .ok "_ldap.test." :=
    toOption_eq_some_iff.mp (by decide +kernel)
  obtain ⟨hquestion, hspelled⟩ := exists_question_iff hhost
  refine ⟨⟨hescaped, (exists_question_iff hescaped).1.mpr (by decide +kernel)⟩, hhost, ?_⟩
  exact hquestion.mpr ((hspelled (by decide)).mpr (by decide +kernel))

/-- The name of a block of addresses is declared as it stands, and no question is looked up under
it. -/
theorem canonical_block :
    Name.canonical "1.0/25.2.0.192.in-addr.arpa" = .ok "1.0/25.2.0.192.in-addr.arpa." ∧
      ¬ ∃ n : DomainName, n.Valid ∧ n.absolute = true ∧
        Name.lookupKey n.question = "1.0/25.2.0.192.in-addr.arpa." := by
  have h : Name.canonical "1.0/25.2.0.192.in-addr.arpa" = .ok "1.0/25.2.0.192.in-addr.arpa." :=
    toOption_eq_some_iff.mp (by decide +kernel)
  refine ⟨h, fun hquestion => ?_⟩
  have hspelled := (isSpelled_iff_exists h).mpr hquestion
  exact absurd hspelled (by decide +kernel)

end SplitHorizon.DomainName
