import SplitHorizon.Proofs.Name.HostNames
/-!
# What the text of a name spells

The text of a name is read back to its labels by undoing the escapes, and this reading refuses
nothing: it is only a way to tell what stands in a text (`spelled`). A byte is read off the front of
its text whatever follows (`unescape_escape`), since no escape begins with a dot and none is the
front of another. So the text of a name spells the name (`spelled_render`).

Making the letters of the text small is the same as making those of the name small (`fold_render`):
an escape has no letters in it. So the key that a question is looked up under (`lookupKey_question`)
spells the name of the question in small letters (`spelled_render_small`).
-/

namespace SplitHorizon.DomainName

/-! ## Bytes -/

/-- A fact about bytes is checked at each of them. -/
theorem forall_byte {P : UInt8 → Prop} (h : ∀ n : Fin 256, P (UInt8.ofNat n)) (b : UInt8) :
    P b := by
  have hn := h ⟨b.toNat, b.toNat_lt⟩
  rwa [UInt8.ofNat_toNat] at hn

/-- The value of an octal digit. -/
def octalValue (c : Char) : Nat := c.toNat - 48

/-- The pieces that a text spells. An escape of digits that the end of the text cuts short spells
nothing. -/
def unescape : List Char → List Piece
  | [] => []
  | '\\' :: c :: cs =>
    if isDigit c then
      match cs with
      | d :: e :: cs =>
        .byte (UInt8.ofNat (octalValue c * 64 + octalValue d * 8 + octalValue e)) :: unescape cs
      | _ => []
    else .byte (code c) :: unescape cs
  | c :: cs => toPiece c :: unescape cs

/-- A character that begins no escape stands for itself. -/
theorem unescape_cons {c : Char} (h : c ≠ '\\') (cs : List Char) :
    unescape (c :: cs) = toPiece c :: unescape cs := by
  rw [unescape]
  intro _ _ hc
  exact absurd hc h

/-- Behind a backslash a character that is no digit stands for its byte. -/
theorem unescape_backslash {c : Char} (h : isDigit c = false) (cs : List Char) :
    unescape ('\\' :: c :: cs) = .byte (code c) :: unescape cs := by
  rw [unescape.eq_def]
  simp [h]

/-- Behind a backslash three digits stand for the byte of their value. -/
theorem unescape_digits {c : Char} (h : isDigit c = true) (d e : Char) (cs : List Char) :
    unescape ('\\' :: c :: d :: e :: cs) =
      .byte (UInt8.ofNat (octalValue c * 64 + octalValue d * 8 + octalValue e)) ::
        unescape cs := by
  rw [unescape, if_pos h]

/-- A plain byte stands for itself: its text is its character, which begins no escape. -/
theorem escape_of_isPlain {first : Bool} {b : UInt8} (h : isPlain first b = true) :
    escape first b = [charOf b] ∧ charOf b ≠ '\\' ∧ toPiece (charOf b) = .byte b := by
  refine ⟨if_pos h, ?_⟩
  revert h
  refine forall_byte (P := fun b => isPlain first b = true →
    charOf b ≠ '\\' ∧ toPiece (charOf b) = .byte b) ?_ b
  cases first <;> decide +kernel

/-- What is escaped by a backslash alone is no digit, so it is not taken for a number. -/
theorem isDigit_charOf {first : Bool} {b : UInt8} (h : isPlain first b = false)
    (hshown : (0x21 ≤ b && b ≤ 0x7e) = true) :
    isDigit (charOf b) = false ∧ code (charOf b) = b := by
  revert h hshown
  refine forall_byte (P := fun b => isPlain first b = false → (0x21 ≤ b && b ≤ 0x7e) = true →
    isDigit (charOf b) = false ∧ code (charOf b) = b) ?_ b
  cases first <;> decide +kernel

/-- Three octal digits hold a byte. -/
theorem octalValue_octalChar (b : UInt8) :
    isDigit (octalChar (b.toNat / 64)) = true ∧
      UInt8.ofNat (octalValue (octalChar (b.toNat / 64)) * 64 +
        octalValue (octalChar (b.toNat / 8 % 8)) * 8 + octalValue (octalChar (b.toNat % 8))) =
          b := by
  refine forall_byte (P := fun b => isDigit (octalChar (b.toNat / 64)) = true ∧
    UInt8.ofNat (octalValue (octalChar (b.toNat / 64)) * 64 +
      octalValue (octalChar (b.toNat / 8 % 8)) * 8 + octalValue (octalChar (b.toNat % 8))) = b) ?_ b
  decide +kernel

/-- **A byte is read off the front of its text**, whatever follows. -/
theorem unescape_escape (first : Bool) (b : UInt8) (cs : List Char) :
    unescape (escape first b ++ cs) = .byte b :: unescape cs := by
  by_cases hplain : isPlain first b = true
  · obtain ⟨htext, hslash, hpiece⟩ := escape_of_isPlain hplain
    rw [htext, List.singleton_append, unescape_cons hslash, hpiece]
  · rw [escape, if_neg hplain]
    by_cases hshown : (0x21 ≤ b && b ≤ 0x7e) = true
    · obtain ⟨hdigit, hcode⟩ := isDigit_charOf (eq_false_of_ne_true hplain) hshown
      rw [if_pos hshown, List.cons_append, List.singleton_append, unescape_backslash hdigit, hcode]
    · obtain ⟨hdigit, hvalue⟩ := octalValue_octalChar b
      rw [if_neg hshown]
      show unescape ('\\' :: octalChar (b.toNat / 64) :: octalChar (b.toNat / 8 % 8) ::
        octalChar (b.toNat % 8) :: cs) = _
      rw [unescape_digits hdigit, hvalue]

/-- Letters are made small before or after they are escaped. -/
theorem fold_escape (first : Bool) (b : UInt8) :
    Text.fold (escape first b) = escape first (smallByte b) := by
  refine forall_byte (P := fun b => Text.fold (escape first b) = escape first (smallByte b)) ?_ b
  cases first <;> decide +kernel

theorem length_escape_pos (first : Bool) (b : UInt8) : 0 < (escape first b).length := by
  unfold escape
  split
  · simp
  · split <;> simp

/-! ## Labels -/

/-- The bytes of a label, of which the first is escaped by a rule of its own. -/
theorem renderLabel_induction {motive : List UInt8 → List Char → Prop} (nil : motive [] [])
    (cons : ∀ first b bs cs, motive bs cs → motive (b :: bs) (escape first b ++ cs))
    (l : List UInt8) : motive l (renderLabel l) := by
  have hrest : ∀ bs : List UInt8, motive bs (bs.flatMap (escape false)) := by
    intro bs
    induction bs with
    | nil => exact nil
    | cons b bs ih => exact cons false b bs _ ih
  cases l with
  | nil => exact nil
  | cons b bs => exact cons true b bs _ (hrest bs)

/-- The bytes of a label are read back from its text, whatever follows. -/
theorem unescape_renderLabel (l : List UInt8) (cs : List Char) :
    unescape (renderLabel l ++ cs) = l.map .byte ++ unescape cs := by
  induction l using renderLabel_induction with
  | nil => rfl
  | cons first b bs text ih =>
    rw [List.append_assoc, unescape_escape, ih, List.map_cons, List.cons_append]

/-- A label has no fewer characters than bytes. -/
theorem length_le_length_renderLabel (l : List UInt8) : l.length ≤ (renderLabel l).length := by
  induction l using renderLabel_induction with
  | nil => exact Nat.le_refl 0
  | cons first b bs text ih =>
    have hpos := length_escape_pos first b
    rw [List.length_cons, List.length_append]
    omega

/-- The text of a label in small letters is the text of its small bytes. -/
theorem fold_renderLabel (l : List UInt8) :
    Text.fold (renderLabel l) = renderLabel (l.map smallByte) := by
  have hrest : ∀ bs : List UInt8, Text.fold (bs.flatMap (escape false)) =
      (bs.map smallByte).flatMap (escape false) := by
    intro bs
    induction bs with
    | nil => rfl
    | cons b bs ih =>
      rw [List.flatMap_cons, Text.fold, List.map_append, ← Text.fold, ← Text.fold, ih,
        fold_escape, List.map_cons, List.flatMap_cons]
  cases l with
  | nil => rfl
  | cons b bs =>
    show Text.fold (escape true b ++ bs.flatMap (escape false)) =
      escape true (smallByte b) ++ (bs.map smallByte).flatMap (escape false)
    rw [Text.fold, List.map_append, ← Text.fold, ← Text.fold, hrest, fold_escape]

/-- Up to a dot, bytes make one label. -/
theorem split_append_dot (l : List UInt8) (ps : List Piece) :
    split (l.map .byte ++ .dot :: ps) = l :: split ps := by
  induction l with
  | nil => rfl
  | cons b l ih =>
    rw [List.map_cons, List.cons_append, split, ih]

/-! ## Names -/

/-- The text of labels below the root: each has a dot behind it. -/
def renderLabels (labels : List (List UInt8)) : List Char :=
  labels.flatMap fun l => renderLabel l ++ ['.']

theorem renderLabels_cons (l : List UInt8) (ls : List (List UInt8)) :
    renderLabels (l :: ls) = renderLabel l ++ '.' :: renderLabels ls := by
  rw [renderLabels, List.flatMap_cons, List.append_assoc]
  rfl

/-- A name with labels is written as their texts, with a dot behind each. -/
theorem render_ofLabels {labels : List (List UInt8)} (h : labels ≠ []) :
    (ofLabels labels).render = renderLabels labels := by
  have hjoin : ∀ l ls, List.intercalate ['.'] ((l :: ls).map renderLabel) ++ ['.'] =
      renderLabels (l :: ls) := by
    intro l ls
    induction ls generalizing l with
    | nil => simp [renderLabels]
    | cons l' ls ih =>
      rw [renderLabels_cons, ← ih l']
      simp
  cases labels with
  | nil => exact absurd rfl h
  | cons l ls => exact hjoin l ls

/-- The text of a name that has labels is theirs. -/
theorem render_eq_renderLabels {name : DomainName} (habsolute : name.absolute = true)
    (h : name.labels ≠ []) : name.render = renderLabels name.labels := by
  have hname : name = ofLabels name.labels := by rw [ofLabels, ← habsolute]
  calc name.render = (ofLabels name.labels).render := congrArg render hname
    _ = renderLabels name.labels := render_ofLabels h

/-- Labels are spelled by their text, up to the label that is left open behind the last dot. -/
theorem split_unescape_renderLabels (labels : List (List UInt8)) :
    split (unescape (renderLabels labels)) = labels ++ [[]] := by
  induction labels with
  | nil => rfl
  | cons l ls ih =>
    rw [renderLabels_cons, unescape_renderLabel, unescape_cons (by decide)]
    show split (l.map .byte ++ .dot :: unescape (renderLabels ls)) = _
    rw [split_append_dot, ih, List.cons_append]

/-- The name that a text spells. -/
def spelled (cs : List Char) : DomainName :=
  if cs = ['.'] then root else ofLabels (split (unescape cs)).dropLast

/-- Labels that are not empty do not have the text of the root. -/
theorem renderLabels_ne_dot {labels : List (List UInt8)} (h : ∀ l ∈ labels, l ≠ []) :
    renderLabels labels ≠ ['.'] := by
  cases labels with
  | nil => exact nofun
  | cons l ls =>
    have hpos := List.length_pos_iff.mpr (h l List.mem_cons_self)
    have hlength := length_le_length_renderLabel l
    intro hdot
    have hlengths := congrArg List.length hdot
    rw [renderLabels_cons, List.length_append, List.length_cons, List.length_singleton] at hlengths
    omega

/-- **The text of a name spells the name.** -/
theorem spelled_render {name : DomainName} (habsolute : name.absolute = true)
    (h : ∀ l ∈ name.labels, l ≠ []) : spelled name.render = name := by
  obtain ⟨labels, absolute⟩ := name
  obtain rfl : absolute = true := habsolute
  by_cases hroot : labels = []
  · subst hroot
    rfl
  · show spelled (ofLabels labels).render = ofLabels labels
    rw [render_ofLabels hroot, spelled, if_neg (renderLabels_ne_dot h), split_unescape_renderLabels,
      List.dropLast_concat]

/-! ## Letter case -/

/-- The text of labels in small letters is the text of the labels in small bytes. -/
theorem fold_renderLabels (labels : List (List UInt8)) :
    Text.fold (renderLabels labels) = renderLabels (labels.map fun l => l.map smallByte) := by
  induction labels with
  | nil => rfl
  | cons l ls ih =>
    rw [renderLabels_cons, List.map_cons, renderLabels_cons, Text.fold, List.map_append,
      List.map_cons, ← Text.fold, ← Text.fold, fold_renderLabel, ih]
    rfl

/-- The letters of a name are made small before or after it is written. -/
theorem fold_render {name : DomainName} (habsolute : name.absolute = true) :
    Text.fold name.render = name.small.render := by
  obtain ⟨labels, absolute⟩ := name
  obtain rfl : absolute = true := habsolute
  by_cases hroot : labels = []
  · subst hroot
    rfl
  · have hsmall : (labels.map fun l => l.map smallByte) ≠ [] := by simpa using hroot
    show Text.fold (ofLabels labels).render =
      (ofLabels (labels.map fun l => l.map smallByte)).render
    rw [render_ofLabels hroot, render_ofLabels hsmall, fold_renderLabels]

/-- The text of a name that ends at the root ends with a dot. -/
theorem getLast?_render {name : DomainName} (habsolute : name.absolute = true) :
    name.render.getLast? = some '.' := by
  unfold render
  simp only [habsolute, if_true]
  split
  · rfl
  · exact List.getLast?_concat

/-- A question is looked up under the text of its name in small letters. -/
theorem lookupKey_question {name : DomainName} (habsolute : name.absolute = true) :
    Name.lookupKey name.question = name.small.toText := by
  have hlast : name.small.render.getLast? = some '.' := getLast?_render habsolute
  rw [question, Name.lookupKey, String.toList_ofList, Text.fold_fold, fold_render habsolute,
    if_pos hlast, toText]

/-- So the key of a question spells the name in small letters. -/
theorem spelled_render_small {name : DomainName} (habsolute : name.absolute = true)
    (h : ∀ l ∈ name.labels, l ≠ []) : spelled name.small.render = name.small := by
  have hsmall : name.small.absolute = true := habsolute
  apply spelled_render hsmall
  intro l hl
  obtain ⟨l', hl', rfl⟩ := List.mem_map.mp hl
  simpa using h l' hl'

end SplitHorizon.DomainName
