import SplitHorizon.Name.Presentation
import SplitHorizon.Proofs.Name.Canonical
/-!
# Which canonical names a message takes

A name of the document becomes the name of a message by being read as the text of one, and that is
stricter than what made it canonical: its labels have to be made of the characters of host names. A
canonical name is read, and has no escape in it, exactly if it is a host name (`isHostName_iff`).
The other limits of the two readers agree: a canonical name is never too long for a message, and
neither is a label of it.
-/

namespace SplitHorizon

namespace DomainName

/-! ## Host names -/

/-- A character of a host name. A hyphen does not begin a label, and a star does nothing else. -/
def isHostChar (first : Bool) (c : Char) : Bool :=
  c.isAlphanum || c == '_' || (c == '-' && !first) || (c == '*' && first)

def isHostLabel : List Char → Bool
  | [] => false
  | c :: cs => isHostChar true c && cs.all (isHostChar false)

/-- Whether a name, with or without the dot at its end, is the root or has the labels of a host
name. -/
def isHostName (name : String) : Bool :=
  name == "." || (Text.pieces (· == '.') (Name.dropDot name.toList)).all isHostLabel

/-- The characters of host names are ASCII. -/
theorem toNat_lt_of_isHostChar {first : Bool} {c : Char} (h : isHostChar first c = true) :
    c.toNat < 128 := by
  rw [isHostChar] at h
  delta Char.isAlphanum Char.isAlpha Char.isUpper Char.isLower Char.isDigit at h
  simp only [Bool.or_eq_true, Bool.and_eq_true, decide_eq_true_eq, beq_iff_eq] at h
  have hle : ∀ d : Char, d.toNat < 128 → c.val ≤ d.val → c.toNat < 128 :=
    fun d hd hcd => Nat.lt_of_le_of_lt (UInt32.le_iff_toNat_le.mp hcd) hd
  rcases h with ((((⟨_, h⟩ | ⟨_, h⟩) | ⟨_, h⟩) | rfl) | ⟨rfl, _⟩) | ⟨rfl, _⟩
  · exact hle 'Z' (by decide) h
  · exact hle 'z' (by decide) h
  · exact hle '9' (by decide) h
  all_goals decide

/-- A fact about ASCII is checked at its characters. -/
theorem forall_ascii {P : Char → Prop} (h : ∀ n : Fin 128, P (Char.ofNat n)) {c : Char}
    (hc : c.toNat < 128) : P c := by
  have hn := h ⟨c.toNat, hc⟩
  rwa [Char.ofNat_toNat] at hn

/-- A character of host names can be shown, and is neither a dot nor a backslash. -/
theorem isShown_of_isHostChar {first : Bool} {c : Char} (h : isHostChar first c = true) :
    isShown c = true ∧ c ≠ '.' ∧ c ≠ '\\' :=
  forall_ascii (P := fun c => isHostChar first c = true → isShown c = true ∧ c ≠ '.' ∧ c ≠ '\\')
    (by cases first <;> decide) (toNat_lt_of_isHostChar h) h

/-! ## Texts without escapes -/

/-- The byte of a character of ASCII. -/
def code (c : Char) : UInt8 := UInt8.ofNat c.toNat

/-- What a character that begins no escape stands for. -/
def toPiece (c : Char) : Piece := if c = '.' then .dot else .byte (code c)

/-- A character that begins no escape is a piece of its own, if it can be shown. -/
theorem piecesOf_cons {c : Char} (h : c ≠ '\\') (cs : List Char) :
    piecesOf (c :: cs) = if isShown c then (piecesOf cs).map (toPiece c :: ·) else none := by
  by_cases hdot : c = '.'
  · subst hdot
    rfl
  · rw [piecesOf, toPiece, if_neg hdot]
    · cases piecesOf cs <;> rfl
    · exact hdot
    · exact fun hc _ => h hc
    · exact fun _ _ hc _ => h hc

/-- A text without escapes has pieces exactly if all its characters can be shown, and then one for
each. -/
theorem piecesOf_eq_some_iff {cs : List Char} (h : '\\' ∉ cs) {ps : List Piece} :
    piecesOf cs = some ps ↔ (∀ c ∈ cs, isShown c = true) ∧ ps = cs.map toPiece := by
  induction cs generalizing ps with
  | nil =>
    rw [piecesOf, Option.some.injEq]
    exact ⟨fun h => ⟨nofun, h.symm⟩, fun h => h.2.symm⟩
  | cons c cs ih =>
    obtain ⟨hc, hcs⟩ := List.ne_and_not_mem_of_not_mem_cons h
    rw [piecesOf_cons (Ne.symm hc), List.forall_mem_cons]
    split
    · rename_i hshown
      simp only [Option.map_eq_some_iff, ih hcs]
      constructor
      · rintro ⟨_, ⟨hall, rfl⟩, rfl⟩
        exact ⟨⟨hshown, hall⟩, rfl⟩
      · rintro ⟨⟨_, hall⟩, rfl⟩
        exact ⟨_, ⟨hall, rfl⟩, rfl⟩
    · rename_i hshown
      exact ⟨nofun, fun hall => absurd hall.1.1 hshown⟩

/-- The labels between dots are the pieces of the text. -/
theorem split_map_toPiece (cs : List Char) :
    split (cs.map toPiece) = (Text.pieces (· == '.') cs).map (List.map code) := by
  induction cs using Text.pieces_induction (· == '.') with
  | nil => rfl
  | separator c cs hc hcut ih =>
    rw [hcut, List.map_cons, List.map_cons, toPiece, if_pos (beq_iff_eq.mp hc), split, ih]
    rfl
  | character c cs w ws hc hcs hcut ih =>
    rw [hcs, List.map_cons] at ih
    rw [hcut, List.map_cons, List.map_cons, toPiece, if_neg (beq_eq_false_iff_ne.mp hc), split, ih]
    rfl

theorem span_cons (l : List UInt8) (ls : List (List UInt8)) :
    span (l :: ls) = l.length + 1 + span ls := rfl

/-- Each label takes a byte for its length, in the place of the dot behind it. -/
theorem span_pieces (cs : List Char) :
    span ((Text.pieces (· == '.') cs).map (List.map code)) = cs.length + 1 := by
  induction cs using Text.pieces_induction (· == '.') with
  | nil => rfl
  | separator c cs hc hcut ih =>
    rw [hcut, List.map_cons, span_cons, ih, List.length_map, List.length_nil, List.length_cons]
    omega
  | character c cs w ws hc hcs hcut ih =>
    rw [hcs, List.map_cons, span_cons, List.length_map] at ih
    rw [hcut, List.map_cons, span_cons, List.length_map, List.length_cons, List.length_cons]
    omega

/-- What is read of a text without escapes that ends at the root. -/
theorem read_append_dot {bare : List Char} (hne : bare ≠ []) (h : '\\' ∉ bare)
    (hshown : ∀ c ∈ bare, isShown c = true) :
    read (bare ++ ['.']) =
      let name : DomainName := ⟨(Text.pieces (· == '.') bare).map (List.map code), true⟩
      if name.labels.all isReadable && name.size ≤ maxSize then some name else none := by
  have hpieces : piecesOf (bare ++ ['.']) = some ((bare ++ ['.']).map toPiece) := by
    refine (piecesOf_eq_some_iff ?_).mpr ⟨?_, rfl⟩
    · simpa using h
    · intro c hc
      rcases List.mem_append.mp hc with hc | hc
      · exact hshown c hc
      · obtain rfl := List.mem_singleton.mp hc
        rfl
  have hlabels : split ((bare ++ ['.']).map toPiece) =
      (Text.pieces (· == '.') bare).map (List.map code) ++ [[]] := by
    rw [split_map_toPiece, Text.pieces_concat rfl, List.map_append]
    rfl
  have hroot : bare ++ ['.'] ≠ ['.'] := by
    simpa using hne
  have hsome : (bare ++ ['.']).isEmpty = false := by
    simp
  unfold read
  rw [if_neg hroot, hpieces]
  simp only [Option.bind_eq_bind, Option.bind_some, hlabels, hsome, List.getLastD_concat,
    List.dropLast_concat, List.isEmpty_nil, if_true, Bool.not_false, Bool.and_self]

/-- A byte is allowed in a label exactly if it is that of a character of host names. -/
theorem isAllowed_code {first : Bool} {c : Char} (hshown : isShown c = true) (hdot : c ≠ '.') :
    isAllowed first (code c) = isHostChar first c := by
  have hascii : c.toNat < 128 := by
    simp only [isShown, Bool.and_eq_true, decide_eq_true_eq] at hshown
    omega
  exact forall_ascii (P := fun c => c ≠ '.' → isAllowed first (code c) = isHostChar first c)
    (by cases first <;> decide) hascii hdot

/-- A label of the right length is read if it is made of the characters of host names. -/
theorem isReadable_map_code {l : List Char} (hshown : ∀ c ∈ l, isShown c = true) (hdot : '.' ∉ l)
    (hlength : l.length ≤ 63) : isReadable (l.map code) = isHostLabel l := by
  have hallowed : ∀ {first : Bool}, ∀ c ∈ l, isAllowed first (code c) = isHostChar first c :=
    fun c hc => isAllowed_code (hshown c hc) fun h => hdot (h ▸ hc)
  cases l with
  | nil => rfl
  | cons c cs =>
    have hfits : fits ((c :: cs).map code) = true := by
      simpa [fits, maxLabel] using hlength
    have hrest : (cs.map code).all (isAllowed false) = cs.all (isHostChar false) := by
      rw [Bool.eq_iff_iff, List.all_map, List.all_eq_true, List.all_eq_true]
      refine forall₂_congr fun d hd => ?_
      rw [Function.comp_apply, hallowed d (List.mem_cons_of_mem c hd)]
    show (fits ((c :: cs).map code) && isAllowed true (code c) &&
      (cs.map code).all (isAllowed false)) = _
    rw [hfits, hallowed c List.mem_cons_self, hrest, Bool.true_and]
    rfl

/-! ## Host names are what is read -/

/-- A label of a host name is made of the characters of host names. -/
theorem exists_isHostChar_of_mem {l : List Char} (h : isHostLabel l = true) {c : Char}
    (hc : c ∈ l) : ∃ first, isHostChar first c = true := by
  cases l with
  | nil => cases h
  | cons d l =>
    obtain ⟨hd, hl⟩ := Bool.and_eq_true_iff.mp h
    rcases List.mem_cons.mp hc with rfl | hc
    · exact ⟨true, hd⟩
    · exact ⟨false, List.all_eq_true.mp hl c hc⟩

/-- A host name has nothing in it but characters that can be shown, and no escape. -/
theorem isShown_of_isHostLabel {bare : List Char}
    (h : ∀ l ∈ Text.pieces (· == '.') bare, isHostLabel l = true) {c : Char} (hc : c ∈ bare) :
    isShown c = true ∧ c ≠ '\\' := by
  cases hdot : c == '.' with
  | true =>
    obtain rfl := beq_iff_eq.mp hdot
    exact ⟨rfl, by decide⟩
  | false =>
    obtain ⟨l, hl, hcl⟩ := (Text.exists_mem_pieces_iff (p := (· == '.'))).mpr ⟨hc, hdot⟩
    obtain ⟨first, hchar⟩ := exists_isHostChar_of_mem (h l hl) hcl
    exact ⟨(isShown_of_isHostChar hchar).1, (isShown_of_isHostChar hchar).2.2⟩

/-- What is read as a name has nothing in it but characters that can be shown. -/
theorem isShown_of_read {bare : List Char} (hne : bare ≠ []) (h : '\\' ∉ bare) {n : DomainName}
    (hread : read (bare ++ ['.']) = some n) : ∀ c ∈ bare, isShown c = true := by
  have hroot : bare ++ ['.'] ≠ ['.'] := by
    simpa using hne
  unfold read at hread
  rw [if_neg hroot] at hread
  obtain ⟨ps, hpieces, _⟩ := Option.bind_eq_some_iff.mp hread
  have hescape : '\\' ∉ bare ++ ['.'] := by
    simpa using h
  intro c hc
  exact ((piecesOf_eq_some_iff hescape).mp hpieces).1 c (List.mem_append_left _ hc)

/-- A canonical name without escapes is read exactly if its labels are those of a host name. -/
theorem exists_read_iff {bare : List Char} (hcanonical : Name.IsCanonical bare)
    (h : '\\' ∉ bare) :
    (∃ n, read (bare ++ ['.']) = some n) ↔
      ∀ l ∈ Text.pieces (· == '.') bare, isHostLabel l = true := by
  have hlabel : (∀ c ∈ bare, isShown c = true) → ∀ l ∈ Text.pieces (· == '.') bare,
      isReadable (l.map code) = isHostLabel l := by
    intro hshown l hl
    have hin : ∀ c ∈ l, c ∈ bare ∧ (c == '.') = false :=
      fun c hc => (Text.exists_mem_pieces_iff (p := (· == '.'))).mp ⟨l, hl, hc⟩
    refine isReadable_map_code (fun c hc => hshown c (hin c hc).1) (fun hdot => ?_) ?_
    · exact Bool.false_ne_true (hin '.' hdot).2.symm
    · exact Nat.le_trans (Text.length_le_width l) (hcanonical.label l hl).2
  constructor
  · rintro ⟨n, hn⟩
    have hshown : ∀ c ∈ bare, isShown c = true := isShown_of_read hcanonical.ne_nil h hn
    rw [read_append_dot hcanonical.ne_nil h hshown] at hn
    dsimp only at hn
    split at hn
    · rename_i hall
      intro l hl
      rw [← hlabel hshown l hl]
      exact List.all_eq_true.mp (Bool.and_eq_true_iff.mp hall).1 _ (List.mem_map_of_mem hl)
    · cases hn
  · intro hhost
    have hshown : ∀ c ∈ bare, isShown c = true := fun c hc => (isShown_of_isHostLabel hhost hc).1
    rw [read_append_dot hcanonical.ne_nil h hshown]
    refine ⟨_, if_pos (Bool.and_eq_true_iff.mpr ⟨List.all_eq_true.mpr fun l hl => ?_, ?_⟩)⟩
    · obtain ⟨label, hmem, rfl⟩ := List.mem_map.mp hl
      rw [hlabel hshown label hmem]
      exact hhost label hmem
    · have hlength : bare.length ≤ 253 :=
        Nat.le_trans (Text.length_le_width bare) hcanonical.width_le
      refine decide_eq_true ?_
      rw [size, span_pieces, maxSize]
      omega

/-- A name other than the root is a host name exactly if its labels are those of one. -/
theorem isHostName_append_dot {bare : List Char} (hne : bare ≠ []) :
    isHostName (String.ofList (bare ++ ['.'])) = true ↔
      ∀ l ∈ Text.pieces (· == '.') bare, isHostLabel l = true := by
  have hroot : (String.ofList (bare ++ ['.']) == ".") = false := by
    refine beq_eq_false_iff_ne.mpr fun h => hne ?_
    have hchars := congrArg String.toList h
    rw [String.toList_ofList] at hchars
    simpa using hchars
  rw [isHostName, hroot, Bool.false_or, String.toList_ofList, Name.dropDot_append_dot,
    List.all_eq_true]

/-- **A canonical name is a host name exactly if it is read as the name of a message** and has no
escape in it. -/
theorem isHostName_iff {written name : String} (h : Name.canonical written = .ok name) :
    isHostName name = true ↔ '\\' ∉ name.toList ∧ ∃ n, ofText? name = some n := by
  rcases Name.canonical_spec h with rfl | ⟨bare, rfl, hcanonical⟩
  · exact ⟨fun _ => ⟨by decide, root, rfl⟩, fun _ => rfl⟩
  · rw [isHostName_append_dot hcanonical.ne_nil, ofText?, String.toList_ofList]
    constructor
    · intro hhost
      have hbare : '\\' ∉ bare := fun hc => (isShown_of_isHostLabel hhost hc).2 rfl
      exact ⟨by simpa using hbare, (exists_read_iff hcanonical hbare).mpr hhost⟩
    · intro hread
      have hbare : '\\' ∉ bare := by
        simpa using hread.1
      exact (exists_read_iff hcanonical hbare).mp hread.2

end DomainName

end SplitHorizon
