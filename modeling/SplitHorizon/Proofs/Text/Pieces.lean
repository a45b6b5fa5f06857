import SplitHorizon.Text.Blank
/-!
# The pieces of a text

A text is cut at the characters that satisfy a condition. The pieces hold the other characters and
no such one, and cutting commutes with any change of characters that respects the condition, such as
a change of letter case.

What is proved of pieces is proved along the text: a character that separates begins an empty piece,
and any other one is put in front of the first piece (`pieces_induction`).
-/

namespace SplitHorizon.Text

variable {p : Char → Bool}

/-- Every text has a piece. -/
theorem exists_pieces_eq_cons (p : Char → Bool) (cs : List Char) :
    ∃ w ws, pieces p cs = w :: ws := by
  cases cs with
  | nil => exact ⟨[], [], rfl⟩
  | cons c cs =>
    unfold pieces
    split
    · exact ⟨_, _, rfl⟩
    · split <;> exact ⟨_, _, rfl⟩

/-- A separator in front of a text has an empty piece before it. -/
theorem pieces_cons_of_pos {c : Char} (h : p c = true) (cs : List Char) :
    pieces p (c :: cs) = [] :: pieces p cs :=
  if_pos h

/-- Any other character in front of a text belongs to the first piece. -/
theorem pieces_cons_of_neg {c : Char} (h : p c = false) {cs w : List Char} {ws : List (List Char)}
    (hcs : pieces p cs = w :: ws) : pieces p (c :: cs) = (c :: w) :: ws := by
  rw [pieces, if_neg (by rw [h]; exact Bool.false_ne_true), hcs]

/-- A text is empty, or begins with a character that separates, or with one of its first piece. -/
@[elab_as_elim]
theorem pieces_induction (p : Char → Bool) {motive : List Char → Prop} (nil : motive [])
    (separator : ∀ c cs, p c = true → pieces p (c :: cs) = [] :: pieces p cs → motive cs →
      motive (c :: cs))
    (character : ∀ c cs w ws, p c = false → pieces p cs = w :: ws →
      pieces p (c :: cs) = (c :: w) :: ws → motive cs → motive (c :: cs))
    (cs : List Char) : motive cs := by
  induction cs with
  | nil => exact nil
  | cons c cs ih =>
    cases hc : p c with
    | true => exact separator c cs hc (pieces_cons_of_pos hc cs) ih
    | false =>
      obtain ⟨w, ws, hcs⟩ := exists_pieces_eq_cons p cs
      exact character c cs w ws hc hcs (pieces_cons_of_neg hc hcs) ih

/-- A separator at the end is followed by an empty piece. -/
theorem pieces_concat {c : Char} (h : p c = true) (cs : List Char) :
    pieces p (cs ++ [c]) = pieces p cs ++ [[]] := by
  induction cs using pieces_induction p with
  | nil => exact pieces_cons_of_pos h []
  | separator d cs hd hcut ih =>
    rw [List.cons_append, pieces_cons_of_pos hd, hcut, ih, List.cons_append]
  | character d cs w ws hd hcs hcut ih =>
    rw [hcs, List.cons_append] at ih
    rw [List.cons_append, pieces_cons_of_neg hd ih, hcut, List.cons_append]

/-- Characters may be changed before or after a text is cut. -/
theorem pieces_map {f : Char → Char} (hf : ∀ c, p (f c) = p c) (cs : List Char) :
    pieces p (cs.map f) = (pieces p cs).map (List.map f) := by
  induction cs using pieces_induction p with
  | nil => rfl
  | separator c cs hc hcut ih =>
    rw [List.map_cons, pieces_cons_of_pos ((hf c).trans hc), hcut, ih, List.map_cons, List.map_nil]
  | character c cs w ws hc hcs hcut ih =>
    rw [hcs, List.map_cons] at ih
    rw [List.map_cons, pieces_cons_of_neg ((hf c).trans hc) ih, hcut, List.map_cons, List.map_cons]

/-- The characters of the pieces are those that do not separate. -/
theorem exists_mem_pieces_iff {cs : List Char} {c : Char} :
    (∃ w ∈ pieces p cs, c ∈ w) ↔ c ∈ cs ∧ p c = false := by
  induction cs using pieces_induction p with
  | nil => simp only [pieces, List.mem_singleton, exists_eq_left, List.not_mem_nil, false_and]
  | separator d cs hd hcut ih =>
    rw [hcut, List.mem_cons]
    simp only [List.mem_cons, exists_eq_or_imp, List.not_mem_nil, false_or, ih]
    refine and_congr_left fun hc => ⟨.inr, fun h => h.resolve_left ?_⟩
    rintro rfl
    rw [hd] at hc
    cases hc
  | character d cs w ws hd hcs hcut ih =>
    rw [hcs] at ih
    rw [hcut]
    simp only [List.mem_cons, exists_eq_or_imp] at ih ⊢
    rw [or_assoc, ih]
    constructor
    · rintro (rfl | ⟨h, hc⟩)
      · exact ⟨.inl rfl, hd⟩
      · exact ⟨.inr h, hc⟩
    · rintro ⟨rfl | h, hc⟩
      · exact .inl rfl
      · exact .inr ⟨h, hc⟩

/-- What stands before a first separator is the first piece. -/
theorem pieces_append_cons {w : List Char} (hw : ∀ c ∈ w, p c = false) {d : Char}
    (hd : p d = true) (cs : List Char) : pieces p (w ++ d :: cs) = w :: pieces p cs := by
  induction w with
  | nil => exact pieces_cons_of_pos hd cs
  | cons c w ih =>
    rw [List.cons_append]
    apply pieces_cons_of_neg (hw c List.mem_cons_self)
    exact ih fun e he => hw e (List.mem_cons_of_mem c he)

/-- Texts with a separator behind each are cut into these texts, and nothing behind the last. -/
theorem pieces_flatMap {d : Char} {ws : List (List Char)} (h : ∀ w ∈ ws, d ∉ w) :
    pieces (· == d) (ws.flatMap (· ++ [d])) = ws ++ [[]] := by
  induction ws with
  | nil => rfl
  | cons w ws ih =>
    obtain ⟨hw, hws⟩ := List.forall_mem_cons.mp h
    have hfirst : ∀ c ∈ w, (c == d) = false := by
      intro c hc
      refine beq_eq_false_iff_ne.mpr ?_
      rintro rfl
      exact hw hc
    rw [List.flatMap_cons, List.append_assoc, List.singleton_append,
      pieces_append_cons hfirst (beq_self_eq_true d), ih hws, List.cons_append]

/-- A text is its pieces with the separator behind each, less the last one. -/
theorem flatMap_pieces (d : Char) (cs : List Char) :
    (pieces (· == d) cs).flatMap (· ++ [d]) = cs ++ [d] := by
  induction cs using pieces_induction (· == d) with
  | nil => rfl
  | separator c cs hc hcut ih =>
    obtain rfl := beq_iff_eq.mp hc
    rw [hcut, List.flatMap_cons, ih]
    rfl
  | character c cs w ws hc hcs hcut ih =>
    rw [hcs, List.flatMap_cons] at ih
    rw [hcut, List.flatMap_cons, List.cons_append, List.cons_append, ih, List.cons_append]

end SplitHorizon.Text
