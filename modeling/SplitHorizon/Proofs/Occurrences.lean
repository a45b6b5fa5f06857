/-!
# First occurrences

A list without repetitions keeps the first occurrence of every item. What is read off the items may
be read off the first occurrences alone, if of that too the first occurrences are kept
(`eraseDups_filterMap_eraseDups`).
-/

namespace SplitHorizon

/-- Items that are mapped to nothing may be left out before. -/
theorem filterMap_filter_of_none {α β : Type} {f : α → Option β} {p : α → Bool} {l : List α}
    (h : ∀ a ∈ l, p a = false → f a = none) : (l.filter p).filterMap f = l.filterMap f := by
  induction l with
  | nil => rfl
  | cons a l ih =>
    have ih := ih fun b hb => h b (List.mem_cons_of_mem _ hb)
    by_cases ha : p a = true
    · rw [List.filter_cons_of_pos ha, List.filterMap_cons, List.filterMap_cons, ih]
    · have hnone := h a List.mem_cons_self (eq_false_of_ne_true ha)
      rw [List.filter_cons_of_neg ha, List.filterMap_cons_none hnone, ih]

section

variable {α β : Type} [BEq α] [LawfulBEq α] [BEq β] [LawfulBEq β]

omit [LawfulBEq α] in
/-- Induction along the first occurrences of a list: with an item all its later occurrences go. -/
theorem eraseDups_induction {motive : List α → Prop} (nil : motive [])
    (cons : ∀ a l, motive (l.filter fun b => !b == a) → motive (a :: l)) (l : List α) :
    motive l := by
  generalize hn : l.length = n
  induction n using Nat.strongRecOn generalizing l with
  | ind n ih =>
    cases l with
    | nil => exact nil
    | cons a l =>
      refine cons a l (ih _ ?_ _ rfl)
      have hle := List.length_filter_le (fun b => !b == a) l
      rw [← hn, List.length_cons]
      omega

/-- Items may be left out before or behind keeping the first occurrences. -/
theorem eraseDups_filter (p : α → Bool) (l : List α) :
    (l.filter p).eraseDups = l.eraseDups.filter p := by
  induction l using eraseDups_induction with
  | nil => rfl
  | cons a l ih =>
    have hcomm : (l.filter p).filter (fun b => !b == a) = (l.filter fun b => !b == a).filter p := by
      rw [List.filter_filter, List.filter_filter]
      exact List.filter_congr fun b _ => Bool.and_comm _ _
    rw [List.eraseDups_cons]
    by_cases ha : p a = true
    · rw [List.filter_cons_of_pos ha, List.filter_cons_of_pos ha, List.eraseDups_cons, ← ih, hcomm]
    · rw [List.filter_cons_of_neg ha, List.filter_cons_of_neg ha, ← ih, ← hcomm]
      refine congrArg List.eraseDups (List.filter_eq_self.mpr fun b hb => ?_).symm
      rw [Bool.not_eq_true', beq_eq_false_iff_ne]
      rintro rfl
      exact ha (List.mem_filter.mp hb).2

omit [LawfulBEq α] in
/-- The first of the items that have not been seen is kept, and has been seen from then on. -/
theorem eraseDups_filter_not_contains_cons {seen : List α} {a : α} (ha : ¬ seen.contains a = true)
    (l : List α) : ((a :: l).filter fun b => !seen.contains b).eraseDups =
      a :: (l.filter fun b => !(a :: seen).contains b).eraseDups := by
  have hfresh : (!seen.contains a) = true := by
    rw [eq_false_of_ne_true ha]
    rfl
  have hrest : (l.filter fun b => !seen.contains b).filter (fun b => !b == a) =
      l.filter fun b => !(a :: seen).contains b := by
    rw [List.filter_filter]
    refine List.filter_congr fun b _ => ?_
    rw [List.contains_cons, Bool.not_or]
  rw [List.filter_cons_of_pos (p := fun b => !seen.contains b) hfresh, List.eraseDups_cons, hrest]

omit [LawfulBEq α] in
/-- An item that has been seen is left out. -/
theorem eraseDups_filter_not_contains_cons_of_mem {seen : List α} {a : α}
    (ha : seen.contains a = true) (l : List α) :
    ((a :: l).filter fun b => !seen.contains b).eraseDups =
      (l.filter fun b => !seen.contains b).eraseDups := by
  rw [List.filter_cons_of_neg (by rw [ha]; exact Bool.false_ne_true)]

/-- No item is met twice among the first occurrences. -/
theorem nodup_eraseDups (l : List α) : l.eraseDups.Nodup := by
  induction l using eraseDups_induction with
  | nil => exact List.nodup_nil
  | cons a l ih =>
    rw [List.eraseDups_cons, List.nodup_cons]
    refine ⟨fun ha => ?_, ih⟩
    have hne := (List.mem_filter.mp (List.mem_eraseDups.mp ha)).2
    rw [BEq.rfl] at hne
    cases hne

/-- Items that are left out do not change which of the others comes first. -/
theorem idxOf_filter_lt_iff {p : α → Bool} {a b : α} (ha : p a = true) (hb : p b = true)
    (l : List α) : (l.filter p).idxOf a < (l.filter p).idxOf b ↔ l.idxOf a < l.idxOf b := by
  induction l with
  | nil => rfl
  | cons c l ih =>
    by_cases hc : p c = true
    · rw [List.filter_cons_of_pos hc, List.idxOf_cons, List.idxOf_cons, List.idxOf_cons,
        List.idxOf_cons]
      cases c == a <;> cases c == b <;> simp [ih]
    · have hca : (c == a) = false := beq_eq_false_iff_ne.mpr fun h => hc (h ▸ ha)
      have hcb : (c == b) = false := beq_eq_false_iff_ne.mpr fun h => hc (h ▸ hb)
      rw [List.filter_cons_of_neg hc, List.idxOf_cons, List.idxOf_cons, hca, hcb]
      simp [ih]

/-- **First occurrences stand in their order.** -/
theorem idxOf_eraseDups_lt_iff (a b : α) (l : List α) :
    l.eraseDups.idxOf a < l.eraseDups.idxOf b ↔ l.idxOf a < l.idxOf b := by
  induction l using eraseDups_induction with
  | nil => rfl
  | cons c l ih =>
    rw [List.eraseDups_cons, List.idxOf_cons, List.idxOf_cons, List.idxOf_cons, List.idxOf_cons]
    cases hca : c == a with
    | true => cases c == b <;> simp
    | false =>
      cases hcb : c == b with
      | true => simp
      | false =>
        have ha : (!a == c) = true := by
          rw [BEq.comm, hca]
          rfl
        have hb : (!b == c) = true := by
          rw [BEq.comm, hcb]
          rfl
        have hrest := ih.trans (idxOf_filter_lt_iff (p := fun d => !d == c) ha hb l)
        simp [hrest]

/-- **First occurrences of images are those of the images of first occurrences.** -/
theorem eraseDups_filterMap_eraseDups (f : α → Option β) (l : List α) :
    (l.eraseDups.filterMap f).eraseDups = (l.filterMap f).eraseDups := by
  induction l using eraseDups_induction with
  | nil => rfl
  | cons a l ih =>
    rw [List.eraseDups_cons]
    cases ha : f a with
    | none =>
      rw [List.filterMap_cons_none ha, List.filterMap_cons_none ha, ih, filterMap_filter_of_none]
      intro b _ hb
      rw [Bool.not_eq_false', beq_iff_eq] at hb
      rw [hb, ha]
    | some c =>
      rw [List.filterMap_cons_some ha, List.filterMap_cons_some ha, List.eraseDups_cons,
        List.eraseDups_cons, eraseDups_filter, ih, ← eraseDups_filter]
      -- later occurrences of `a` have the image `c`, which is left out anyway
      rw [List.filter_filterMap, List.filter_filterMap, filterMap_filter_of_none]
      intro b _ hb
      rw [Bool.not_eq_false', beq_iff_eq] at hb
      rw [hb, ha]
      simp only [Option.filter_some, BEq.rfl, Bool.not_true, Bool.false_eq_true, if_false]

end

/-- Of items that tell something the last one counts. If there is one at most, it is all of them. -/
theorem getLast?_filterMap_eq_flatMap {α β γ : Type} {f : α → Option β} {p : α → Bool}
    (told : β → List γ) {listed : α → List γ} {l : List α} {b : β} (hb : told b = [])
    (hone : (l.filter p).length ≤ 1) (hnone : ∀ a ∈ l, p a = false → f a = none)
    (hsome : ∀ a ∈ l, p a = true → ∃ b, f a = some b ∧ told b = listed a) :
    told ((l.filterMap f).getLast?.getD b) = (l.filter p).flatMap listed := by
  rw [← filterMap_filter_of_none hnone]
  match hl : l.filter p with
  | [] => exact hb
  | [a] =>
    have ha : a ∈ l.filter p := hl ▸ List.mem_singleton_self a
    obtain ⟨c, hc, htold⟩ := hsome a (List.mem_filter.mp ha).1 (List.mem_filter.mp ha).2
    rw [List.filterMap_cons_some hc, List.flatMap_singleton]
    exact htold
  | a :: a' :: rest =>
    rw [hl, List.length_cons, List.length_cons] at hone
    omega

end SplitHorizon
