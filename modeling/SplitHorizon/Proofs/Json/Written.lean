import Mathlib.Data.List.Induction
import Mathlib.Data.List.Nodup
import Mathlib.Data.String.Basic
import SplitHorizon.Answers.Document
/-!
# Objects as they are written

A text may repeat a name in an object. The value that is read of it keeps the last member of each
name and puts the members in the order of their names, in every object down to the innermost ones:
that is what `tidy` does to a value. `readWritten` reads a text by the same grammar and leaves all
members where they are written. `readValue_eq` says that the two readings agree up to `tidy`, so
that `mem_ofMembers_iff` tells which of the members that are written are read at all.
-/

namespace SplitHorizon

namespace Json

/-! ## The members that stay -/

/-- A member that is written, and no later one of its name. -/
def Stays (m : String × Json) (ms : List (String × Json)) : Prop :=
  ∃ before after, ms = before ++ m :: after ∧ m.1 ∉ after.map Prod.fst

/-- Members in the order of their names, each name once. -/
def Ascending (ms : List (String × Json)) : Prop := ms.Pairwise fun a b => a.1 < b.1

theorem Stays.mem {m : String × Json} {ms : List (String × Json)} (h : Stays m ms) : m ∈ ms := by
  obtain ⟨before, after, rfl, _⟩ := h
  exact List.mem_append_right before List.mem_cons_self

/-- The last member stays, and of those before it the ones of other names do. -/
theorem stays_concat_iff {m m' : String × Json} {ms : List (String × Json)} :
    Stays m (ms ++ [m']) ↔ m = m' ∨ m.1 ≠ m'.1 ∧ Stays m ms := by
  constructor
  · intro h
    obtain ⟨before, after, heq, hafter⟩ := h
    rcases List.eq_nil_or_concat after with rfl | ⟨after, m'', rfl⟩
    · exact .inl (List.append_singleton_inj.mp heq).2.symm
    · rw [List.concat_eq_append, ← List.cons_append, ← List.append_assoc] at heq
      obtain ⟨rfl, rfl⟩ := List.append_singleton_inj.mp heq
      rw [List.concat_eq_append, List.map_append, List.map_singleton, List.mem_append, not_or,
        List.mem_singleton] at hafter
      exact .inr ⟨hafter.2, before, after, rfl, hafter.1⟩
  · rintro (rfl | ⟨hne, before, after, rfl, hafter⟩)
    · exact ⟨ms, [], rfl, List.not_mem_nil⟩
    · refine ⟨before, after ++ [m'], by rw [List.append_assoc, List.cons_append], ?_⟩
      rw [List.map_append, List.map_singleton, List.mem_append, not_or, List.mem_singleton]
      exact ⟨hafter, hne⟩

/-- What is done to the values leaves the same members in place. -/
theorem stays_map_iff {f : Json → Json} {m : String × Json} {ms : List (String × Json)} :
    Stays m (ms.map fun m => (m.1, f m.2)) ↔ ∃ v, Stays (m.1, v) ms ∧ m.2 = f v := by
  induction ms using List.reverseRecOn with
  | nil =>
    constructor
    · intro h
      exact absurd h.mem List.not_mem_nil
    · intro hparts
      obtain ⟨v, h, _⟩ := hparts
      exact absurd h.mem List.not_mem_nil
  | append_singleton ms m' ih =>
    rw [List.map_append, List.map_singleton, stays_concat_iff, ih]
    simp only [stays_concat_iff]
    constructor
    · rintro (rfl | ⟨hne, v, hv, heq⟩)
      · exact ⟨m'.2, .inl rfl, rfl⟩
      · exact ⟨v, .inr ⟨hne, hv⟩, heq⟩
    · rintro ⟨v, rfl | ⟨hne, hv⟩, heq⟩
      · exact .inl (Prod.ext rfl heq)
      · exact .inr ⟨hne, v, hv, heq⟩

/-- A member that is put in takes the place of one of its name and leaves the others. -/
theorem mem_insertMember_iff {ms : List (String × Json)} (hms : Ascending ms) {name : String}
    {value : Json} {m : String × Json} :
    m ∈ insertMember name value ms ↔ m = (name, value) ∨ m.1 ≠ name ∧ m ∈ ms := by
  induction ms with
  | nil => simp only [insertMember, List.mem_singleton, List.not_mem_nil, and_false, or_false]
  | cons m' ms ih =>
    obtain ⟨hm', hms⟩ := List.pairwise_cons.mp hms
    unfold insertMember
    split
    · rename_i hlt
      have hne : m ∈ m' :: ms → m.1 ≠ name := by
        intro hm
        rcases List.mem_cons.mp hm with rfl | hm
        · exact ne_of_gt hlt
        · exact ne_of_gt (lt_trans hlt (hm' m hm))
      rw [List.mem_cons, and_iff_right_of_imp hne]
    · split
      · rename_i heq
        have hne : m ∈ ms → m.1 ≠ name := fun hm => heq ▸ ne_of_gt (hm' m hm)
        rw [List.mem_cons, List.mem_cons]
        refine or_congr_right ⟨fun hm => ⟨hne hm, .inr hm⟩, ?_⟩
        rintro ⟨hname, rfl | hm⟩
        · exact absurd heq.symm hname
        · exact hm
      · rename_i hne
        rw [List.mem_cons, List.mem_cons, ih hms]
        constructor
        · rintro (rfl | rfl | ⟨hname, hm⟩)
          · exact .inr ⟨fun h => hne h.symm, .inl rfl⟩
          · exact .inl rfl
          · exact .inr ⟨hname, .inr hm⟩
        · rintro (rfl | ⟨hname, rfl | hm⟩)
          · exact .inr (.inl rfl)
          · exact .inl rfl
          · exact .inr (.inr ⟨hname, hm⟩)

/-- Members stay in the order of their names when one is put in. -/
theorem ascending_insertMember {ms : List (String × Json)} (hms : Ascending ms) (name : String)
    (value : Json) : Ascending (insertMember name value ms) := by
  induction ms with
  | nil => exact List.pairwise_singleton _ _
  | cons m ms ih =>
    obtain ⟨hm, htail⟩ := List.pairwise_cons.mp hms
    unfold insertMember
    split
    · rename_i hlt
      refine List.pairwise_cons.mpr ⟨fun m' hm' => ?_, hms⟩
      rcases List.mem_cons.mp hm' with rfl | hm'
      · exact hlt
      · exact lt_trans hlt (hm m' hm')
    · split
      · rename_i heq
        exact List.pairwise_cons.mpr ⟨fun m' hm' => heq ▸ hm m' hm', htail⟩
      · rename_i hnlt hne
        refine List.pairwise_cons.mpr ⟨fun m' hm' => ?_, ih htail⟩
        rcases (mem_insertMember_iff htail).mp hm' with rfl | ⟨_, hm'⟩
        · exact lt_of_le_of_ne (not_lt.mp hnlt) fun h => hne h.symm
        · exact hm m' hm'

/-- The last member that is written is put in last. -/
theorem ofMembers_concat (ms : List (String × Json)) (m : String × Json) :
    ofMembers (ms ++ [m]) = insertMember m.1 m.2 (ofMembers ms) := by
  rw [ofMembers, List.foldl_append]
  rfl

/-- The members of an object that has been read are in the order of their names. -/
theorem ascending_ofMembers (ms : List (String × Json)) : Ascending (ofMembers ms) := by
  induction ms using List.reverseRecOn with
  | nil => exact List.Pairwise.nil
  | append_singleton ms m ih =>
    rw [ofMembers_concat]
    exact ascending_insertMember ih m.1 m.2

/-- No name is met twice among members in order. -/
theorem nodup_names_ofMembers (ms : List (String × Json)) :
    ((ofMembers ms).map Prod.fst).Nodup :=
  List.pairwise_map.mpr ((ascending_ofMembers ms).imp ne_of_lt)

/-- **The members of an object are those written last under their names.** -/
theorem mem_ofMembers_iff {m : String × Json} {ms : List (String × Json)} :
    m ∈ ofMembers ms ↔ Stays m ms := by
  -- from the right, since it is the last member that takes the place of others
  induction ms using List.reverseRecOn with
  | nil => exact ⟨fun h => absurd h List.not_mem_nil, fun h => absurd h.mem List.not_mem_nil⟩
  | append_singleton ms m' ih =>
    rw [ofMembers_concat, mem_insertMember_iff (ascending_ofMembers ms), ih, stays_concat_iff]

/-- Among members with different names all stay. -/
theorem stays_iff_mem {m : String × Json} {ms : List (String × Json)}
    (hms : (ms.map Prod.fst).Nodup) : Stays m ms ↔ m ∈ ms := by
  constructor
  · intro h
    exact h.mem
  · intro hm
    obtain ⟨before, after, rfl⟩ := List.append_of_mem hm
    refine ⟨before, after, rfl, ?_⟩
    rw [List.map_append, List.map_cons, List.nodup_append] at hms
    exact (List.nodup_cons.mp hms.2.1).1

/-- Some member of a name is the last one of it. -/
theorem exists_stays_iff {name : String} {ms : List (String × Json)} :
    (∃ v, Stays (name, v) ms) ↔ ∃ v, (name, v) ∈ ms := by
  constructor
  · intro h
    obtain ⟨v, hv⟩ := h
    exact ⟨v, hv.mem⟩
  · intro h
    induction ms using List.reverseRecOn with
    | nil => simp at h
    | append_singleton ms m ih =>
      obtain ⟨v, hv⟩ := h
      by_cases hname : name = m.1
      · exact ⟨m.2, stays_concat_iff.mpr (.inl (Prod.ext hname rfl))⟩
      · have hbefore : (name, v) ∈ ms := by
          rcases List.mem_append.mp hv with hv | hv
          · exact hv
          · exact absurd (congrArg Prod.fst (List.mem_singleton.mp hv)) hname
        obtain ⟨v', hv'⟩ := ih ⟨v, hbefore⟩
        exact ⟨v', stays_concat_iff.mpr (.inr ⟨hname, hv'⟩)⟩

/-- Members with different names are only put in order. -/
theorem ofMembers_perm {ms : List (String × Json)} (hms : (ms.map Prod.fst).Nodup) :
    (ofMembers ms).Perm ms := by
  rw [List.perm_ext_iff_of_nodup (nodup_names_ofMembers ms).of_map hms.of_map]
  intro m
  rw [mem_ofMembers_iff, stays_iff_mem hms]

/-- Members in order are the order of every arrangement of them. -/
theorem ofMembers_eq_of_perm {ms members : List (String × Json)} (hmembers : Ascending members)
    (hperm : ms.Perm members) : ofMembers ms = members := by
  have hnames : (ms.map Prod.fst).Nodup :=
    (hperm.map Prod.fst).nodup_iff.mpr (List.pairwise_map.mpr (hmembers.imp ne_of_lt))
  refine ((ofMembers_perm hnames).trans hperm).eq_of_pairwise ?_ (ascending_ofMembers ms) hmembers
  intro a b _ _ hab hba
  exact absurd hba (lt_asymm hab)

/-- One value at most is written last under a name. -/
theorem Stays.unique {ms : List (String × Json)} {name : String} {v v' : Json}
    (h : Stays (name, v) ms) (h' : Stays (name, v') ms) : v = v' :=
  congrArg Prod.snd (List.inj_on_of_nodup_map (nodup_names_ofMembers ms)
    (mem_ofMembers_iff.mpr h) (mem_ofMembers_iff.mpr h') rfl)

/-! ## Values in order -/

mutual

/-- A value with the members of all its objects in order, the last one of a name alone. -/
def tidy : Json → Json
  | .null => .null
  | .bool b => .bool b
  | .number n => .number n
  | .string text => .string text
  | .array items => .array (tidyItems items)
  | .object members => .object (ofMembers (tidyMembers members))

def tidyItems : List Json → List Json
  | [] => []
  | v :: vs => v.tidy :: tidyItems vs

def tidyMembers : List (String × Json) → List (String × Json)
  | [] => []
  | (name, v) :: ms => (name, v.tidy) :: tidyMembers ms

end

theorem tidyItems_eq_map (items : List Json) : tidyItems items = items.map tidy := by
  induction items with
  | nil => rfl
  | cons v vs ih => rw [tidyItems, ih, List.map_cons]

theorem tidyMembers_eq_map (ms : List (String × Json)) :
    tidyMembers ms = ms.map fun m => (m.1, m.2.tidy) := by
  induction ms with
  | nil => rfl
  | cons m ms ih => rw [tidyMembers, ih, List.map_cons]

/-- The members of an object in order are the ones written last under their names, in order too. -/
theorem mem_ofMembers_tidyMembers_iff {m : String × Json} {ms : List (String × Json)} :
    m ∈ ofMembers (tidyMembers ms) ↔ ∃ v, Stays (m.1, v) ms ∧ m.2 = v.tidy := by
  rw [mem_ofMembers_iff, tidyMembers_eq_map, stays_map_iff]

/-- A value is an object once it is tidy exactly if it is one as it is written. -/
theorem tidy_eq_object_iff {v : Json} {members : List (String × Json)} :
    v.tidy = .object members ↔ ∃ ms, v = .object ms ∧ ofMembers (tidyMembers ms) = members := by
  cases v with
  | object ms =>
    rw [tidy, Json.object.injEq]
    constructor
    · intro h
      exact ⟨ms, rfl, h⟩
    · intro hparts
      obtain ⟨_, heq, h⟩ := hparts
      cases heq
      exact h
  | _ => exact ⟨nofun, fun ⟨_, h, _⟩ => nomatch h⟩

/-- The members of an object, as they stand. -/
def members : Json → List (String × Json)
  | .object ms => ms
  | _ => []

/-- The items of an array. -/
def items : Json → List Json
  | .array vs => vs
  | _ => []

/-- A value in order has the names that are written in it, each once. -/
theorem mem_names_tidy_iff {v : Json} {name : String} :
    name ∈ v.tidy.members.map Prod.fst ↔ name ∈ v.members.map Prod.fst := by
  cases v with
  | object ms =>
    have hread : ∀ m, m ∈ ofMembers (tidyMembers ms) ↔ ∃ v, Stays (m.1, v) ms ∧ m.2 = v.tidy :=
      fun m => mem_ofMembers_tidyMembers_iff
    simp [tidy, members, hread, exists_stays_iff]
  | _ => rfl

/-- Members with different names are all read. -/
theorem mem_members_tidy_iff {v : Json} (hv : (v.members.map Prod.fst).Nodup) {m : String × Json} :
    m ∈ v.tidy.members ↔ ∃ v', (m.1, v') ∈ v.members ∧ m.2 = v'.tidy := by
  cases v with
  | object ms =>
    rw [members] at hv
    simp only [tidy, members, mem_ofMembers_tidyMembers_iff, stays_iff_mem hv]
  | _ => simp [tidy, members]

/-- No name is met twice among the members of a tidy value. -/
theorem nodup_names_tidy (v : Json) : (v.tidy.members.map Prod.fst).Nodup := by
  cases v with
  | object ms => exact nodup_names_ofMembers _
  | _ => exact List.nodup_nil

/-! ## Reading what is written -/

/-- Reads a value as `readValue` does and leaves the members of every object as they are written. -/
def readWritten : (depth : Nat) → List Char → Option (Json × List Char)
  | 0, cs =>
    match cs with
    | '[' :: _ | '{' :: _ => none
    | _ => readScalar cs
  | depth + 1, cs =>
    match cs with
    | '[' :: rest => (readLevel (readWritten depth) ']' rest).map fun p => (.array p.1, p.2)
    | '{' :: rest =>
      (readLevel (readMember (readWritten depth)) '}' rest).map fun p => (.object p.1, p.2)
    | _ => readScalar cs

section

variable {α β : Type} {item : List Char → Option (α × List Char)}
  {item' : List Char → Option (β × List Char)} {f : α → β}

/-- Two readers of items that differ by a function differ by it at every item that they read. -/
theorem readItems_map (h : ∀ cs, item' cs = (item cs).map (Prod.map f id)) (close : Char)
    (fuel : Nat) (cs : List Char) :
    readItems item' close fuel cs =
      (readItems item close fuel cs).map (Prod.map (List.map f) id) := by
  induction fuel generalizing cs with
  | zero => rfl
  | succ fuel ih =>
    rw [readItems, readItems, h]
    cases item (skipSpace cs) with
    | none => rfl
    | some p =>
      obtain ⟨a, rest⟩ := p
      simp only [Option.map_some, Prod.map_apply, id_eq]
      cases skipSpace rest with
      | nil => rfl
      | cons c rest =>
        simp only
        split
        · rfl
        · split
          · rw [ih, Option.map_map, Option.map_map]
            rfl
          · rfl

theorem readLevel_map (h : ∀ cs, item' cs = (item cs).map (Prod.map f id)) (close : Char)
    (cs : List Char) :
    readLevel item' close cs = (readLevel item close cs).map (Prod.map (List.map f) id) := by
  unfold readLevel
  cases skipSpace cs with
  | nil => rfl
  | cons c rest =>
    simp only
    split
    · rfl
    · exact readItems_map h close (rest.length + 1) (c :: rest)

end

/-- Two readers of values that differ by a function differ by it in the value of a member. -/
theorem readMember_map {value value' : List Char → Option (Json × List Char)} {f : Json → Json}
    (h : ∀ cs, value' cs = (value cs).map (Prod.map f id)) (cs : List Char) :
    readMember value' cs =
      (readMember value cs).map (Prod.map (fun m => (m.1, f m.2)) id) := by
  unfold readMember
  cases readString cs with
  | none => rfl
  | some p =>
    obtain ⟨name, rest⟩ := p
    simp only [Option.bind_eq_bind, Option.bind_some]
    split
    · rename_i rest _
      rw [h]
      cases value (skipSpace rest) <;> rfl
    · rfl

/-- A value that opens no level has nothing to be put in order. -/
theorem readScalar_map_tidy (cs : List Char) :
    readScalar cs = (readScalar cs).map (Prod.map tidy id) := by
  have hliteral : ∀ text value, value.tidy = value →
      literal text value cs = (literal text value cs).map (Prod.map tidy id) := by
    intro text value hvalue
    unfold literal
    by_cases h : text.toList.isPrefixOf cs = true
    · simp only [if_pos h, Option.map_some, Prod.map_apply, hvalue, id_eq]
    · simp only [if_neg h, Option.map_none]
  unfold readScalar
  split
  · exact hliteral "null" .null rfl
  · exact hliteral "true" (.bool true) rfl
  · exact hliteral "false" (.bool false) rfl
  · rw [Option.map_map]
    rfl
  · rw [Option.map_map]
    rfl

/-- **The value that is read of a text is what is written there, put in order.** -/
theorem readValue_eq (depth : Nat) (cs : List Char) :
    readValue depth cs = (readWritten depth cs).map (Prod.map tidy id) := by
  induction depth generalizing cs with
  | zero =>
    unfold readValue
    split
    · rfl
    · rfl
    · rename_i hbracket hbrace
      unfold readWritten
      split
      · exact absurd rfl (hbracket _)
      · exact absurd rfl (hbrace _)
      · exact readScalar_map_tidy cs
  | succ depth ih =>
    unfold readValue
    split
    · simp only [readWritten, readLevel_map ih, Option.map_map]
      refine congrArg (Option.map · _) (funext fun p => ?_)
      exact Prod.ext (congrArg Json.array (tidyItems_eq_map p.1).symm) rfl
    · simp only [readWritten, readLevel_map (readMember_map ih), Option.map_map]
      refine congrArg (Option.map · _) (funext fun p => ?_)
      exact Prod.ext (congrArg (Json.object ∘ ofMembers) (tidyMembers_eq_map p.1).symm) rfl
    · rename_i hbracket hbrace
      unfold readWritten
      split
      · exact absurd rfl (hbracket _)
      · exact absurd rfl (hbrace _)
      · exact readScalar_map_tidy cs

theorem whole_map {α β : Type} (f : α → β) (r : Option (α × List Char)) :
    whole (r.map (Prod.map f id)) = (whole r).map f := by
  cases r with
  | none => rfl
  | some p =>
    unfold whole
    simp only [Option.map_some, Prod.map_fst, Prod.map_snd, id_eq]
    split <;> rfl

end Json

namespace Document

/-- Reads a document with the members of every object in it as they are written. -/
def readWritten (text : String) : Option Document :=
  match Json.skipSpace text.toList with
  | '{' :: rest =>
    (Json.whole (Json.readLevel (Json.readMember (Json.readWritten (Json.maxDepth - 1))) '}'
      rest)).map Document.mk
  | _ => none

/-- **Reading a document is reading it as it is written, and tidying the values of its entries.** -/
theorem read_eq (text : String) :
    Document.read text =
      (Document.readWritten text).map fun d => ⟨d.entries.map fun e => (e.1, e.2.tidy)⟩ := by
  unfold Document.read Json.readEntries
  split
  · rename_i rest hbrace
    rw [readWritten, hbrace, Json.readLevel_map (Json.readMember_map (Json.readValue_eq _)),
      Json.whole_map]
    simp only [Option.map_map]
    rfl
  · rename_i hbrace
    unfold readWritten
    split
    · exact absurd ‹_› (hbrace _)
    · rfl

end Document

end SplitHorizon
