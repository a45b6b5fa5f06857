import SplitHorizon.Proofs.Json.Strings
import SplitHorizon.Proofs.Json.Written
/-!
# Texts of values and documents

The texts that a value may be written as: blanks may stand wherever the grammar allows them, strings
are written in any of their ways, and an object lists its members in any order. `Spells` is the
relation of a value and its texts, for values that are built of strings, arrays and objects; a
document is spelled by the members of one object in the order of its entries, repeated names
included.

The reader takes a value off the front of each of its texts, if no more levels are open in it than
the reader allows (`readValue_append`). So a document is read off every text of it, entry by entry,
in order and with all repetitions (`Document.read_spelled`). The library's own writer gives one of
these texts.
-/

namespace SplitHorizon

namespace Json

/-! ## Texts -/

def Blanks (cs : List Char) : Prop := ∀ c ∈ cs, isSpace c = true

/-- The texts of some items, with commas between them and a closing character behind the last. -/
inductive SpellsItems {α : Type} (item : α → List Char → Prop) (close : Char) :
    List α → List Char → Prop
  | last {a : α} {before text after : List Char} (blanks : Blanks before) (spelled : item a text)
      (blanks' : Blanks after) : SpellsItems item close [a] (before ++ text ++ after ++ [close])
  | more {a : α} {as : List α} {before text after rest : List Char} (blanks : Blanks before)
      (spelled : item a text) (blanks' : Blanks after) (others : SpellsItems item close as rest) :
      SpellsItems item close (a :: as) (before ++ text ++ after ++ ',' :: rest)

/-- The texts of a level behind the character that opens it: no items, or some. -/
inductive SpellsLevel {α : Type} (item : α → List Char → Prop) (close : Char) :
    List α → List Char → Prop
  | empty {text : List Char} (blanks : Blanks text) : SpellsLevel item close [] (text ++ [close])
  | items {as : List α} {text : List Char} (spelled : SpellsItems item close as text) :
      SpellsLevel item close as text

/-- The texts of a member: its name, a colon and its value. -/
inductive SpellsMember (value : Json → List Char → Prop) : String × Json → List Char → Prop
  | mk {name : String} {v : Json} {key before after text : List Char}
      (spelledName : SpellsString name key) (blanks : Blanks before) (blanks' : Blanks after)
      (spelled : value v text) :
      SpellsMember value (name, v) (key ++ before ++ ':' :: after ++ text)

/-- The texts of a value of strings, arrays and objects. -/
inductive Spells : Json → List Char → Prop
  | string {s : String} {text : List Char} (spelled : SpellsString s text) : Spells (.string s) text
  | array {items : List Json} {text : List Char} (spelled : SpellsLevel Spells ']' items text) :
      Spells (.array items) ('[' :: text)
  /-- The members may be written in any order. -/
  | object {written members : List (String × Json)} {text : List Char}
      (same : written.Perm members) (spelled : SpellsLevel (SpellsMember Spells) '}' written text) :
      Spells (.object members) ('{' :: text)

/-- A value of strings, arrays and objects in which at most `depth` levels are open at the same
time. The names in an object differ; they are listed in their order. -/
def IsNested : (depth : Nat) → Json → Prop
  | _, .string _ => True
  | depth + 1, .array items => ∀ v ∈ items, v.IsNested depth
  | depth + 1, .object members => Ascending members ∧ ∀ m ∈ members, m.2.IsNested depth
  | _, _ => False

/-! ## Blanks -/

@[simp]
theorem blanks_nil : Blanks [] := nofun

theorem skipSpace_append {cs : List Char} (h : Blanks cs) (ds : List Char) :
    skipSpace (cs ++ ds) = skipSpace ds :=
  List.dropWhile_append_of_pos h

theorem skipSpace_cons {c : Char} (h : isSpace c = false) (cs : List Char) :
    skipSpace (c :: cs) = c :: cs := by
  simp [skipSpace, h]

theorem length_skipSpace_le (cs : List Char) : (skipSpace cs).length ≤ cs.length :=
  (List.dropWhile_sublist isSpace).length_le

/-- What follows the blanks of a text. -/
theorem skipSpace_skipSpace (cs : List Char) : skipSpace (skipSpace cs) = skipSpace cs := by
  induction cs with
  | nil => rfl
  | cons c cs ih =>
    cases hc : isSpace c with
    | true => simpa [skipSpace, hc] using ih
    | false => simp [skipSpace, hc]

/-! ## Levels -/

section

variable {α : Type} {spells : α → List Char → Prop} {item : List Char → Option (α × List Char)}
  {close : Char} {as : List α}

/-- A reader takes an item off the front of all its texts and leaves what follows. -/
def TakesOff (spells : α → List Char → Prop) (item : List Char → Option (α × List Char)) (a : α) :
    Prop :=
  ∀ text rest, spells a text → item (text ++ rest) = some (a, rest)

/-- What items may look like in a level: no text of an item begins with a blank or with the
character that closes the level, which is neither a blank nor a comma. -/
structure Opens (spells : α → List Char → Prop) (close : Char) : Prop where
  first : ∀ a text, spells a text → ∃ c cs, text = c :: cs ∧ isSpace c = false ∧ c ≠ close
  notBlank : isSpace close = false
  notComma : close ≠ ','

/-- Behind the blanks in front of an item stands its text. -/
theorem Opens.skipSpace_item (h : Opens spells close) {a : α} {before text : List Char}
    (hbefore : Blanks before) (htext : spells a text) (rest : List Char) :
    skipSpace (before ++ text ++ rest) = text ++ rest := by
  obtain ⟨c, cs, rfl, hc, _⟩ := h.first a text htext
  rw [List.append_assoc, skipSpace_append hbefore, List.cons_append, skipSpace_cons hc]

/-- The text of a level is as long as its items are many. -/
theorem SpellsItems.length_le (hopens : Opens spells close) {text : List Char}
    (h : SpellsItems spells close as text) (rest : List Char) :
    as.length ≤ (skipSpace (text ++ rest)).length := by
  induction h with
  | @last a before text after hbefore ha hafter =>
    obtain ⟨c, cs, hcs, _⟩ := hopens.first a text ha
    rw [List.append_assoc, List.append_assoc, hopens.skipSpace_item hbefore ha, hcs]
    simp
  | @more a as before text after tail hbefore ha hafter _ ih =>
    obtain ⟨c, cs, hcs, _⟩ := hopens.first a text ha
    have htail := ih.trans (length_skipSpace_le _)
    rw [List.append_assoc, List.append_assoc, hopens.skipSpace_item hbefore ha, hcs]
    simp only [List.length_cons, List.length_append] at htail ⊢
    omega

/-- Behind its blanks the text of items does not begin with the character that closes the level. -/
theorem SpellsItems.exists_cons (hopens : Opens spells close) {text : List Char}
    (h : SpellsItems spells close as text) (rest : List Char) :
    ∃ c cs, skipSpace (text ++ rest) = c :: cs ∧ c ≠ close := by
  have hfront : ∃ a before front tail, Blanks before ∧ spells a front ∧
      text = before ++ front ++ tail := by
    cases h with
    | @last a before front after hbefore ha _ =>
      exact ⟨a, before, front, after ++ [close], hbefore, ha, List.append_assoc _ _ _⟩
    | @more a _ before front after tail hbefore ha _ _ =>
      exact ⟨a, before, front, after ++ ',' :: tail, hbefore, ha, List.append_assoc _ _ _⟩
  obtain ⟨a, before, front, tail, hbefore, ha, rfl⟩ := hfront
  obtain ⟨c, cs, rfl, _, hc⟩ := hopens.first a front ha
  refine ⟨c, cs ++ (tail ++ rest), ?_, hc⟩
  rw [List.append_assoc, hopens.skipSpace_item hbefore ha, List.cons_append]

/-- Blanks in front of the items of a level do not count. -/
theorem readItems_skipSpace (fuel : Nat) (cs : List Char) :
    readItems item close fuel (skipSpace cs) = readItems item close fuel cs := by
  cases fuel with
  | zero => rfl
  | succ fuel => rw [readItems, readItems, skipSpace_skipSpace]

/-- The items of a level are read off their text, if each of them is read off its own. -/
theorem readItems_append (hopens : Opens spells close) {text : List Char}
    (h : SpellsItems spells close as text) (hitem : ∀ a ∈ as, TakesOff spells item a) {fuel : Nat}
    (hfuel : as.length ≤ fuel) (rest : List Char) :
    readItems item close fuel (text ++ rest) = some (as, rest) := by
  induction h generalizing fuel with
  | @last a before text after hbefore ha hafter =>
    obtain ⟨fuel, rfl⟩ := Nat.exists_eq_add_one.mpr hfuel
    have hread := hitem a List.mem_cons_self text (after ++ close :: rest) ha
    have hskip : skipSpace (before ++ text ++ after ++ [close] ++ rest) =
        text ++ (after ++ close :: rest) := by
      simpa using hopens.skipSpace_item hbefore ha (after ++ close :: rest)
    rw [readItems, hskip, hread]
    simp only
    rw [skipSpace_append hafter, skipSpace_cons hopens.notBlank]
    simp
  | @more a as before text after tail hbefore ha hafter _ ih =>
    obtain ⟨fuel, rfl⟩ := Nat.exists_eq_add_one.mpr (Nat.zero_lt_of_lt hfuel)
    obtain ⟨hitemA, hitems⟩ := List.forall_mem_cons.mp hitem
    have hread := hitemA text (after ++ ',' :: (tail ++ rest)) ha
    have hskip : skipSpace (before ++ text ++ after ++ ',' :: tail ++ rest) =
        text ++ (after ++ ',' :: (tail ++ rest)) := by
      simpa using hopens.skipSpace_item hbefore ha (after ++ ',' :: (tail ++ rest))
    rw [readItems, hskip, hread]
    simp only
    rw [skipSpace_append hafter, skipSpace_cons (by decide)]
    simp [hopens.notComma.symm, ih hitems (Nat.le_of_succ_le_succ hfuel)]

/-- **A level is read off its text, item by item**, if its items are. -/
theorem readLevel_append (hopens : Opens spells close) {text : List Char}
    (h : SpellsLevel spells close as text) (hitem : ∀ a ∈ as, TakesOff spells item a)
    (rest : List Char) : readLevel item close (text ++ rest) = some (as, rest) := by
  cases h with
  | @empty blanks hblanks =>
    rw [readLevel, List.append_assoc, skipSpace_append hblanks, List.singleton_append,
      skipSpace_cons hopens.notBlank]
    simp
  | items hitems =>
    obtain ⟨c, cs, hcs, hc⟩ := hitems.exists_cons hopens rest
    have hfuel : as.length ≤ cs.length + 1 := by simpa [hcs] using hitems.length_le hopens rest
    have hread := readItems_append hopens hitems hitem hfuel rest
    rw [← readItems_skipSpace, hcs] at hread
    rw [readLevel, hcs]
    simp [hc, hread]

end

/-! ## Values -/

/-- A value begins with a quote, a bracket or a brace. -/
theorem Spells.exists_cons {v : Json} {text : List Char} (h : Spells v text) :
    ∃ c cs, text = c :: cs ∧ (c = '"' ∨ c = '[' ∨ c = '{') := by
  cases h with
  | string h =>
    obtain ⟨_, _, rfl⟩ := h
    exact ⟨_, _, rfl, .inl rfl⟩
  | array _ => exact ⟨_, _, rfl, .inr (.inl rfl)⟩
  | object _ _ => exact ⟨_, _, rfl, .inr (.inr rfl)⟩

/-- No value begins with a blank or with the bracket that closes an array. -/
theorem opens_spells : Opens Spells ']' := by
  refine ⟨fun v text h => ?_, by decide, by decide⟩
  obtain ⟨c, cs, rfl, hc⟩ := h.exists_cons
  refine ⟨c, cs, rfl, ?_⟩
  rcases hc with rfl | rfl | rfl <;> decide

/-- No member begins with a blank or with the brace that closes an object. -/
theorem opens_spellsMember : Opens (SpellsMember Spells) '}' := by
  refine ⟨fun m text h => ?_, by decide, by decide⟩
  cases h with
  | mk hname _ _ _ =>
    obtain ⟨_, _, rfl⟩ := hname
    exact ⟨'"', _, rfl, by decide, by decide⟩

/-- A member is taken off, if its value is. -/
theorem takesOff_readMember {value : List Char → Option (Json × List Char)} {m : String × Json}
    (hvalue : TakesOff Spells value m.2) : TakesOff (SpellsMember Spells) (readMember value) m := by
  intro text rest h
  cases h with
  | @mk name v key before after text hname hbefore hafter htext =>
    obtain ⟨c, cs, hcs, hc⟩ := htext.exists_cons
    have hspace : isSpace c = false := by rcases hc with rfl | rfl | rfl <;> rfl
    have hread := readString_append hname (before ++ ':' :: (after ++ (text ++ rest)))
    have hskip : skipSpace (after ++ (text ++ rest)) = text ++ rest := by
      rw [skipSpace_append hafter, hcs, List.cons_append, skipSpace_cons hspace]
    have hshape : key ++ before ++ ':' :: after ++ text ++ rest =
        key ++ (before ++ ':' :: (after ++ (text ++ rest))) := by simp
    rw [hshape, readMember, hread]
    simp only [Option.bind_eq_bind, Option.bind_some]
    rw [skipSpace_append hbefore, skipSpace_cons (by decide)]
    simp only
    rw [hskip, hvalue text rest htext]
    rfl

/-- A string is read off each of its texts, however deep it stands. -/
theorem readValue_string {depth : Nat} {s : String} {text : List Char} (h : SpellsString s text)
    (rest : List Char) : readValue depth (text ++ rest) = some (.string s, rest) := by
  have hread := readString_append h rest
  obtain ⟨_, _, rfl⟩ := h
  cases depth <;>
    simp only [readValue, readScalar, List.cons_append] at hread ⊢ <;>
    rw [hread] <;> rfl

/-- **A value is read off each of its texts**, if the reader may open as many levels as are open in
it. -/
theorem readValue_append {depth : Nat} {v : Json} (hv : v.IsNested depth) :
    TakesOff Spells (readValue depth) v := by
  induction depth generalizing v with
  | zero =>
    intro text rest h
    cases h with
    | string h => exact readValue_string h rest
    | array _ => exact hv.elim
    | object _ _ => exact hv.elim
  | succ depth ih =>
    intro text rest h
    cases h with
    | string h => exact readValue_string h rest
    | array h =>
      have hlevel := readLevel_append opens_spells h (fun v' hv' => ih (hv v' hv')) rest
      simp only [List.cons_append, readValue, hlevel, Option.map_some]
    | @object written members text hperm h =>
      obtain ⟨hmembers, hnested⟩ := hv
      have hitem : ∀ m ∈ written, TakesOff (SpellsMember Spells) (readMember (readValue depth)) m :=
        fun m hm => takesOff_readMember (ih (hnested m (hperm.mem_iff.mp hm)))
      have hlevel := readLevel_append opens_spellsMember h hitem rest
      simp only [List.cons_append, readValue, hlevel, Option.map_some,
        ofMembers_eq_of_perm hmembers hperm]

/-! ## The writer's texts -/

/-- The writer's text of some items is one of their texts, if that of each item is. -/
theorem spellsItems_render {items : List Json} (hne : items ≠ [])
    (h : ∀ v ∈ items, Spells v (render v)) :
    SpellsItems Spells ']' items (renderItems items ++ [']']) := by
  induction items with
  | nil => exact absurd rfl hne
  | cons v vs ih =>
    obtain ⟨hv, hvs⟩ := List.forall_mem_cons.mp h
    cases vs with
    | nil => simpa [renderItems] using SpellsItems.last blanks_nil hv blanks_nil
    | cons w ws =>
      simpa [renderItems] using SpellsItems.more blanks_nil hv blanks_nil (ih (by simp) hvs)

/-- The writer's text of some members is one of their texts, if that of each value is. -/
theorem spellsMembers_render {members : List (String × Json)} (hne : members ≠ [])
    (h : ∀ m ∈ members, Spells m.2 (render m.2)) :
    SpellsItems (SpellsMember Spells) '}' members (renderMembers members ++ ['}']) := by
  induction members with
  | nil => exact absurd rfl hne
  | cons m ms ih =>
    obtain ⟨hm, hms⟩ := List.forall_mem_cons.mp h
    have hmember : SpellsMember Spells m (renderString m.1 ++ ':' :: render m.2) := by
      simpa using SpellsMember.mk (spellsString_render m.1) blanks_nil blanks_nil hm
    cases ms with
    | nil => simpa [renderMembers] using SpellsItems.last blanks_nil hmember blanks_nil
    | cons m' ms =>
      simpa [renderMembers] using SpellsItems.more blanks_nil hmember blanks_nil (ih (by simp) hms)

theorem spellsLevel_renderItems {items : List Json} (h : ∀ v ∈ items, Spells v (render v)) :
    SpellsLevel Spells ']' items (renderItems items ++ [']']) := by
  by_cases hne : items = []
  · subst hne
    exact .empty blanks_nil
  · exact .items (spellsItems_render hne h)

theorem spellsLevel_renderMembers {members : List (String × Json)}
    (h : ∀ m ∈ members, Spells m.2 (render m.2)) :
    SpellsLevel (SpellsMember Spells) '}' members (renderMembers members ++ ['}']) := by
  by_cases hne : members = []
  · subst hne
    exact .empty blanks_nil
  · exact .items (spellsMembers_render hne h)

/-- **The writer's text of a value is one of its texts.** -/
theorem spells_render {depth : Nat} {v : Json} (hv : v.IsNested depth) : Spells v (render v) := by
  induction depth generalizing v with
  | zero =>
    cases v with
    | string s => exact .string (spellsString_render s)
    | _ => exact hv.elim
  | succ depth ih =>
    cases v with
    | string s => exact .string (spellsString_render s)
    | array items => exact .array (spellsLevel_renderItems fun v' hv' => ih (hv v' hv'))
    | object members =>
      exact .object (.refl members) (spellsLevel_renderMembers fun m hm => ih (hv.2 m hm))
    | _ => exact hv.elim

end Json

/-! ## Documents -/

namespace Document

open Json (Blanks SpellsLevel SpellsMember Spells)

/-- The texts of a document: one object whose members are the entries, in order. -/
def IsSpelledBy (d : Document) (text : String) : Prop :=
  ∃ before body after, Blanks before ∧ SpellsLevel (SpellsMember Spells) '}' d.entries body ∧
    Blanks after ∧ text.toList = before ++ '{' :: body ++ after

/-- The entries of a document leave room for one level, that of the document itself. -/
def IsReadable (d : Document) : Prop := ∀ e ∈ d.entries, e.2.IsNested (Json.maxDepth - 1)

variable {d : Document}

/-- The writer's text of a document spells it. -/
theorem isSpelledBy_render (hd : d.IsReadable) : d.IsSpelledBy d.render := by
  refine ⟨[], Json.renderMembers d.entries ++ ['}'], [], Json.blanks_nil, ?_, Json.blanks_nil, ?_⟩
  · exact Json.spellsLevel_renderMembers fun e he => Json.spells_render (hd e he)
  · simp [render]

/-- A document is read from each of its spellings. -/
theorem read_of_isSpelledBy (hd : d.IsReadable) {text : String} (h : d.IsSpelledBy text) :
    Document.read text = some d := by
  obtain ⟨before, body, after, hbefore, hbody, hafter, htext⟩ := h
  have hitem : ∀ e ∈ d.entries, Json.TakesOff (SpellsMember Spells)
      (Json.readMember (Json.readValue (Json.maxDepth - 1))) e :=
    fun e he => Json.takesOff_readMember (Json.readValue_append (hd e he))
  have hlevel := Json.readLevel_append Json.opens_spellsMember hbody hitem after
  have hskip : Json.skipSpace text.toList = '{' :: (body ++ after) := by
    rw [htext, List.append_assoc, Json.skipSpace_append hbefore, List.cons_append,
      Json.skipSpace_cons (by decide)]
  have hend : Json.skipSpace after = [] := by
    rw [← List.append_nil after, Json.skipSpace_append hafter]
    rfl
  rw [Document.read, Json.readEntries, hskip]
  simp only
  rw [hlevel]
  simp [Json.whole, hend]

/-- **A document is read off each of its texts**, entry by entry: in their order, and with the keys
that are repeated kept apart. One of these texts is the one that is written of it. -/
theorem read_spelled (hd : d.IsReadable) :
    d.IsSpelledBy d.render ∧ ∀ text, d.IsSpelledBy text → Document.read text = some d :=
  ⟨isSpelledBy_render hd, fun _ => read_of_isSpelledBy hd⟩

/-- Two entries of one key. -/
def sameKey : Document :=
  ⟨[("d", .object [("a", .string "\n"), ("b", .array [])]), ("d", .string "\"/")]⟩

/-- Entries of one key are no reason not to read a document. -/
theorem isReadable_sameKey : sameKey.IsReadable := by
  have hnested : (Json.object [("a", .string "\n"), ("b", .array [])]).IsNested
      (Json.maxDepth - 1) := by
    refine ⟨?_, ?_⟩
    · exact List.pairwise_pair.mpr (by decide)
    · intro m hm
      rcases List.mem_pair.mp hm with rfl | rfl
      · trivial
      · exact nofun
  intro e he
  rcases List.mem_pair.mp he with rfl | rfl
  · exact hnested
  · trivial

/-- A text of them in which the key is written in two ways, the members of the object are not in the
order of their names, and blanks stand here and there. -/
theorem read_spelled_sameKey :
    Document.read " \x7b\"\\u0064\" :\x7b\"b\":[ ],\"a\":\"\\n\"\x7d, \"d\":\"\\\"\\/\"\x7d " =
      some sameKey ∧ Document.read sameKey.render = some sameKey := by
  obtain ⟨hrender, hread⟩ := read_spelled isReadable_sameKey
  refine ⟨hread _ ?_, hread _ hrender⟩
  have hblank : Blanks [' '] := by simp [Blanks, Json.isSpace]
  have hkey : Json.SpellsString "d" _ :=
    ⟨[['\\', 'u', '0', '0', '6', '4']], .cons (.unit rfl) .nil, rfl⟩
  have hslash : Spells (.string "\"/") _ :=
    .string ⟨[['\\', '"'], ['\\', '/']],
      .cons (.letter (by decide)) (.cons (.letter (by decide)) .nil), rfl⟩
  have hlist : Spells (.array []) _ := .array (.empty hblank)
  have hline : Spells (.string "\n") _ := .string (Json.spellsString_render "\n")
  have ha : SpellsMember Spells ("a", .string "\n") _ :=
    .mk (Json.spellsString_render "a") Json.blanks_nil Json.blanks_nil hline
  have hb : SpellsMember Spells ("b", .array []) _ :=
    .mk (Json.spellsString_render "b") Json.blanks_nil Json.blanks_nil hlist
  have hobject : Spells (.object [("a", .string "\n"), ("b", .array [])]) _ :=
    .object (.swap _ _ _) (.items (.more Json.blanks_nil hb Json.blanks_nil
      (.last Json.blanks_nil ha Json.blanks_nil)))
  have hfirst : SpellsMember Spells ("d", .object [("a", .string "\n"), ("b", .array [])]) _ :=
    .mk hkey hblank Json.blanks_nil hobject
  have hsecond : SpellsMember Spells ("d", .string "\"/") _ :=
    .mk (Json.spellsString_render "d") Json.blanks_nil Json.blanks_nil hslash
  exact ⟨[' '], _, [' '], hblank, .items (.more Json.blanks_nil hfirst Json.blanks_nil
    (.last hblank hsecond Json.blanks_nil)), hblank, rfl⟩

end Document

end SplitHorizon
