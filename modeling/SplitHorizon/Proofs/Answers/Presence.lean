import SplitHorizon.Proofs.Answers.Contents
import SplitHorizon.Proofs.Answers.Entries
import SplitHorizon.Proofs.Answers.Order
import SplitHorizon.Proofs.Json.Written
/-!
# What of a document is kept

A document says in its text what it declares, and a store is built of what has been read of that
text. Between the two a declaration is lost without a fault in one way only: a later one repeats its
name to the letter. At the top this happens to the servers for everyone, where a list takes the
place of an earlier one; inside a zone it happens to a name, to a type under a name and to the list
of servers, since of an object the last member of a name is read. All that is written last is in the
store (`keeps_build`). A name or a type that is repeated in another spelling is refused, and so is a
selector in any spelling.
-/

namespace SplitHorizon

/-! ## Objects as they are written -/

namespace Json

/-- Texts in an array are left as they are. -/
theorem texts?_tidy {α : Type} (read : String → Option α) (v : Json) :
    v.tidy.texts? read = v.texts? read := by
  cases v with
  | array items =>
    simp only [tidy, tidyItems_eq_map, texts?, List.mapM_map]
    refine congrArg (fun f => items.mapM f) (funext fun item => ?_)
    cases item <;> rfl
  | _ => rfl

/-- An array lists the same once the members of its objects are put in order. -/
theorem isListOf_tidy_iff {ε α : Type} {read : String → Except ε α} {v : Json} {as : List α} :
    v.tidy.IsListOf read as ↔ v.IsListOf read as := by
  rw [← texts?_eq_some_iff, ← texts?_eq_some_iff, texts?_tidy]

/-- The list of servers that is written last in a zone's object. -/
def ListsLast (v list : Json) : Prop :=
  ∃ members, v = .object members ∧ Stays (recurseKey, list) members

/-- A declaration in a zone's object whose name is written last under that spelling, and so is its
type under the name. -/
def DeclaresLast (v : Json) (d : Declaration) : Prop :=
  ∃ members types, v = .object members ∧ d.written ≠ recurseKey ∧
    Stays (d.written, .object types) members ∧ Stays (d.label, d.list) types

end Json

/-- A declaration with its list in order. -/
def Declaration.tidy (d : Declaration) : Declaration := { d with list := d.list.tidy }

theorem isFiledAs_tidy_iff {d : Declaration} {s : RecordSet} :
    d.tidy.IsFiledAs s ↔ d.IsFiledAs s :=
  ⟨fun h => ⟨h.name, h.kind, Json.isListOf_tidy_iff.mp h.values⟩,
    fun h => ⟨h.name, h.kind, Json.isListOf_tidy_iff.mpr h.values⟩⟩

/-- A declaration is met exactly if its list is written under its type, in the object under its
name. -/
theorem mem_declarations_iff {members : List (String × Json)} {d : Declaration} :
    d ∈ declarations members ↔ d.written ≠ recurseKey ∧
      ∃ types, (d.written, .object types) ∈ members ∧ (d.label, d.list) ∈ types := by
  rw [declarations, List.mem_flatMap]
  constructor
  · intro h
    obtain ⟨⟨written, v⟩, hm, hd⟩ := h
    unfold Declaration.ofMember at hd
    split at hd
    · cases hd
    · rename_i hname
      split at hd
      · rename_i types hv
        obtain ⟨⟨label, list⟩, ht, rfl⟩ := List.mem_map.mp hd
        cases hv
        exact ⟨hname, types, hm, ht⟩
      · cases hd
  · intro h
    obtain ⟨hname, types, hm, ht⟩ := h
    refine ⟨_, hm, ?_⟩
    rw [Declaration.ofMember, if_neg hname]
    exact List.mem_map.mpr ⟨_, ht, rfl⟩

/-- What is read of an object declares what is written last in it. -/
theorem mem_declarations_tidy_iff {ms : List (String × Json)} {d : Declaration} :
    d ∈ declarations (Json.ofMembers (Json.tidyMembers ms)) ↔
      ∃ d', (Json.object ms).DeclaresLast d' ∧ d = d'.tidy := by
  rw [mem_declarations_iff]
  constructor
  · intro hparts
    obtain ⟨hname, _, hm, ht⟩ := hparts
    obtain ⟨v, hv, heq⟩ := Json.mem_ofMembers_tidyMembers_iff.mp hm
    obtain ⟨types, rfl, rfl⟩ := Json.tidy_eq_object_iff.mp heq.symm
    obtain ⟨list, hlist, heq⟩ := Json.mem_ofMembers_tidyMembers_iff.mp ht
    refine ⟨⟨d.written, d.label, list⟩, ⟨ms, types, rfl, hname, hv, hlist⟩, ?_⟩
    rw [Declaration.tidy, ← heq]
  · intro hparts
    obtain ⟨d', ⟨_, types, heq, hname, hv, hlist⟩, rfl⟩ := hparts
    cases heq
    exact ⟨hname, _, Json.mem_ofMembers_tidyMembers_iff.mpr ⟨_, hv, rfl⟩,
      Json.mem_ofMembers_tidyMembers_iff.mpr ⟨_, hlist, rfl⟩⟩

/-! ## Zones -/

/-- A zone holds what an object declares as it is written: its servers are those of the list that is
written last; every declaration that is written last is a sound one, and what is found under a name
and a kind is what it lists; and no two of them are for the same name and kind. -/
structure Zone.Keeps (z : Zone) (v : Json) : Prop where
  servers : ∀ list, v.ListsLast list → list.IsListOf Target.ofText z.recurse
  filed : ∀ d, v.DeclaresLast d → ∃ s, d.IsFiledAs s
  found : ∀ s : RecordSet, z.lookup s.name s.kind = some s.values ↔
    ∃ d, v.DeclaresLast d ∧ d.IsFiledAs s
  once : ∀ d d' s s', v.DeclaresLast d → v.DeclaresLast d' → d.IsFiledAs s → d'.IsFiledAs s' →
    s.label = s'.label → d = d'

/-- What stands on one side of a correspondence has a counterpart on the other one. -/
theorem exists_of_forall₂ {α β : Type} {R : α → β → Prop} {as : List α} {bs : List β}
    (h : List.Forall₂ R as bs) {a : α} (ha : a ∈ as) : ∃ b ∈ bs, R a b := by
  induction h with
  | nil => cases ha
  | @cons a' b as bs hab _ ih =>
    rcases List.mem_cons.mp ha with rfl | ha
    · exact ⟨b, List.mem_cons_self, hab⟩
    · obtain ⟨b', hb', hab'⟩ := ih ha
      exact ⟨b', List.mem_cons_of_mem b hb', hab'⟩

/-- A declaration is filed as one record set only. -/
theorem Declaration.IsFiledAs.unique {d : Declaration} {s s' : RecordSet} (h : d.IsFiledAs s)
    (h' : d.IsFiledAs s') : s = s' := by
  obtain ⟨name, kind, values⟩ := s
  obtain ⟨name', kind', values'⟩ := s'
  obtain rfl : name = name' := Except.ok.inj (h.name.symm.trans h'.name)
  obtain rfl : kind = kind' := Option.some.inj (h.kind.symm.trans h'.kind)
  exact congrArg (RecordSet.mk name kind) (h.values.unique h'.values)

/-- Declarations that are written last under one name and one type are the same. -/
theorem Json.DeclaresLast.eq_of_tidy {v : Json} {d d' : Declaration} (h : v.DeclaresLast d)
    (h' : v.DeclaresLast d') (htidy : d.tidy = d'.tidy) : d = d' := by
  obtain ⟨written, label, list⟩ := d
  obtain ⟨written', label', list'⟩ := d'
  obtain rfl : written = written' := congrArg Declaration.written htidy
  obtain rfl : label = label' := congrArg Declaration.label htidy
  obtain ⟨members, types, rfl, _, hwritten, hlist⟩ := h
  obtain ⟨_, types', heq, _, hwritten', hlist'⟩ := h'
  cases heq
  cases hwritten.unique hwritten'
  exact congrArg (Declaration.mk written label) (hlist.unique hlist')

section

variable {selector : String} {ms : List (String × Json)} {z : Zone}

/-- What is written last in an object is filed when the object is read. -/
theorem exists_mem_sets (h : readZone selector (Json.object ms).tidy = .ok z) {d : Declaration}
    (hd : (Json.object ms).DeclaresLast d) : ∃ s ∈ z.sets, d.IsFiledAs s := by
  obtain ⟨s, hs, hfiled⟩ :=
    exists_of_forall₂ (forall₂_sets h) (mem_declarations_tidy_iff.mpr ⟨d, hd, rfl⟩)
  exact ⟨s, hs, isFiledAs_tidy_iff.mp hfiled⟩

/-- What is filed when an object is read is written last in it. -/
theorem exists_declaresLast (h : readZone selector (Json.object ms).tidy = .ok z) {s : RecordSet}
    (hs : s ∈ z.sets) : ∃ d, (Json.object ms).DeclaresLast d ∧ d.IsFiledAs s := by
  obtain ⟨_, hd, hfiled⟩ := exists_of_forall₂ (forall₂_sets h).flip hs
  obtain ⟨d, hlast, rfl⟩ := mem_declarations_tidy_iff.mp hd
  exact ⟨d, hlast, isFiledAs_tidy_iff.mp hfiled⟩

/-- A zone has a record set under a name and a kind exactly if a declaration that is written last is
filed as it. -/
theorem lookup_iff_declaresLast (h : readZone selector (Json.object ms).tidy = .ok z)
    (s : RecordSet) : z.lookup s.name s.kind = some s.values ↔
      ∃ d, (Json.object ms).DeclaresLast d ∧ d.IsFiledAs s := by
  rw [Zone.lookup_eq_some_iff (nodup_labels_readZone h)]
  constructor
  · intro hs
    exact exists_declaresLast h hs
  · intro hparts
    obtain ⟨d, hd, hs⟩ := hparts
    obtain ⟨s', hs', hfiled⟩ := exists_mem_sets h hd
    exact hs.unique hfiled ▸ hs'

/-- Declarations for one name and one kind are the same, if both are written last. -/
theorem Json.DeclaresLast.eq_of_label (h : readZone selector (Json.object ms).tidy = .ok z)
    {d d' : Declaration} {s s' : RecordSet} (hd : (Json.object ms).DeclaresLast d)
    (hd' : (Json.object ms).DeclaresLast d') (hs : d.IsFiledAs s) (hs' : d'.IsFiledAs s')
    (hlabel : s.label = s'.label) : d = d' := by
  have hvalues := (lookup_iff_declaresLast h s).mpr ⟨d, hd, hs⟩
  obtain ⟨d₀, hone, _⟩ := (lookup_iff_filter_isFor h).mp hvalues
  -- both of them are for the name and the kind of `s`, and only `d₀` is
  have honly : ∀ d s', (Json.object ms).DeclaresLast d → d.IsFiledAs s' → s.label = s'.label →
      d.tidy = d₀ := by
    intro d s' hd hs' hlabel
    obtain ⟨hname, hkind⟩ := Prod.mk.inj hlabel
    rw [← List.mem_singleton, ← hone, List.mem_filter, mem_declarations_tidy_iff]
    refine ⟨⟨d, hd, rfl⟩, ?_⟩
    rw [(isFiledAs_tidy_iff.mpr hs').isFor_eq, hname, hkind, BEq.rfl, BEq.rfl, Bool.and_self]
  exact hd.eq_of_tidy hd' ((honly d s hd hs rfl).trans (honly d' s' hd' hs' hlabel).symm)

end

/-- **A zone that has been read holds all that is written last in its object**, and nothing else. -/
theorem keeps_readZone {selector : String} {v : Json} {z : Zone}
    (h : readZone selector v.tidy = .ok z) : z.Keeps v := by
  obtain ⟨_, hv, _⟩ := readZone_eq_ok_iff.mp h
  obtain ⟨ms, rfl, _⟩ := Json.tidy_eq_object_iff.mp hv
  refine ⟨fun list hlist => ?_, fun d hd => ?_, lookup_iff_declaresLast h,
    fun d d' s s' hd => hd.eq_of_label h⟩
  · obtain ⟨_, heq, hlist⟩ := hlist
    cases heq
    refine Json.isListOf_tidy_iff.mp (isListOf_recurse (Json.nodup_names_ofMembers _) h ?_)
    exact Json.mem_ofMembers_tidyMembers_iff.mpr ⟨list, hlist, rfl⟩
  · obtain ⟨s, _, hs⟩ := exists_mem_sets h hd
    exact ⟨s, hs⟩

/-! ## Stores -/

/-- A store holds a zone under a selector. The zone for everyone else has the servers for everyone
in front of its own. -/
def Store.Gives (s : Store) (common : List Target) (key : String) (z : Zone) : Selector → Prop
  | .default => s.fallback = ⟨z.sets, common ++ z.recurse⟩
  | .network net => ⟨key, net, z⟩ ∈ s.networks

/-- The list of servers for everyone that is written last is the one that counts. -/
theorem isListOf_recurse_extend {entries : List (String × Json)}
    (hsound : ∀ e ∈ entries, IsSoundEntry e) {list : Json}
    (h : Json.Stays (recurseKey, list) entries) :
    list.IsListOf Target.ofText (Declared.none.extend entries).recurse := by
  obtain ⟨ts, hts⟩ := (hsound _ h.mem).targets rfl
  obtain ⟨before, after, rfl, hafter⟩ := h
  have hlater : after.filterMap commonTargets? = [] := by
    refine List.filterMap_eq_nil_iff.mpr fun e he => if_neg fun hname => hafter ?_
    exact List.mem_map.mpr ⟨e, he, hname⟩
  have hcommon : commonTargets? (recurseKey, list) = some ts := hts
  simp only [Declared.extend, List.filterMap_append, List.filterMap_cons_some hcommon, hlater,
    List.getLast?_concat, Option.getD_some]
  exact Json.targets?_eq_some_iff.mp hts

/-- A sound entry's zone is in the store that is made of the entries. -/
theorem gives_toStore {entries : List (String × Json)}
    (hkeys : (entries.filterMap selectorKey?).Nodup) {e : String × Json} (he : e ∈ entries)
    {selector : Selector} {z : Zone} (hsel : Selector.ofText e.1 = .ok selector)
    (hz : readZone e.1 e.2 = .ok z) :
    (Declared.none.extend entries).toStore.Gives (Declared.none.extend entries).recurse e.1 z
      selector := by
  cases selector with
  | default =>
    have hlast := getLast?_fallbackZone? hkeys he (fallbackZone?_eq_some_iff.mpr ⟨hsel, hz⟩)
    simp only [Store.Gives, Declared.toStore, Declared.extend, Declared.none, hlast, Option.some_or,
      Option.getD_some]
  | network net =>
    have hmem : ⟨e.1, net, z⟩ ∈ entries.filterMap networkZone? :=
      List.mem_filterMap.mpr ⟨e, he, networkZone?_eq_some_iff.mpr ⟨rfl, hsel, hz⟩⟩
    exact List.mem_mergeSort.mpr hmem

/-- **Everything that is written last in a document is in the store that is built of it.** No two
selectors of the document are the same; the servers for everyone are those of the last list for
them; and the store has the zone of each selector, which keeps all that is written last in its
object. -/
theorem keeps_build {text : String} {s : Store} (h : Store.build text = .ok s) :
    ∃ written common, Document.readWritten text = some ⟨written⟩ ∧
      (written.filterMap selectorKey?).Nodup ∧
      (∀ list, Json.Stays (recurseKey, list) written → list.IsListOf Target.ofText common) ∧
      common <+: s.fallback.recurse ∧
      ∀ e ∈ written, e.1 ≠ recurseKey → ∃ selector z, Selector.ofText e.1 = .ok selector ∧
        s.Gives common e.1 z selector ∧ z.Keeps e.2 := by
  obtain ⟨entries, hread, hbuild⟩ := exists_of_build h
  rw [Document.read_eq] at hread
  obtain ⟨⟨written⟩, hwritten, heq⟩ := Option.map_eq_some_iff.mp hread
  have hentries : written.map (fun e => (e.1, e.2.tidy)) = entries :=
    congrArg Document.entries heq
  obtain ⟨hsound, hkeys, rfl⟩ := ofEntries_eq_ok_iff.mp hbuild
  have htidy : ∀ e ∈ written, (e.1, e.2.tidy) ∈ entries := fun e he =>
    hentries ▸ List.mem_map.mpr ⟨e, he, rfl⟩
  refine ⟨written, (Declared.none.extend entries).recurse, hwritten, ?_, fun list hlist => ?_, ?_,
    fun e he hname => ?_⟩
  · rw [← hentries, List.filterMap_map] at hkeys
    exact hkeys
  · refine Json.isListOf_tidy_iff.mp (isListOf_recurse_extend hsound ?_)
    exact hentries ▸ Json.stays_map_iff.mpr ⟨list, hlist, rfl⟩
  · exact List.prefix_append _ _
  · obtain ⟨selector, z, hsel, hz⟩ := (hsound _ (htidy e he)).zone hname
    exact ⟨selector, z, hsel, gives_toStore hkeys (htidy e he) hsel hz, keeps_readZone hz⟩

/-- A document that repeats a name at every level. -/
def repeating : String :=
  "\x7b\"recurse\":[\"192.0.2.1\"],\"default\":\x7b\"a.b\":\x7b\"TXT\":[\"t\"]\x7d," ++
  "\"a.b\":\x7b\"A\":[\"10.0.0.1\"],\"A\":[\"10.0.0.2\"]\x7d\x7d,\"recurse\":[\"192.0.2.2\"]\x7d"

set_option maxRecDepth 1000 in
/-- What is written last is answered and asked. -/
theorem keeps_build_repeating :
    ∃ s, Store.build repeating = .ok s ∧ s.fallback.lookup "a.b." .a = some [.a 0x0a000002] ∧
      [.endpoint (.v4 0xc0000202 53)] <+: s.fallback.recurse := by
  have hsome : (Store.build repeating).toOption.isSome = true := by decide +kernel
  obtain ⟨s, hs⟩ := Option.isSome_iff_exists.mp hsome
  have hbuild := toOption_eq_some_iff.mp hs
  obtain ⟨written, common, hread, _, hcommon, hprefix, hzones⟩ := keeps_build hbuild
  -- the document as it is written
  have hwritten : Document.readWritten repeating = some ⟨
      [("recurse", .array [.string "192.0.2.1"]),
        ("default", .object [("a.b", .object [("TXT", .array [.string "t"])]),
          ("a.b", .object [("A", .array [.string "10.0.0.1"]), ("A", .array [.string "10.0.0.2"])])]),
        ("recurse", .array [.string "192.0.2.2"])]⟩ := by rfl
  rw [hwritten] at hread
  cases hread
  have hfiled : Declaration.IsFiledAs ⟨"a.b", "A", .array [.string "10.0.0.2"]⟩
      ⟨"a.b.", .a, [.a 0x0a000002]⟩ :=
    ⟨by decide +kernel, by decide +kernel, ["10.0.0.2"], rfl, .cons rfl .nil⟩
  refine ⟨s, hbuild, ?_, ?_⟩
  · have hname : "default" ≠ recurseKey := by decide
    obtain ⟨selector, z, hsel, hgives, hkeeps⟩ :=
      hzones _ (List.mem_cons_of_mem _ List.mem_cons_self) hname
    cases hsel
    have hfallback : s.fallback = ⟨z.sets, common ++ z.recurse⟩ := hgives
    rw [hfallback]
    refine (hkeeps.found ⟨"a.b.", .a, [.a 0x0a000002]⟩).mpr ⟨_, ?_, hfiled⟩
    exact ⟨_, _, rfl, by decide, ⟨[_], [], rfl, List.not_mem_nil⟩,
      ⟨[_], [], rfl, List.not_mem_nil⟩⟩
  · have hlist := hcommon _ ⟨[_, _], [], rfl, List.not_mem_nil⟩
    rw [hlist.unique ⟨["192.0.2.2"], rfl, .cons rfl .nil⟩] at hprefix
    exact hprefix

/-- A document with two lists of servers for everyone. -/
def twoLists : String := "\x7b\"recurse\":[\"192.0.2.1\"],\"recurse\":[\"192.0.2.2\"]\x7d"

/-- **The first of two lists of servers for everyone is lost**, and the document is not refused. -/
theorem build_twoLists :
    Document.readWritten twoLists = some ⟨[(recurseKey, .array [.string "192.0.2.1"]),
      (recurseKey, .array [.string "192.0.2.2"])]⟩ ∧
    Target.ofText "192.0.2.1" = .ok (.endpoint (.v4 0xc0000201 53)) ∧
    Store.build twoLists = .ok ⟨[], ⟨[], [.endpoint (.v4 0xc0000202 53)]⟩⟩ := by
  have hbuild : (Store.build twoLists).toOption =
      some ⟨[], ⟨[], [.endpoint (.v4 0xc0000202 53)]⟩⟩ := by
    -- the sort itself does not evaluate
    simp only [Store.build, Store.ofEntries, Declared.toStore, mergeSort_narrower]
    decide +kernel
  exact ⟨rfl, rfl, toOption_eq_some_iff.mp hbuild⟩

end SplitHorizon
