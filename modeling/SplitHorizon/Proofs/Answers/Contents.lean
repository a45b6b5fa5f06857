import Mathlib.Data.List.Forall2
import SplitHorizon.Proofs.Answers.Zone
/-!
# The contents of a zone, declaration by declaration

A zone's object declares something under each type of each of its names. The same name may be
written in several ways and its types be spread over all of them, so that a declaration is told from
another one only by the canonical form of its name and by its kind. A zone that has been read holds
one record set for each declaration, in their order and under different labels. So what is found
under a name and a kind is what the only declaration for them lists (`lookup_readZone_iff`), and no
record set that is filed takes the place of another one.
-/

namespace SplitHorizon

/-! ## Lists of texts -/

/-- An array lists what its texts are read as, one after the other, and holds nothing but texts. -/
def Json.IsListOf {ε α : Type} (read : String → Except ε α) (v : Json) (as : List α) : Prop :=
  ∃ texts, v = .array (texts.map .string) ∧ List.Forall₂ (fun text a => read text = .ok a) texts as

namespace Json

/-- An array is read as a list exactly if it lists that. -/
theorem texts?_eq_some_iff {ε α : Type} {read : String → Except ε α} {v : Json} {as : List α} :
    v.texts? (fun text => (read text).toOption) = some as ↔ v.IsListOf read as := by
  cases v with
  | array items =>
    show items.mapM _ = some as ↔ _
    induction items generalizing as with
    | nil =>
      constructor
      · intro h
        cases h
        exact ⟨[], rfl, .nil⟩
      · intro h
        obtain ⟨texts, heq, hread⟩ := h
        obtain rfl := List.map_eq_nil_iff.mp (Json.array.inj heq).symm
        cases hread
        rfl
    | cons item items ih =>
      simp only [List.mapM_cons, Option.bind_eq_bind, Option.bind_eq_some_iff, ih]
      constructor
      · intro hparts
        obtain ⟨a, ha, as', ⟨texts, heq, hread⟩, h⟩ := hparts
        cases h
        cases item with
        | string text =>
          rw [Json.array.inj heq]
          exact ⟨text :: texts, rfl, .cons (toOption_eq_some_iff.mp ha) hread⟩
        | _ => cases ha
      · intro h
        obtain ⟨texts, heq, hread⟩ := h
        cases hread with
        | nil => cases heq
        | @cons text a texts as' ha hread =>
          obtain ⟨rfl, rfl⟩ := List.cons.inj (Json.array.inj heq)
          exact ⟨a, toOption_eq_some_iff.mpr ha, as', ⟨texts, rfl, hread⟩, rfl⟩
  | _ => exact ⟨nofun, fun ⟨_, h, _⟩ => nomatch h⟩

/-- What an array lists is determined. -/
theorem IsListOf.unique {ε α : Type} {read : String → Except ε α} {v : Json} {as as' : List α}
    (h : v.IsListOf read as) (h' : v.IsListOf read as') : as = as' :=
  Option.some.inj ((texts?_eq_some_iff.mpr h).symm.trans (texts?_eq_some_iff.mpr h'))

theorem values?_eq_some_iff {kind : RecordKind} {v : Json} {values : List RecordValue} :
    v.values? kind = some values ↔ v.IsListOf (RecordValue.read kind) values :=
  texts?_eq_some_iff

theorem targets?_eq_some_iff {v : Json} {ts : List Target} :
    v.targets? = some ts ↔ v.IsListOf Target.ofText ts :=
  texts?_eq_some_iff

end Json

/-! ## Declarations -/

/-- What is written under one type of one name: the name and the type as they are written, and what
stands there. -/
structure Declaration where
  written : String
  label : String
  list : Json

namespace Declaration

/-- The declarations of one member of a zone's object: one for each type under a name. -/
def ofMember (m : String × Json) : List Declaration :=
  if m.1 = recurseKey then []
  else
    match m.2 with
    | .object types => types.map fun t => ⟨m.1, t.1, t.2⟩
    | _ => []

/-- Whether a declaration is one for a name and a kind, in whichever way it writes them. -/
def isFor (name : String) (kind : RecordKind) (d : Declaration) : Bool :=
  (Name.canonical d.written).toOption == some name && RecordKind.ofText? d.label == some kind

/-- A record set holds what a declaration says: it is filed under the canonical form of the name and
under the kind, and its values are those that the declaration lists, in order. -/
structure IsFiledAs (d : Declaration) (s : RecordSet) : Prop where
  name : Name.canonical d.written = .ok s.name
  kind : RecordKind.ofText? d.label = some s.kind
  values : d.list.IsListOf (RecordValue.read s.kind) s.values

/-- A declaration is for what its record set is filed under, and for nothing else. -/
theorem IsFiledAs.isFor_eq {d : Declaration} {s : RecordSet} (h : d.IsFiledAs s) (name : String)
    (kind : RecordKind) : d.isFor name kind = (s.name == name && s.kind == kind) := by
  rw [isFor, h.name, h.kind]
  rfl

end Declaration

/-- All declarations of a zone's object, in order. -/
def declarations (members : List (String × Json)) : List Declaration :=
  members.flatMap Declaration.ofMember

/-- What a declaration is filed as is the record set that it declares. -/
theorem isFiledAs_of_recordSet? {written key : String} (hkey : Name.canonical written = .ok key)
    {t : String × Json} {s : RecordSet} (hs : recordSet? key t = some s) :
    Declaration.IsFiledAs ⟨written, t.1, t.2⟩ s := by
  obtain ⟨hname, hkind, hvalues⟩ := recordSet?_eq_some_iff.mp hs
  exact ⟨hname ▸ hkey, hkind, Json.values?_eq_some_iff.mp hvalues⟩

/-- A sound member declares as many record sets as it has declarations. -/
theorem IsSoundMember.forall₂ {m : String × Json} (hm : IsSoundMember m) :
    List.Forall₂ Declaration.IsFiledAs (Declaration.ofMember m) (recordSets m) := by
  unfold Declaration.ofMember recordSets
  by_cases hrecurse : m.1 = recurseKey
  · rw [if_pos hrecurse, if_pos hrecurse]
    exact .nil
  · obtain ⟨key, types, hkey, hv, hsets⟩ := hm.sets hrecurse
    rw [if_neg hrecurse, if_neg hrecurse, hkey, hv]
    simp only
    clear hv
    induction types with
    | nil => exact .nil
    | cons t types ih =>
      obtain ⟨ht, htypes⟩ := List.forall_mem_cons.mp hsets
      obtain ⟨s, hs⟩ := ht
      rw [List.map_cons, List.flatMap_cons, hs]
      exact .cons (isFiledAs_of_recordSet? hkey hs) (ih htypes)

/-- The declarations of sound members are filed one by one, in their order. -/
theorem forall₂_recordSets {members : List (String × Json)}
    (hsound : ∀ m ∈ members, IsSoundMember m) :
    List.Forall₂ Declaration.IsFiledAs (declarations members) (members.flatMap recordSets) := by
  induction members with
  | nil => exact .nil
  | cons m members ih =>
    obtain ⟨hm, hmembers⟩ := List.forall_mem_cons.mp hsound
    exact List.rel_append hm.forall₂ (ih hmembers)

/-! ## Finding a record set -/

namespace Zone

/-- The record sets of a zone under a name and a kind. -/
def under (z : Zone) (name : String) (kind : RecordKind) : List RecordSet :=
  z.sets.filter fun s => s.name == name && s.kind == kind

/-- A zone answers with the first record set under the name and the kind. -/
theorem lookup_eq_head? (z : Zone) (name : String) (kind : RecordKind) :
    z.lookup name kind = (z.under name kind).head?.map (·.values) := by
  rw [lookup, under, List.head?_filter]

theorem label_of_mem_under {z : Zone} {name : String} {kind : RecordKind} {s : RecordSet}
    (hs : s ∈ z.under name kind) : s.label = (name, kind) := by
  have h := (List.mem_filter.mp hs).2
  rw [Bool.and_eq_true, beq_iff_eq, beq_iff_eq] at h
  exact Prod.ext h.1 h.2

/-- Record sets with different labels are found alone. -/
theorem length_under_le_one {z : Zone} (hz : z.labels.Nodup) (name : String) (kind : RecordKind) :
    (z.under name kind).length ≤ 1 := by
  have hnodup : ((z.under name kind).map RecordSet.label).Nodup :=
    hz.sublist (List.filter_sublist.map RecordSet.label)
  rw [List.map_congr_left fun s => label_of_mem_under, List.map_const', List.nodup_replicate]
    at hnodup
  exact hnodup

end Zone

/-- Of record sets that declarations are filed as, one at most, the first one has the values that
the only declaration lists. -/
theorem head?_values_iff {ds : List Declaration} {sets : List RecordSet}
    (h : List.Forall₂ Declaration.IsFiledAs ds sets) (hone : sets.length ≤ 1) {kind : RecordKind}
    (hkind : ∀ s ∈ sets, s.kind = kind) {values : List RecordValue} :
    sets.head?.map (·.values) = some values ↔
      ∃ d, ds = [d] ∧ d.list.IsListOf (RecordValue.read kind) values := by
  cases h with
  | nil => exact ⟨nofun, fun ⟨_, h, _⟩ => nomatch h⟩
  | @cons d s ds sets hd h =>
    cases h with
    | nil =>
      obtain rfl := hkind s List.mem_cons_self
      rw [List.head?_cons, Option.map_some, Option.some.injEq]
      constructor
      · rintro rfl
        exact ⟨d, rfl, hd.values⟩
      · intro hparts
        obtain ⟨_, heq, hvalues⟩ := hparts
        cases heq
        exact hd.values.unique hvalues
    | cons =>
      rw [List.length_cons, List.length_cons] at hone
      omega

theorem flatMap_listedTargets_of_not_mem {members : List (String × Json)}
    (hnone : recurseKey ∉ members.map Prod.fst) : members.flatMap listedTargets = [] := by
  refine List.flatMap_eq_nil_iff.mpr fun m hm => if_neg ?_
  intro hrecurse
  exact hnone (hrecurse ▸ List.mem_map_of_mem hm)

/-- The servers of a zone's object whose names differ are those of its list. -/
theorem flatMap_listedTargets {members : List (String × Json)}
    (hnames : (members.map Prod.fst).Nodup) {list : Json} (hlist : (recurseKey, list) ∈ members) :
    members.flatMap listedTargets = list.targets?.getD [] := by
  obtain ⟨before, after, rfl⟩ := List.append_of_mem hlist
  rw [List.map_append, List.map_cons, List.perm_middle.nodup_iff, List.nodup_cons,
    List.mem_append, not_or] at hnames
  rw [List.flatMap_append, List.flatMap_cons, flatMap_listedTargets_of_not_mem hnames.1.1,
    flatMap_listedTargets_of_not_mem hnames.1.2, List.nil_append, List.append_nil, listedTargets,
    if_pos rfl]

section

variable {selector : String} {members : List (String × Json)} {z : Zone}

/-- An object is read as a zone exactly if its members are sound and no label is met twice, and the
zone then has all that they declare. -/
theorem readZone_object_eq_ok_iff :
    readZone selector (.object members) = .ok z ↔ (∀ m ∈ members, IsSoundMember m) ∧
      z.labels.Nodup ∧ z = ⟨members.flatMap recordSets, members.flatMap listedTargets⟩ := by
  rw [readZone_eq_ok_iff]
  constructor
  · intro hparts
    obtain ⟨_, heq, hzone⟩ := hparts
    obtain rfl := Json.object.inj heq
    exact hzone
  · intro hzone
    exact ⟨members, rfl, hzone⟩

/-- The declarations of an object that has been read are filed one by one. -/
theorem forall₂_sets (h : readZone selector (.object members) = .ok z) :
    List.Forall₂ Declaration.IsFiledAs (declarations members) z.sets := by
  obtain ⟨hsound, _, rfl⟩ := readZone_object_eq_ok_iff.mp h
  exact forall₂_recordSets hsound

/-- The declarations for a name and a kind are those of the record sets that are found there. -/
theorem forall₂_under (h : readZone selector (.object members) = .ok z) (name : String)
    (kind : RecordKind) :
    List.Forall₂ Declaration.IsFiledAs ((declarations members).filter (Declaration.isFor name kind))
      (z.under name kind) :=
  List.rel_filter (fun {d s} hd => by simp only [hd.isFor_eq]) (forall₂_sets h)

/-- No label is met twice in a zone that has been read. -/
theorem nodup_labels_readZone (h : readZone selector (.object members) = .ok z) :
    z.labels.Nodup :=
  (readZone_object_eq_ok_iff.mp h).2.1

/-- What is found under a name and a kind is what the only declaration for them lists. -/
theorem lookup_iff_filter_isFor (h : readZone selector (.object members) = .ok z) {name : String}
    {kind : RecordKind} {values : List RecordValue} :
    z.lookup name kind = some values ↔
      ∃ d, (declarations members).filter (Declaration.isFor name kind) = [d] ∧
        d.list.IsListOf (RecordValue.read kind) values := by
  rw [Zone.lookup_eq_head?]
  exact head?_values_iff (forall₂_under h name kind)
    (Zone.length_under_le_one (nodup_labels_readZone h) name kind)
    fun s hs => congrArg Prod.snd (Zone.label_of_mem_under hs)

/-- The servers of a zone are those of its list. -/
theorem isListOf_recurse (hnames : (members.map Prod.fst).Nodup)
    (h : readZone selector (.object members) = .ok z) {list : Json}
    (hlist : (recurseKey, list) ∈ members) : list.IsListOf Target.ofText z.recurse := by
  obtain ⟨hsound, _, rfl⟩ := readZone_object_eq_ok_iff.mp h
  obtain ⟨ts, hts⟩ := (hsound _ hlist).targets rfl
  show list.IsListOf Target.ofText (members.flatMap listedTargets)
  rw [flatMap_listedTargets hnames hlist, hts, Option.getD_some]
  exact Json.targets?_eq_some_iff.mp hts

end

/-- **A zone that has been read holds what its object declares, and nothing else.** Every
declaration is filed as one record set, in order, and no two of them under one label. So at most one
declaration is for a name and a kind; and values are found under them exactly if there is one, and
it lists these values. The servers of the zone are those of its list, in order. -/
theorem lookup_readZone_iff {selector : String} {members : List (String × Json)} {z : Zone}
    (hnames : (members.map Prod.fst).Nodup) (h : readZone selector (.object members) = .ok z) :
    List.Forall₂ Declaration.IsFiledAs (declarations members) z.sets ∧ z.labels.Nodup ∧
    (∀ name kind, ((declarations members).filter (Declaration.isFor name kind)).length ≤ 1) ∧
    (∀ name kind values, z.lookup name kind = some values ↔
      ∃ d, (declarations members).filter (Declaration.isFor name kind) = [d] ∧
        d.list.IsListOf (RecordValue.read kind) values) ∧
    (∀ list, (recurseKey, list) ∈ members → list.IsListOf Target.ofText z.recurse) ∧
    (recurseKey ∉ members.map Prod.fst → z.recurse = []) := by
  refine ⟨forall₂_sets h, nodup_labels_readZone h, fun name kind => ?_,
    fun name kind values => lookup_iff_filter_isFor h, fun list => isListOf_recurse hnames h,
    fun hnone => ?_⟩
  · rw [(forall₂_under h name kind).length_eq]
    exact Zone.length_under_le_one (nodup_labels_readZone h) name kind
  · obtain ⟨_, _, rfl⟩ := readZone_object_eq_ok_iff.mp h
    exact flatMap_listedTargets_of_not_mem hnone

/-- A zone's object that writes one name in two ways, with a different type under each. -/
def spread : List (String × Json) :=
  [("A.b", .object [("a", .array [.string "10.0.0.2", .string "10.0.0.1"])]),
    ("a.b.", .object [("TXT", .array [])]),
    ("recurse", .array [.string "192.0.2.1"])]

/-- Both declarations are found under the one canonical name. -/
theorem lookup_readZone_iff_spread :
    (spread.map Prod.fst).Nodup ∧ ∃ z, readZone "default" (.object spread) = .ok z ∧
      z.lookup "a.b." .a = some [.a 0x0a000002, .a 0x0a000001] ∧ z.lookup "a.b." .txt = some [] ∧
      z.recurse = [.endpoint (.v4 0xc0000201 53)] := by
  have hnames : (spread.map Prod.fst).Nodup := by decide +kernel
  have hsome : (readZone "default" (.object spread)).toOption.isSome = true := by decide +kernel
  obtain ⟨z, hz⟩ := Option.isSome_iff_exists.mp hsome
  have hread := toOption_eq_some_iff.mp hz
  obtain ⟨_, _, _, hlookup, hrecurse, _⟩ := lookup_readZone_iff hnames hread
  refine ⟨hnames, z, hread, (hlookup "a.b." .a _).mpr ⟨_, rfl, ?_⟩,
    (hlookup "a.b." .txt _).mpr ⟨_, rfl, ?_⟩, ?_⟩
  · exact ⟨["10.0.0.2", "10.0.0.1"], rfl, .cons rfl (.cons rfl .nil)⟩
  · exact ⟨[], rfl, .nil⟩
  · exact (hrecurse _ (List.mem_of_getLast? rfl)).unique ⟨["192.0.2.1"], rfl, .cons rfl .nil⟩

end SplitHorizon
