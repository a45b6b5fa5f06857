import SplitHorizon.Answers.Load
import SplitHorizon.Proofs.Except
/-!
# What a zone's object declares

The object of a zone, member by member: the record sets and the servers that each member declares,
by itself and without regard to the others. `readZone` takes the members in turn, stops at the first
faulty one and keeps a zone on the way. `readZone_eq_ok_iff` says what this comes to: a zone is read
exactly if every member is sound and no two record sets have one label, and then it holds all that
the members declare, in their order.

So nothing that is read into a zone is lost on the way, and the selector that a zone is read for
shows in the faults alone.
-/

namespace SplitHorizon

/-! ## Lists of texts -/

namespace Json

/-- What the items of an array are read as, if all of them are texts that can be read. -/
def texts? {α : Type} (read : String → Option α) : Json → Option (List α)
  | .array items => items.mapM fun item =>
    match item with
    | .string text => read text
    | _ => none
  | _ => none

/-- The values of a kind that an array spells. -/
def values? (kind : RecordKind) (v : Json) : Option (List RecordValue) :=
  v.texts? fun text => (RecordValue.read kind text).toOption

/-- The servers that an array lists. -/
def targets? (v : Json) : Option (List Target) := v.texts? fun text => (Target.ofText text).toOption

end Json

/-- A list of servers is read exactly if all its items can be. -/
theorem readTargets_eq_ok_iff {selector : String} {v : Json} {ts : List Target} :
    readTargets selector v = .ok ts ↔ v.targets? = some ts := by
  cases v with
  | array items =>
    refine mapM_eq_ok_iff (fun item t => ?_) items ts
    cases item with
    | string text => exact mapError_eq_ok_iff.trans toOption_eq_some_iff.symm
    | _ => exact ⟨nofun, nofun⟩
  | _ => exact ⟨nofun, nofun⟩

/-- A list of values is read exactly if all its items can be read for the kind. -/
theorem readValues_eq_ok_iff {selector name : String} {kind : RecordKind} {v : Json}
    {values : List RecordValue} :
    readValues selector name kind v = .ok values ↔ v.values? kind = some values := by
  cases v with
  | array items =>
    refine mapM_eq_ok_iff (fun item value => ?_) items values
    cases item with
    | string text => exact mapError_eq_ok_iff.trans toOption_eq_some_iff.symm
    | _ => exact ⟨nofun, nofun⟩
  | _ => exact ⟨nofun, nofun⟩

/-! ## Members of a zone's object -/

/-- What a record set is filed under. -/
def RecordSet.label (s : RecordSet) : String × RecordKind := (s.name, s.kind)

/-- The record set that one member of a name's object declares. -/
def recordSet? (key : String) (m : String × Json) : Option RecordSet := do
  let kind ← RecordKind.ofText? m.1
  let values ← m.2.values? kind
  some ⟨key, kind, values⟩

/-- The record sets that one member of a zone's object declares. -/
def recordSets (m : String × Json) : List RecordSet :=
  if m.1 = recurseKey then []
  else
    match Name.canonical m.1, m.2 with
    | .ok key, .object types => types.flatMap fun t => (recordSet? key t).toList
    | _, _ => []

/-- The servers that one member of a zone's object lists. -/
def listedTargets (m : String × Json) : List Target :=
  if m.1 = recurseKey then m.2.targets?.getD [] else []

/-- A member of a zone's object that is not at fault: a list of servers, or a name whose object
declares nothing but record sets. -/
structure IsSoundMember (m : String × Json) : Prop where
  targets : m.1 = recurseKey → ∃ ts, m.2.targets? = some ts
  sets : m.1 ≠ recurseKey → ∃ key types, Name.canonical m.1 = .ok key ∧ m.2 = .object types ∧
    ∀ t ∈ types, ∃ s, recordSet? key t = some s

namespace Zone

/-- The labels of a zone's record sets. -/
def labels (z : Zone) : List (String × RecordKind) := z.sets.map RecordSet.label

/-- A zone with more record sets and more servers behind those it has. -/
def extend (z : Zone) (sets : List RecordSet) (targets : List Target) : Zone :=
  ⟨z.sets ++ sets, z.recurse ++ targets⟩

/-- A zone declares a name and a kind exactly if one of its record sets has that label. -/
theorem declares_iff {z : Zone} {name : String} {kind : RecordKind} :
    z.declares name kind = true ↔ (name, kind) ∈ z.labels := by
  simp only [declares, labels, RecordSet.label, List.any_eq_true, Bool.and_eq_true, beq_iff_eq,
    List.mem_map, Prod.mk.injEq]

end Zone

/-! ## Folds that extend a zone -/

theorem Zone.labels_extend (z : Zone) (sets : List RecordSet) (ts : List Target) :
    (z.extend sets ts).labels = z.labels ++ sets.map RecordSet.label :=
  List.map_append

theorem Zone.extend_nil (z : Zone) : z.extend [] [] = z := by
  simp only [extend, List.append_nil]

theorem Zone.extend_extend (z : Zone) (sets sets' : List RecordSet) (ts ts' : List Target) :
    (z.extend sets ts).extend sets' ts' = z.extend (sets ++ sets') (ts ++ ts') := by
  simp only [extend, List.append_assoc]

/-- A step that files what one item declares, if the item is sound and its labels are new. -/
def Extends {α : Type} (step : Zone → α → Except ConfigFault Zone) (sound : α → Prop)
    (sets : α → List RecordSet) (targets : α → List Target) : Prop :=
  ∀ z a z', z.labels.Nodup → (step z a = .ok z' ↔ sound a ∧
    (z.extend (sets a) (targets a)).labels.Nodup ∧ z' = z.extend (sets a) (targets a))

/-- A fold of such steps files what all items declare. -/
theorem Extends.foldlM_eq_ok_iff {α : Type} {step : Zone → α → Except ConfigFault Zone}
    {sound : α → Prop} {sets : α → List RecordSet} {targets : α → List Target}
    (hstep : Extends step sound sets targets) {as : List α} {z z' : Zone} (hz : z.labels.Nodup) :
    as.foldlM step z = .ok z' ↔ (∀ a ∈ as, sound a) ∧
      (z.extend (as.flatMap sets) (as.flatMap targets)).labels.Nodup ∧
      z' = z.extend (as.flatMap sets) (as.flatMap targets) := by
  have htakes : TakesIn (fun (z : Zone) as => z.extend (as.flatMap sets) (as.flatMap targets))
      fun z => z.labels.Nodup := by
    refine ⟨fun z => ?_, fun z a as => ?_, fun z as hnodup => ?_⟩
    · simp only [List.flatMap_nil, Zone.extend_nil]
    · simp only [List.flatMap_cons, List.flatMap_nil, List.append_nil, Zone.extend_extend]
    · rw [Zone.labels_extend] at hnodup
      exact (List.nodup_append.mp hnodup).1
  refine htakes.foldlM_eq_ok_iff (fun z a z' hz => ?_) hz
  simp only [List.flatMap_singleton]
  exact hstep z a z' hz

/-! ## Reading members -/

/-- A label that is new to distinct ones keeps them distinct. -/
theorem Zone.nodup_labels_extend_singleton {z : Zone} (hz : z.labels.Nodup) (s : RecordSet) :
    (z.extend [s] []).labels.Nodup ↔ s.label ∉ z.labels := by
  rw [labels_extend, List.map_singleton, (List.perm_append_singleton _ _).nodup_iff,
    List.nodup_cons, and_iff_left hz]

/-- A type under a name is added exactly if its values can be read and its label is a new one. -/
theorem addSet_eq_ok_iff {selector name key : String} {z z' : Zone} {t : String × Json} :
    addSet selector name key z t = .ok z' ↔
      ∃ s, recordSet? key t = some s ∧ s.label ∉ z.labels ∧ z' = z.extend [s] [] := by
  unfold addSet recordSet?
  cases hkind : RecordKind.ofText? t.1 with
  | none => exact ⟨nofun, fun ⟨_, h, _⟩ => nomatch h⟩
  | some kind =>
    simp only [Option.bind_eq_bind, Option.bind_some, Option.bind_eq_some_iff, Option.some.injEq]
    by_cases hd : z.declares key kind = true
    · rw [if_pos hd]
      refine ⟨nofun, ?_⟩
      intro hparts
      obtain ⟨s, ⟨values, _, rfl⟩, hnew, _⟩ := hparts
      exact absurd (Zone.declares_iff.mp hd) hnew
    · rw [if_neg hd]
      have hinsert : ∀ s : RecordSet, z.insert s = z.extend [s] [] := fun s => by
        simp only [Zone.insert, Zone.extend, List.append_nil]
      simp only [bind_eq_ok_iff, readValues_eq_ok_iff, hinsert]
      constructor
      · intro hparts
        obtain ⟨values, hvalues, h⟩ := hparts
        cases h
        exact ⟨_, ⟨values, hvalues, rfl⟩, fun h => hd (Zone.declares_iff.mpr h), rfl⟩
      · intro hparts
        obtain ⟨s, ⟨values, hvalues, rfl⟩, _, rfl⟩ := hparts
        exact ⟨values, hvalues, rfl⟩

/-- Adding a type under a name files the record set that it declares. -/
theorem addSet_extends (selector name key : String) :
    Extends (addSet selector name key) (fun t => ∃ s, recordSet? key t = some s)
      (fun t => (recordSet? key t).toList) (fun _ => []) := by
  intro z t z' hz
  rw [addSet_eq_ok_iff]
  show _ ↔ (∃ s, recordSet? key t = some s) ∧
    (z.extend (recordSet? key t).toList []).labels.Nodup ∧
      z' = z.extend (recordSet? key t).toList []
  constructor
  · intro h
    obtain ⟨s, hs, hnew, rfl⟩ := h
    rw [hs, Option.toList_some]
    exact ⟨⟨s, rfl⟩, (Zone.nodup_labels_extend_singleton hz s).mpr hnew, rfl⟩
  · intro h
    obtain ⟨⟨s, hs⟩, hnodup, rfl⟩ := h
    rw [hs, Option.toList_some] at hnodup ⊢
    exact ⟨s, rfl, (Zone.nodup_labels_extend_singleton hz s).mp hnodup, rfl⟩

/-- Adding a member of a zone's object files its record sets and its servers. -/
theorem addMember_extends (selector : String) :
    Extends (addMember selector) IsSoundMember recordSets listedTargets := by
  intro z m z' hz
  unfold addMember recordSets listedTargets
  by_cases hm : m.1 = recurseKey
  · simp only [if_pos hm, bind_eq_ok_iff, readTargets_eq_ok_iff]
    have hsound : IsSoundMember m ↔ ∃ ts, m.2.targets? = some ts :=
      ⟨fun h => h.targets hm, fun h => ⟨fun _ => h, fun hne => absurd hm hne⟩⟩
    rw [hsound, Zone.labels_extend, List.map_nil, List.append_nil]
    constructor
    · intro hparts
      obtain ⟨ts, hts, h⟩ := hparts
      cases h
      refine ⟨⟨ts, hts⟩, hz, ?_⟩
      simp only [hts, Zone.addTargets, Zone.extend, List.append_nil, Option.getD_some]
    · intro hparts
      obtain ⟨⟨ts, hts⟩, _, rfl⟩ := hparts
      refine ⟨ts, hts, ?_⟩
      simp only [hts, Zone.addTargets, Zone.extend, List.append_nil, Option.getD_some]
  · simp only [if_neg hm]
    have hsound : IsSoundMember m ↔ ∃ key types, Name.canonical m.1 = .ok key ∧
        m.2 = .object types ∧ ∀ t ∈ types, ∃ s, recordSet? key t = some s :=
      ⟨fun h => h.sets hm, fun h => ⟨fun he => absurd he hm, fun _ => h⟩⟩
    rw [hsound]
    cases hname : Name.canonical m.1 with
    | error why => exact ⟨nofun, fun ⟨⟨_, _, h, _⟩, _⟩ => nomatch h⟩
    | ok key =>
      cases hv : m.2 with
      | object types =>
        refine ((addSet_extends selector m.1 key).foldlM_eq_ok_iff hz).trans ?_
        have htargets : types.flatMap (fun _ => ([] : List Target)) = [] :=
          List.flatMap_eq_nil_iff.mpr fun _ _ => rfl
        rw [htargets]
        refine and_congr_left fun _ => ⟨fun h => ⟨key, types, rfl, rfl, h⟩, ?_⟩
        intro hparts
        obtain ⟨_, _, h, h', hall⟩ := hparts
        cases h
        cases h'
        exact hall
      | _ => exact ⟨nofun, fun ⟨⟨_, _, _, h, _⟩, _⟩ => nomatch h⟩

/-- **A zone is read exactly if it is an object of sound members whose record sets have different
labels**, and then it holds what they declare, in their order. -/
theorem readZone_eq_ok_iff {selector : String} {v : Json} {z : Zone} :
    readZone selector v = .ok z ↔ ∃ members, v = .object members ∧
      (∀ m ∈ members, IsSoundMember m) ∧ z.labels.Nodup ∧
      z = ⟨members.flatMap recordSets, members.flatMap listedTargets⟩ := by
  cases v with
  | object members =>
    have hempty : Zone.empty.labels.Nodup := List.nodup_nil
    refine ((addMember_extends selector).foldlM_eq_ok_iff hempty).trans ?_
    constructor
    · intro hparts
      obtain ⟨hsound, hnodup, rfl⟩ := hparts
      exact ⟨members, rfl, hsound, hnodup, rfl⟩
    · intro hparts
      obtain ⟨_, h, hsound, hnodup, rfl⟩ := hparts
      cases h
      exact ⟨hsound, hnodup, rfl⟩
  | _ => exact ⟨nofun, fun ⟨_, h, _⟩ => nomatch h⟩

/-! ## Looking up what is declared -/

/-- **A zone's object declares values under a name and a kind**: one of its names has this canonical
form, and one of the types under that name is this kind, with an array that spells the values. -/
inductive Json.Declares : Json → String → RecordKind → List RecordValue → Prop
  | intro {members types : List (String × Json)} {written label name : String} {list : Json}
      {kind : RecordKind} {values : List RecordValue}
      (isMember : (written, .object types) ∈ members) (isName : written ≠ recurseKey)
      (canonical : Name.canonical written = .ok name) (isType : (label, list) ∈ types)
      (isKind : RecordKind.ofText? label = some kind) (spelled : list.values? kind = some values) :
      Declares (.object members) name kind values

/-- A member of a name's object declares a record set exactly if it writes the kind of the set and
lists its values. -/
theorem recordSet?_eq_some_iff {key : String} {t : String × Json} {s : RecordSet} :
    recordSet? key t = some s ↔
      s.name = key ∧ RecordKind.ofText? t.1 = some s.kind ∧ t.2.values? s.kind = some s.values := by
  obtain ⟨name, kind, values⟩ := s
  simp only [recordSet?, Option.bind_eq_bind, Option.bind_eq_some_iff, Option.some.injEq,
    RecordSet.mk.injEq]
  constructor
  · intro h
    obtain ⟨_, hkind, _, hvalues, rfl, rfl, rfl⟩ := h
    exact ⟨rfl, hkind, hvalues⟩
  · intro h
    obtain ⟨rfl, hkind, hvalues⟩ := h
    exact ⟨kind, hkind, values, hvalues, rfl, rfl, rfl⟩

/-- The record sets of all members are those that the object declares. -/
theorem mem_recordSets_iff {members : List (String × Json)} {name : String} {kind : RecordKind}
    {values : List RecordValue} :
    ⟨name, kind, values⟩ ∈ members.flatMap recordSets ↔
      (Json.object members).Declares name kind values := by
  rw [List.mem_flatMap]
  constructor
  · intro h
    obtain ⟨⟨written, v⟩, hm, hs⟩ := h
    unfold recordSets at hs
    split at hs
    · cases hs
    · rename_i hname
      split at hs
      · rename_i key types hkey hv
        obtain ⟨⟨label, list⟩, ht, hs⟩ := List.mem_flatMap.mp hs
        obtain ⟨rfl, hkind, hvalues⟩ := recordSet?_eq_some_iff.mp (Option.mem_toList.mp hs)
        cases hv
        exact .intro hm hname hkey ht hkind hvalues
      · cases hs
  · intro h
    obtain ⟨hm, hname, hkey, ht, hkind, hvalues⟩ := h
    refine ⟨_, hm, ?_⟩
    simp only [recordSets, if_neg hname, hkey]
    exact List.mem_flatMap.mpr ⟨_, ht, Option.mem_toList.mpr
      (recordSet?_eq_some_iff.mpr ⟨rfl, hkind, hvalues⟩)⟩

/-- A zone answers with something exactly for what it declares. -/
theorem Zone.isSome_lookup (z : Zone) (name : String) (kind : RecordKind) :
    (z.lookup name kind).isSome = z.declares name kind := by
  rw [lookup, Option.isSome_map, declares, Bool.eq_iff_iff, List.find?_isSome, List.any_eq_true]

/-- Among record sets with different labels the first one of a label is the only one. -/
theorem Zone.lookup_eq_some_iff {z : Zone} (hz : z.labels.Nodup) {name : String}
    {kind : RecordKind} {values : List RecordValue} :
    z.lookup name kind = some values ↔ ⟨name, kind, values⟩ ∈ z.sets := by
  obtain ⟨sets, recurse⟩ := z
  unfold lookup
  induction sets with
  | nil => exact ⟨nofun, nofun⟩
  | cons s sets ih =>
    obtain ⟨hnew, hsets⟩ := List.nodup_cons.mp hz
    have ih := ih hsets
    rw [List.find?_cons, List.mem_cons]
    cases hs : s.name == name && s.kind == kind with
    | true =>
      obtain ⟨rfl, rfl⟩ : s.name = name ∧ s.kind = kind := by
        simpa only [Bool.and_eq_true, beq_iff_eq] using hs
      simp only [Option.map_some, Option.some.injEq]
      constructor
      · rintro rfl
        exact .inl rfl
      · rintro (h | h)
        · exact congrArg RecordSet.values h.symm
        · exact absurd (List.mem_map_of_mem (f := RecordSet.label) h) hnew
    | false =>
      refine ih.trans ⟨.inr, ?_⟩
      rintro (rfl | h)
      · simp only [BEq.rfl, Bool.and_self, Bool.true_eq_false] at hs
      · exact h

/-- **A zone that has been read holds under a name and a kind what its object declares there.** -/
theorem lookup_readZone {selector : String} {v : Json} {z : Zone}
    (h : readZone selector v = .ok z) {name : String} {kind : RecordKind}
    {values : List RecordValue} :
    z.lookup name kind = some values ↔ v.Declares name kind values := by
  obtain ⟨members, rfl, _, hz, rfl⟩ := readZone_eq_ok_iff.mp h
  rw [Zone.lookup_eq_some_iff hz, mem_recordSets_iff]

end SplitHorizon
