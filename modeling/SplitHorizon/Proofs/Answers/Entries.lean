import SplitHorizon.Proofs.Answers.Zone
import SplitHorizon.Proofs.Selector
/-!
# What a document's entries declare

Each entry by itself: the zone of a network, the zone for everyone else, or the servers for
everyone. `Store.ofEntries` takes the entries in turn and remembers which selectors it has seen.
`ofEntries_eq_ok_iff` says what this comes to: a store is built exactly if every entry is sound and
no two selectors are the same, and then it is the store of what the entries declare. Neither of the
two conditions looks at the order of the entries.
-/

namespace SplitHorizon

/-! ## One entry -/

/-- The zone that an entry declares for a network. -/
def networkZone? (e : String × Json) : Option NetworkZone :=
  match Selector.ofText e.1, readZone e.1 e.2 with
  | .ok (.network net), .ok z => some ⟨e.1, net, z⟩
  | _, _ => none

/-- The zone that an entry declares for everyone else. -/
def fallbackZone? (e : String × Json) : Option Zone :=
  match Selector.ofText e.1, readZone e.1 e.2 with
  | .ok .default, .ok z => some z
  | _, _ => none

/-- The servers that an entry lists for everyone. -/
def commonTargets? (e : String × Json) : Option (List Target) :=
  if e.1 = recurseKey then e.2.targets? else none

/-- The form in which the key of an entry's selector is compared. -/
def selectorKey? (e : String × Json) : Option String :=
  if e.1 = recurseKey then none else some (keyForm e.1)

/-- An entry that is not at fault: servers for everyone, or a selector with its zone. -/
structure IsSoundEntry (e : String × Json) : Prop where
  targets : e.1 = recurseKey → ∃ ts, e.2.targets? = some ts
  zone : e.1 ≠ recurseKey → ∃ selector z, Selector.ofText e.1 = .ok selector ∧
    readZone e.1 e.2 = .ok z

/-- The key of the servers for everyone is no selector. -/
theorem ofText_recurseKey : Selector.ofText recurseKey = .error .unrecognized := by
  rfl

/-- The key of a selector is not the one of servers for everyone. -/
theorem ne_recurseKey_of_ofText {key : String} {selector : Selector}
    (h : Selector.ofText key = .ok selector) : key ≠ recurseKey := by
  rintro rfl
  rw [ofText_recurseKey] at h
  cases h

/-- The selectors for everyone else are those with one key. -/
theorem ofText_eq_default_iff {key : String} :
    Selector.ofText key = .ok .default ↔ keyForm key = "default" := by
  have hfold : Text.fold "default".toList = "default".toList := by decide
  rw [Selector.ofText, Selector.read_default_iff, Text.sameLetters, beq_iff_eq, hfold, keyForm]
  constructor
  · intro h
    rw [h, String.ofList_toList]
  · intro h
    rw [← h, String.toList_ofList]

/-- An entry declares a zone for a network exactly if its key is read as the network and its value
as the zone. -/
theorem networkZone?_eq_some_iff {e : String × Json} {z : NetworkZone} :
    networkZone? e = some z ↔
      z.key = e.1 ∧ Selector.ofText e.1 = .ok (.network z.network) ∧
        readZone e.1 e.2 = .ok z.zone := by
  obtain ⟨key, net, zone⟩ := z
  unfold networkZone?
  constructor
  · intro h
    split at h
    · cases h
      exact ⟨rfl, ‹_›, ‹_›⟩
    · cases h
  · intro hparts
    obtain ⟨rfl, hnet, hzone⟩ := hparts
    rw [hnet, hzone]

/-- An entry declares a zone for everyone else exactly if its key says so and its value is read as
the zone. -/
theorem fallbackZone?_eq_some_iff {e : String × Json} {z : Zone} :
    fallbackZone? e = some z ↔ Selector.ofText e.1 = .ok .default ∧ readZone e.1 e.2 = .ok z := by
  unfold fallbackZone?
  constructor
  · intro h
    split at h
    · cases h
      exact ⟨‹_›, ‹_›⟩
    · cases h
  · intro hparts
    obtain ⟨hdefault, hzone⟩ := hparts
    rw [hdefault, hzone]

/-! ## All entries -/

namespace Declared

/-- What has been declared, with what more entries declare. -/
def extend (d : Declared) (entries : List (String × Json)) : Declared where
  keys := (entries.filterMap selectorKey?).reverse ++ d.keys
  networks := d.networks ++ entries.filterMap networkZone?
  fallback := (entries.filterMap fallbackZone?).getLast?.or d.fallback
  recurse := (entries.filterMap commonTargets?).getLast?.getD d.recurse

theorem extend_nil (d : Declared) : d.extend [] = d := by
  simp only [extend, List.filterMap_nil, List.reverse_nil, List.nil_append, List.append_nil,
    List.getLast?_nil, Option.none_or, Option.getD_none]

theorem extend_append (d : Declared) (entries entries' : List (String × Json)) :
    d.extend (entries ++ entries') = (d.extend entries).extend entries' := by
  simp only [extend, List.filterMap_append, List.reverse_append, List.append_assoc,
    List.getLast?_append, Option.or_assoc, Declared.mk.injEq, true_and]
  cases (entries'.filterMap commonTargets?).getLast? <;> rfl

/-- An entry that lists servers for everyone declares nothing else. -/
theorem extend_recurse {d : Declared} {e : String × Json} (he : e.1 = recurseKey)
    {ts : List Target} (hts : e.2.targets? = some ts) :
    d.extend [e] = { d with recurse := ts } := by
  have hsel : Selector.ofText e.1 = .error .unrecognized := he ▸ ofText_recurseKey
  have hnetwork : networkZone? e = Option.none := by simp only [networkZone?, hsel]
  have hfallback : fallbackZone? e = Option.none := by simp only [fallbackZone?, hsel]
  simp only [extend, List.filterMap_cons, List.filterMap_nil, hnetwork, hfallback, selectorKey?,
    commonTargets?, if_pos he, hts, List.append_nil, List.reverse_nil, List.nil_append,
    List.getLast?_nil, List.getLast?_singleton, Option.none_or, Option.getD_some]

/-- An entry with a selector declares its key and its zone. -/
theorem extend_zone {d : Declared} {e : String × Json} (he : e.1 ≠ recurseKey)
    {selector : Selector} {z : Zone} (hsel : Selector.ofText e.1 = .ok selector)
    (hz : readZone e.1 e.2 = .ok z) :
    d.extend [e] =
      match selector with
      | .default => { d with keys := keyForm e.1 :: d.keys, fallback := some z }
      | .network net =>
        { d with keys := keyForm e.1 :: d.keys, networks := d.networks ++ [⟨e.1, net, z⟩] } := by
  cases selector with
  | default =>
    simp only [extend, List.filterMap_cons, List.filterMap_nil, networkZone?, fallbackZone?,
      selectorKey?, commonTargets?, hsel, hz, if_neg he, List.append_nil, List.reverse_singleton,
      List.singleton_append, List.getLast?_singleton, List.getLast?_nil, Option.some_or,
      Option.getD_none]
  | network net =>
    simp only [extend, List.filterMap_cons, List.filterMap_nil, networkZone?, fallbackZone?,
      selectorKey?, commonTargets?, hsel, hz, if_neg he, List.reverse_singleton,
      List.singleton_append, List.getLast?_nil, Option.none_or, Option.getD_none]

/-- **An entry is added exactly if it is sound and no selector is met twice with it.** What it
declares is then added, and nothing else. -/
theorem add_eq_ok_iff {d d' : Declared} (hd : d.keys.Nodup) {e : String × Json} :
    d.add e = .ok d' ↔ IsSoundEntry e ∧ (d.extend [e]).keys.Nodup ∧ d' = d.extend [e] := by
  unfold add
  by_cases he : e.1 = recurseKey
  · have hsound : IsSoundEntry e ↔ ∃ ts, e.2.targets? = some ts :=
      ⟨fun h => h.targets he, fun h => ⟨fun _ => h, fun hne => absurd he hne⟩⟩
    simp only [if_pos he, bind_eq_ok_iff, readTargets_eq_ok_iff, hsound]
    constructor
    · intro hparts
      obtain ⟨ts, hts, h⟩ := hparts
      cases h
      rw [extend_recurse he hts]
      exact ⟨⟨ts, hts⟩, hd, rfl⟩
    · intro hparts
      obtain ⟨⟨ts, hts⟩, _, rfl⟩ := hparts
      rw [extend_recurse he hts]
      exact ⟨ts, hts, rfl⟩
  · have hsound : IsSoundEntry e ↔
        ∃ selector z, Selector.ofText e.1 = .ok selector ∧ readZone e.1 e.2 = .ok z :=
      ⟨fun h => h.zone he, fun h => ⟨fun h => absurd h he, fun _ => h⟩⟩
    have hkeys : (d.extend [e]).keys.Nodup ↔ keyForm e.1 ∉ d.keys := by
      simp only [extend, List.filterMap_cons, List.filterMap_nil, selectorKey?, if_neg he,
        List.reverse_singleton, List.singleton_append, List.nodup_cons, and_iff_left hd]
    rw [if_neg he, hsound, hkeys]
    cases hsel : Selector.ofText e.1 with
    | error why => exact ⟨nofun, fun ⟨⟨_, _, h, _⟩, _⟩ => nomatch h⟩
    | ok selector =>
      by_cases hseen : keyForm e.1 ∈ d.keys
      · simp only [List.contains_iff_mem.mpr hseen, if_true]
        exact ⟨nofun, fun ⟨_, h, _⟩ => absurd hseen h⟩
      · have hcontains : d.keys.contains (keyForm e.1) = false := by
          rw [← Bool.not_eq_true, List.contains_iff_mem]
          exact hseen
        simp only [hcontains, Bool.false_eq_true, if_false, bind_eq_ok_iff]
        constructor
        · intro hparts
          obtain ⟨z, hz, h⟩ := hparts
          rw [extend_zone he hsel hz]
          refine ⟨⟨selector, z, rfl, hz⟩, hseen, ?_⟩
          cases selector <;> cases h <;> rfl
        · intro hparts
          obtain ⟨⟨selector', z, h, hz⟩, _, rfl⟩ := hparts
          cases h
          rw [extend_zone he hsel hz]
          refine ⟨z, hz, ?_⟩
          cases selector <;> rfl

/-- Entries are taken in exactly if each is sound and their selectors are new and different. -/
theorem foldlM_add_eq_ok_iff {entries : List (String × Json)} {d d' : Declared}
    (hd : d.keys.Nodup) :
    entries.foldlM Declared.add d = .ok d' ↔ (∀ e ∈ entries, IsSoundEntry e) ∧
      (d.extend entries).keys.Nodup ∧ d' = d.extend entries := by
  have htakes : TakesIn extend fun d => d.keys.Nodup :=
    ⟨extend_nil, fun d e entries => extend_append d [e] entries,
      fun d entries hnodup => (List.nodup_append.mp hnodup).2.1⟩
  exact htakes.foldlM_eq_ok_iff (fun d e d' hd => add_eq_ok_iff hd) hd

end Declared

/-- **A store is built exactly if every entry is sound and no two selectors are the same**, and then
it is that of what all entries declare. -/
theorem ofEntries_eq_ok_iff {entries : List (String × Json)} {s : Store} :
    Store.ofEntries entries = .ok s ↔ (∀ e ∈ entries, IsSoundEntry e) ∧
      (entries.filterMap selectorKey?).Nodup ∧ s = (Declared.none.extend entries).toStore := by
  have hkeys : (Declared.none.extend entries).keys.Nodup ↔
      (entries.filterMap selectorKey?).Nodup := by
    rw [show (Declared.none.extend entries).keys = (entries.filterMap selectorKey?).reverse from
      List.append_nil _, (List.reverse_perm _).nodup_iff]
  unfold Store.ofEntries
  rw [bind_eq_ok_iff, ← hkeys]
  have hnone : Declared.none.keys.Nodup := List.nodup_nil
  simp only [Declared.foldlM_add_eq_ok_iff hnone]
  constructor
  · intro hparts
    obtain ⟨d, ⟨hsound, hnodup, rfl⟩, h⟩ := hparts
    cases h
    exact ⟨hsound, hnodup, rfl⟩
  · intro hparts
    obtain ⟨hsound, hnodup, rfl⟩ := hparts
    exact ⟨_, ⟨hsound, hnodup, rfl⟩, rfl⟩

/-- A text that is read as a document builds what the document's entries build. -/
theorem build_of_read {text : String} {entries : List (String × Json)}
    (h : Document.read text = some ⟨entries⟩) : Store.build text = Store.ofEntries entries := by
  unfold Store.build
  rw [h]

/-- What is built is built of a document. -/
theorem exists_of_build {text : String} {s : Store} (h : Store.build text = .ok s) :
    ∃ entries, Document.read text = some ⟨entries⟩ ∧ Store.ofEntries entries = .ok s := by
  unfold Store.build at h
  split at h
  · cases h
  · exact ⟨_, ‹_›, h⟩

/-! ## The zone for everyone else -/

/-- Of entries with different selectors one at most is for everyone else, so its zone is the one
that is kept. -/
theorem getLast?_fallbackZone? {entries : List (String × Json)}
    (hkeys : (entries.filterMap selectorKey?).Nodup) {e : String × Json} (he : e ∈ entries)
    {z : Zone} (hz : fallbackZone? e = some z) :
    (entries.filterMap fallbackZone?).getLast? = some z := by
  have hkey : ∀ e z, fallbackZone? e = some z → selectorKey? e = some "default" := by
    intro e z hz
    have hsel := (fallbackZone?_eq_some_iff.mp hz).1
    rw [selectorKey?, if_neg (ne_recurseKey_of_ofText hsel), ofText_eq_default_iff.mp hsel]
  obtain ⟨before, after, rfl⟩ := List.append_of_mem he
  have hlater : after.filterMap fallbackZone? = [] := by
    rw [List.filterMap_eq_nil_iff]
    intro e' he'
    cases hz' : fallbackZone? e' with
    | none => rfl
    | some z' =>
      rw [List.filterMap_append, List.filterMap_cons_some (hkey e z hz), List.nodup_append] at hkeys
      exact absurd (List.mem_filterMap.mpr ⟨e', he', hkey e' z' hz'⟩)
        (List.nodup_cons.mp hkeys.2.1).1
  rw [List.filterMap_append, List.filterMap_cons_some hz, hlater, List.getLast?_concat]

/-- What a built store answers everyone with is what the entry for everyone else declares. -/
theorem lookup_fallback {entries : List (String × Json)} {s : Store}
    (h : Store.ofEntries entries = .ok s) {name : String} {kind : RecordKind}
    {values : List RecordValue} :
    s.fallback.lookup name kind = some values ↔
      ∃ e ∈ entries, Selector.ofText e.1 = .ok .default ∧ e.2.Declares name kind values := by
  obtain ⟨hsound, hkeys, rfl⟩ := ofEntries_eq_ok_iff.mp h
  have hlookup : (Declared.none.extend entries).toStore.fallback.lookup name kind =
      (((entries.filterMap fallbackZone?).getLast?).getD .empty).lookup name kind := by
    simp only [Declared.toStore, Declared.extend, Declared.none, Option.or_none, Zone.lookup]
  rw [hlookup]
  constructor
  · intro hvalues
    cases hlast : (entries.filterMap fallbackZone?).getLast? with
    | none =>
      rw [hlast] at hvalues
      cases hvalues
    | some z =>
      obtain ⟨e, he, hz⟩ := List.mem_filterMap.mp (List.mem_of_getLast? hlast)
      obtain ⟨hsel, hread⟩ := fallbackZone?_eq_some_iff.mp hz
      rw [hlast, Option.getD_some] at hvalues
      exact ⟨e, he, hsel, (lookup_readZone hread).mp hvalues⟩
  · intro hparts
    obtain ⟨e, he, hsel, hvalues⟩ := hparts
    obtain ⟨_, z, _, hread⟩ := (hsound e he).zone (ne_recurseKey_of_ofText hsel)
    rw [getLast?_fallbackZone? hkeys he (fallbackZone?_eq_some_iff.mpr ⟨hsel, hread⟩),
      Option.getD_some]
    exact (lookup_readZone hread).mpr hvalues

end SplitHorizon
