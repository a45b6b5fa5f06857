import SplitHorizon.Proofs.Answers.Kinds
import SplitHorizon.Proofs.Answers.Targets
import SplitHorizon.Proofs.Name.Canonical
/-!
# What holds of every store that is built

The networks of a store are those of its document, the longest prefix first and in one length as
they are declared, and no two of their keys are the same. The default zone is not among them. In
every zone the record sets are filed under canonical names, each under a label of its own, and hold
nothing but values of their kind. `represents_build` says that all of this holds of the store of any
document; a look-up relies on each part of it.
-/

namespace SplitHorizon

/-! ## Zones -/

/-- A zone as it is looked up: a label is met once, the names are canonical, in small letters and
with the dot at the end, and a record set has values of the kind that it is filed under. -/
structure Zone.IsFiled (z : Zone) : Prop where
  labels : z.labels.Nodup
  canonical : ∀ s ∈ z.sets, Name.canonical s.name = .ok s.name
  smallLetters : ∀ s ∈ z.sets, Text.fold s.name.toList = s.name.toList
  dot : ∀ s ∈ z.sets, s.name.toList.getLast? = some '.'
  kinds : ∀ s ∈ z.sets, ∀ v ∈ s.values, v.kind = s.kind

theorem Zone.isFiled_empty : Zone.empty.IsFiled :=
  ⟨List.nodup_nil, nofun, nofun, nofun, nofun⟩

/-- **A zone that has been read is in order.** -/
theorem isFiled_readZone {selector : String} {v : Json} {z : Zone}
    (h : readZone selector v = .ok z) : z.IsFiled := by
  obtain ⟨members, _, _, hlabels, hz⟩ := readZone_eq_ok_iff.mp h
  have hdeclares : ∀ s ∈ z.sets, (Json.object members).Declares s.name s.kind s.values := by
    intro s hs
    rw [hz] at hs
    exact mem_recordSets_iff.mp hs
  have hname : ∀ s ∈ z.sets, ∃ written, Name.canonical written = .ok s.name := by
    intro s hs
    cases hdeclares s hs with
    | intro _ _ canonical _ _ _ => exact ⟨_, canonical⟩
  refine ⟨hlabels, fun s hs => ?_, fun s hs => ?_, fun s hs => ?_, fun s hs v hv => ?_⟩
  · obtain ⟨_, hcanonical⟩ := hname s hs
    exact Name.canonical_canonical hcanonical
  · obtain ⟨_, hcanonical⟩ := hname s hs
    exact (Name.fold_canonical hcanonical).1
  · obtain ⟨_, hcanonical⟩ := hname s hs
    exact (Name.fold_canonical hcanonical).2
  · exact ((hdeclares s hs).isOfKind v hv).kind_eq

/-! ## Networks -/

/-- The key and the network of a zone. -/
def NetworkZone.selector (z : NetworkZone) : String × Network := (z.key, z.network)

/-- The key and the network of an entry, if its selector is a network. -/
def network? (e : String × Json) : Option (String × Network) :=
  match Selector.ofText e.1 with
  | .ok (.network net) => some (e.1, net)
  | _ => none

/-- The selectors of networks that a document declares, in order. -/
def declaredNetworks (entries : List (String × Json)) : List (String × Network) :=
  entries.filterMap network?

/-- The network of an entry is what its key is read as. -/
theorem network?_eq_some_iff {e : String × Json} {key : String} {net : Network} :
    network? e = some (key, net) ↔ key = e.1 ∧ Selector.ofText e.1 = .ok (.network net) := by
  unfold network?
  split
  · rename_i net' hnet
    rw [Option.some.injEq, Prod.mk.injEq, hnet]
    constructor
    · rintro ⟨rfl, rfl⟩
      exact ⟨rfl, rfl⟩
    · rintro ⟨rfl, h⟩
      cases h
      exact ⟨rfl, rfl⟩
  · rename_i hnet
    exact ⟨nofun, fun h => absurd h.2 (hnet net)⟩

/-- A sound entry for a network has a zone. -/
theorem map_selector_networkZone? {e : String × Json} (he : IsSoundEntry e) :
    (networkZone? e).map NetworkZone.selector = network? e := by
  unfold network?
  split
  · rename_i net hnet
    obtain ⟨_, z, _, hread⟩ := he.zone (ne_recurseKey_of_ofText hnet)
    have hz : networkZone? e = some ⟨e.1, net, z⟩ := networkZone?_eq_some_iff.mpr ⟨rfl, hnet, hread⟩
    rw [hz]
    rfl
  · rename_i hnet
    cases hz : networkZone? e with
    | none => rfl
    | some z => exact absurd (networkZone?_eq_some_iff.mp hz).2.1 (hnet z.network)

section

variable {entries : List (String × Json)}

/-- The zones of sound entries are for the networks that the entries declare, in their order. -/
theorem map_selector_filterMap (hsound : ∀ e ∈ entries, IsSoundEntry e) :
    (entries.filterMap networkZone?).map NetworkZone.selector = declaredNetworks entries := by
  rw [List.map_filterMap]
  exact List.filterMap_congr fun e he => map_selector_networkZone? (hsound e he)

/-- Selectors that differ have keys that differ. -/
theorem nodup_keyForm_declaredNetworks (hkeys : (entries.filterMap selectorKey?).Nodup) :
    ((declaredNetworks entries).map fun n => keyForm n.1).Nodup := by
  rw [List.Nodup, List.pairwise_map, declaredNetworks, List.pairwise_filterMap]
  rw [List.Nodup, List.pairwise_filterMap] at hkeys
  refine hkeys.imp fun {e₁ e₂} hne n₁ hn₁ n₂ hn₂ => ?_
  obtain ⟨h₁, hnet₁⟩ := network?_eq_some_iff.mp hn₁
  obtain ⟨h₂, hnet₂⟩ := network?_eq_some_iff.mp hn₂
  rw [h₁, h₂]
  exact hne _ (if_neg (ne_recurseKey_of_ofText hnet₁)) _ (if_neg (ne_recurseKey_of_ofText hnet₂))

/-- One entry at most is written as `default`, in whichever spelling. -/
theorem length_filter_default (hkeys : (entries.filterMap selectorKey?).Nodup) :
    (entries.filter fun e => keyForm e.1 == "default").length ≤ 1 := by
  have hsame : ∀ e ∈ entries, (keyForm e.1 == "default") = isFallback e := by
    intro e _
    rw [Bool.eq_iff_iff, beq_iff_eq, isFallback_eq_true_iff, ofText_eq_default_iff]
  rw [List.filter_congr hsame]
  exact length_filter_isFallback hkeys

end

/-! ## Stores -/

/-- All zones of a store. -/
def Store.zones (s : Store) : List Zone := s.networks.map (·.zone) ++ [s.fallback]

/-- A store as it is made of a document. -/
structure Store.Represents (s : Store) (entries : List (String × Json)) : Prop where
  /-- The networks are those that are declared, each once. -/
  declared : (s.networks.map NetworkZone.selector).Perm (declaredNetworks entries)
  narrowing : s.networks.Pairwise fun a b => b.network.length ≤ a.network.length
  /-- Networks of one length stand as they are declared. -/
  inOrder : ∀ n, (s.networks.map NetworkZone.selector).filter (·.2.length == n) =
    (declaredNetworks entries).filter (·.2.length == n)
  keys : (s.networks.map fun z => keyForm z.key).Nodup
  defaultOnce : (entries.filter fun e => keyForm e.1 == "default").length ≤ 1
  noDefault : ∀ z ∈ s.networks, keyForm z.key ≠ "default"
  filed : ∀ z ∈ s.zones, z.IsFiled

/-- The zone for everyone else is one that has been read, or there is none. -/
theorem isFiled_fallback {entries : List (String × Json)} :
    (Declared.none.extend entries).toStore.fallback.IsFiled := by
  have hread : ((entries.filterMap fallbackZone?).getLast?.getD .empty).IsFiled := by
    cases hlast : (entries.filterMap fallbackZone?).getLast? with
    | none => exact Zone.isFiled_empty
    | some z =>
      obtain ⟨e, _, hz⟩ := List.mem_filterMap.mp (List.mem_of_getLast? hlast)
      exact isFiled_readZone (fallbackZone?_eq_some_iff.mp hz).2
  have hsets : (Declared.none.extend entries).toStore.fallback.sets =
      ((entries.filterMap fallbackZone?).getLast?.getD .empty).sets := by
    simp only [Declared.toStore, Declared.extend, Declared.none, Option.or_none]
  refine ⟨?_, ?_, ?_, ?_, ?_⟩
  · rw [Zone.labels, hsets]
    exact hread.labels
  all_goals rw [hsets]
  · exact hread.canonical
  · exact hread.smallLetters
  · exact hread.dot
  · exact hread.kinds

/-- **A store that is made of a document represents it**: its networks are those declared, the
longest prefix first and otherwise in their order, no key is met twice, and every zone is filed. -/
theorem represents_ofEntries {entries : List (String × Json)} {s : Store}
    (h : Store.ofEntries entries = .ok s) : s.Represents entries := by
  obtain ⟨hsound, hkeys, hs⟩ := ofEntries_eq_ok_iff.mp h
  have hnetworks : s.networks = (entries.filterMap networkZone?).mergeSort
      fun a b => b.network.length ≤ a.network.length := by rw [hs]; rfl
  have hperm : s.networks.Perm (entries.filterMap networkZone?) := by
    rw [hnetworks]
    exact List.mergeSort_perm _ _
  have hclass : ∀ n, (s.networks.filter fun z => z.network.length == n) =
      (entries.filterMap networkZone?).filter fun z => z.network.length == n := by
    intro n
    rw [hnetworks]
    exact filter_mergeSort (fun z : NetworkZone => z.network.length) _ n
  have hselectors := map_selector_filterMap hsound
  have hdeclared : (s.networks.map NetworkZone.selector).Perm (declaredNetworks entries) := by
    rw [← hselectors]
    exact hperm.map _
  have hmem : ∀ z ∈ s.networks, ∃ e, networkZone? e = some z := by
    intro z hz
    obtain ⟨e, _, he⟩ := List.mem_filterMap.mp (hperm.mem_iff.mp hz)
    exact ⟨e, he⟩
  refine ⟨hdeclared, ?_, fun n => ?_, ?_, length_filter_default hkeys, fun z hz => ?_,
    fun z hz => ?_⟩
  · rw [hnetworks]
    exact pairwise_mergeSort_narrower _
  · have hlength : (fun n' : String × Network => n'.2.length == n) ∘ NetworkZone.selector =
        fun z => z.network.length == n := rfl
    rw [← hselectors, List.filter_map, List.filter_map, hlength, hclass]
  · have hforms : ((s.networks.map NetworkZone.selector).map fun n => keyForm n.1).Nodup :=
      (hdeclared.map _).nodup_iff.mpr (nodup_keyForm_declaredNetworks hkeys)
    rw [List.map_map] at hforms
    exact hforms
  · obtain ⟨e, he⟩ := hmem z hz
    obtain ⟨hkey, hnet, _⟩ := networkZone?_eq_some_iff.mp he
    intro hdefault
    rw [hkey, ← ofText_eq_default_iff, hnet] at hdefault
    cases hdefault
  · rcases List.mem_append.mp hz with hz | hz
    · obtain ⟨n, hn, rfl⟩ := List.mem_map.mp hz
      obtain ⟨e, he⟩ := hmem n hn
      exact isFiled_readZone (networkZone?_eq_some_iff.mp he).2.2
    · rw [List.mem_singleton.mp hz, hs]
      exact isFiled_fallback

/-- **Every store that is built is in order.** Its networks are those of its document by falling
prefix length, those of one length as they are declared, and no two keys are the same but for blanks
around them and letter case; `default` is declared at most once and is no network; and each zone is
filed under canonical names, with values of the kinds that they are filed under. -/
theorem represents_build {text : String} {s : Store} (h : Store.build text = .ok s) :
    ∃ d, Document.read text = some d ∧ s.Represents d.entries := by
  obtain ⟨entries, hread, hbuild⟩ := exists_of_build h
  exact ⟨⟨entries⟩, hread, represents_ofEntries hbuild⟩

/-- The store of two networks of one length, a narrower one, and a zone for everyone else. -/
theorem represents_build_overlapping :
    ∃ s d, Store.build overlapping = .ok s ∧ Document.read overlapping = some d ∧
      s.Represents d.entries := by
  have hsome : (Store.build overlapping).toOption.isSome = true := by decide +kernel
  obtain ⟨s, hs⟩ := Option.isSome_iff_exists.mp hsome
  have hbuild := toOption_eq_some_iff.mp hs
  obtain ⟨d, hread, hrepresents⟩ := represents_build hbuild
  exact ⟨s, d, hbuild, hread, hrepresents⟩

end SplitHorizon
