import Mathlib.Data.Set.Card
import SplitHorizon.Proofs.Answers.Invariant
import SplitHorizon.Proofs.Answers.Presence
import SplitHorizon.Proofs.Answers.Targets
/-!
# What the numbers of a store count

A store is described by three numbers, which are taken from its zones. They may be read off the
document as well (`counts_build`). A record set is a type under a name under a selector, as the
three are written, and it is one that a look-up finds in one of the zones. A server is a text in a
list, as often as it is written. The selector for everyone else counts if it declares a record set
or if servers are listed for everyone or under it; a name without types under it declares none.

Nothing is counted twice and nothing is lost, because what is declared twice is refused. Two things
that are written can still fall together without a fault, names that are repeated to the letter in
a zone's object and lists of servers for everyone, so a document has neither of them here.
-/

namespace SplitHorizon

/-! ## Counting items by their places -/

section

variable {α β : Type}

/-- Numbers that are added up over a list. -/
theorem foldr_length_add (f : α → List β) (as : List α) (n : Nat) :
    as.foldr (fun a n => (f a).length + n) n = (as.flatMap f).length + n := by
  induction as with
  | nil => simp
  | cons a as ih => simp [ih, Nat.add_assoc]

theorem length_flatMap_congr {γ : Type} {f : α → List β} {g : α → List γ} {as : List α}
    (h : ∀ a ∈ as, (f a).length = (g a).length) :
    (as.flatMap f).length = (as.flatMap g).length := by
  rw [List.length_flatMap, List.length_flatMap, List.map_congr_left h]

/-- What the items of a list have, each with the place of its item. -/
def located (f : α → List β) (as : List α) : List (Nat × β) :=
  as.zipIdx.flatMap fun q => (f q.1).map (Prod.mk q.2)

/-- What is found at a place is what the item at that place has. -/
theorem mem_located_iff {f : α → List β} {as : List α} {p : Nat × β} :
    p ∈ located f as ↔ ∃ a, as[p.1]? = some a ∧ p.2 ∈ f a := by
  simp only [located, List.mem_flatMap, List.mem_zipIdx_iff_getElem?, List.mem_map]
  constructor
  · intro h
    obtain ⟨q, hq, b, hb, rfl⟩ := h
    exact ⟨q.1, hq, hb⟩
  · intro h
    obtain ⟨a, ha, hp⟩ := h
    exact ⟨(a, p.1), ha, p.2, hp, rfl⟩

theorem length_located (f : α → List β) (as : List α) :
    (located f as).length = (as.flatMap f).length := by
  have hfst : as.flatMap f = as.zipIdx.flatMap fun q => f q.1 := by
    conv_lhs => rw [← List.zipIdx_map_fst 0 as, List.flatMap_map]
  rw [hfst]
  exact length_flatMap_congr fun q _ => List.length_map _

/-- What each item has once is located once, since no two items have one place. -/
theorem nodup_located {f : α → List β} {as : List α} (hf : ∀ a ∈ as, (f a).Nodup) :
    (located f as).Nodup := by
  have hplaces : (as.zipIdx.map Prod.snd).Nodup := by
    rw [List.zipIdx_map_snd]
    exact List.nodup_range'
  refine List.nodup_flatMap.mpr ⟨fun q hq => ?_, ?_⟩
  · exact (hf q.1 (List.fst_mem_of_mem_zipIdx hq)).map (Prod.mk_right_injective q.2)
  · refine (List.pairwise_map.mp hplaces).imp fun {q r} hne p hq hr => ?_
    obtain ⟨_, _, rfl⟩ := List.mem_map.mp hq
    obtain ⟨_, _, heq⟩ := List.mem_map.mp hr
    exact hne (congrArg Prod.fst heq).symm

/-- What the items have is as many as it is in one list. -/
theorem encard_located {f : α → List β} {as : List α} (hf : ∀ a ∈ as, (f a).Nodup) :
    {p : Nat × β | ∃ a, as[p.1]? = some a ∧ p.2 ∈ f a}.encard = (as.flatMap f).length := by
  classical
  have hset : {p : Nat × β | ∃ a, as[p.1]? = some a ∧ p.2 ∈ f a} = (located f as).toFinset := by
    ext p
    rw [Set.mem_ofPred_eq, List.coe_toFinset, Set.mem_ofPred_eq, mem_located_iff]
  rw [hset, Set.encard_coe_eq_coe_finsetCard, List.toFinset_card_of_nodup (nodup_located hf),
    length_located]

end

/-! ## The numbers of a store -/

/-- The record sets that a zone's object declares. -/
def Json.filed : Json → List RecordSet
  | .object members => members.flatMap recordSets
  | _ => []

/-- The servers that an entry lists, for everyone or in its zone. -/
def entryTargets (e : String × Json) : List Target :=
  if e.1 = recurseKey then e.2.targets?.getD [] else e.2.listed

/-- A zone that has been read has the record sets that its object declares. -/
theorem sets_readZone {selector : String} {v : Json} {z : Zone}
    (h : readZone selector v = .ok z) : z.sets = v.filed := by
  obtain ⟨members, rfl, _, _, rfl⟩ := readZone_eq_ok_iff.mp h
  rfl

/-- A list of servers declares no record sets. -/
theorem filed_eq_nil_of_targets? {v : Json} {ts : List Target} (h : v.targets? = some ts) :
    v.filed = [] := by
  obtain ⟨texts, rfl, _⟩ := Json.targets?_eq_some_iff.mp h
  rfl

/-- An entry is for everyone, for everyone else or for a network. -/
theorem IsSoundEntry.isFor {e : String × Json} (he : IsSoundEntry e) :
    (isCommon e = true ∧ isFallback e = false ∧ networkZone? e = none) ∨
    (isCommon e = false ∧ isFallback e = true ∧ networkZone? e = none) ∨
    isCommon e = false ∧ isFallback e = false ∧ ∃ z, networkZone? e = some z := by
  by_cases hrecurse : e.1 = recurseKey
  · have hsel : Selector.ofText e.1 = .error .unrecognized := hrecurse ▸ ofText_recurseKey
    exact .inl ⟨beq_iff_eq.mpr hrecurse, by simp [isFallback, hsel], by simp [networkZone?, hsel]⟩
  · obtain ⟨selector, z, hsel, hz⟩ := he.zone hrecurse
    have hcommon : isCommon e = false := beq_false_of_ne hrecurse
    cases selector with
    | default =>
      exact .inr (.inl ⟨hcommon, by simp [isFallback, hsel], by simp [networkZone?, hsel]⟩)
    | network net =>
      refine .inr (.inr ⟨hcommon, by simp [isFallback, hsel], ⟨e.1, net, z⟩, ?_⟩)
      exact networkZone?_eq_some_iff.mpr ⟨rfl, hsel, hz⟩

section

variable {entries : List (String × Json)} {s : Store} {α : Type}

/-- What entries have is had by those for networks, for everyone and for everyone else. -/
theorem length_flatMap_entries (hsound : ∀ e ∈ entries, IsSoundEntry e) (f : String × Json → List α)
    {g : NetworkZone → List α} (hg : ∀ e z, networkZone? e = some z → g z = f e) :
    (entries.flatMap f).length = ((entries.filterMap networkZone?).flatMap g).length +
      ((entries.filter isCommon).flatMap f).length +
      ((entries.filter isFallback).flatMap f).length := by
  induction entries with
  | nil => rfl
  | cons e entries ih =>
    obtain ⟨he, hentries⟩ := List.forall_mem_cons.mp hsound
    have ih := ih hentries
    rw [List.flatMap_cons, List.length_append, ih]
    rcases he.isFor with ⟨hc, hf, hn⟩ | ⟨hc, hf, hn⟩ | ⟨hc, hf, z, hn⟩
    · simp only [List.filterMap_cons_none hn, List.filter_cons, hc, hf, Bool.false_eq_true,
        if_false, if_true, List.flatMap_cons, List.length_append]
      omega
    · simp only [List.filterMap_cons_none hn, List.filter_cons, hc, hf, Bool.false_eq_true,
        if_false, if_true, List.flatMap_cons, List.length_append]
      omega
    · simp only [List.filterMap_cons_some hn, List.filter_cons, hc, hf, Bool.false_eq_true,
        if_false, List.flatMap_cons, List.length_append, hg e z hn]
      omega

/-- In which order the networks stand makes no difference to a number. -/
theorem length_flatMap_networks (g : NetworkZone → List α) :
    ((Declared.none.extend entries).toStore.networks.flatMap g).length =
      ((entries.filterMap networkZone?).flatMap g).length :=
  ((List.mergeSort_perm _ _).flatMap_right g).length_eq

/-- The zone for everyone else has the record sets of the entries for everyone else. -/
theorem sets_fallback_toStore (hsound : ∀ e ∈ entries, IsSoundEntry e)
    (hkeys : (entries.filterMap selectorKey?).Nodup) :
    (Declared.none.extend entries).toStore.fallback.sets =
      (entries.filter isFallback).flatMap (·.2.filed) := by
  have hfallback := getLast?_fallbackZone?_eq_flatMap hsound hkeys Zone.sets rfl sets_readZone
  rw [← hfallback, Declared.toStore, Declared.extend, Declared.none, Option.or_none]

/-- The zone for everyone else lists the servers for everyone, and then those for everyone else. -/
theorem recurse_fallback_eq (hsound : ∀ e ∈ entries, IsSoundEntry e)
    (hkeys : (entries.filterMap selectorKey?).Nodup) (hone : (entries.filter isCommon).length ≤ 1) :
    (Declared.none.extend entries).toStore.fallback.recurse =
      (entries.filter isCommon ++ entries.filter isFallback).flatMap entryTargets := by
  have hcommon : ∀ e ∈ entries.filter isCommon, entryTargets e = e.2.targets?.getD [] :=
    fun e he => if_pos (beq_iff_eq.mp (List.mem_filter.mp he).2)
  have hfallback : ∀ e ∈ entries.filter isFallback, entryTargets e = e.2.listed :=
    fun e he => if_neg (ne_recurseKey_of_ofText
      (isFallback_eq_true_iff.mp (List.mem_filter.mp he).2))
  rw [List.flatMap_append, List.flatMap_congr hcommon, List.flatMap_congr hfallback,
    recurse_fallback_toStore hsound hkeys hone]

/-- The number of record sets is that of all record sets of the zones. -/
theorem recordSets_counts (s : Store) :
    s.counts.recordSets = (s.zones.flatMap (·.sets)).length := by
  simp [Store.counts, Store.zones, foldr_length_add (fun z : NetworkZone => z.zone.sets),
    List.flatMap_map]

/-- The number of targets is that of all servers in all zones, repeated ones included. -/
theorem targets_counts (s : Store) :
    s.counts.targets = (s.zones.flatMap (·.recurse)).length := by
  simp [Store.counts, Store.zones, foldr_length_add (fun z : NetworkZone => z.zone.recurse),
    List.flatMap_map]

/-- The record sets of a store are those that its entries declare. -/
theorem recordSets_counts_ofEntries (h : Store.ofEntries entries = .ok s) :
    s.counts.recordSets = (entries.flatMap (·.2.filed)).length := by
  obtain ⟨hsound, hkeys, rfl⟩ := ofEntries_eq_ok_iff.mp h
  have hcommon : (entries.filter isCommon).flatMap (·.2.filed) = [] := by
    refine List.flatMap_eq_nil_iff.mpr fun e he => ?_
    obtain ⟨hmem, hrecurse⟩ := List.mem_filter.mp he
    obtain ⟨ts, hts⟩ := (hsound e hmem).targets (beq_iff_eq.mp hrecurse)
    exact filed_eq_nil_of_targets? hts
  have hg : ∀ e z, networkZone? e = some z → z.zone.sets = e.2.filed := fun e z hz =>
    sets_readZone (networkZone?_eq_some_iff.mp hz).2.2
  rw [recordSets_counts, length_flatMap_entries hsound _ hg, hcommon, ← length_flatMap_networks,
    ← sets_fallback_toStore hsound hkeys]
  simp [Store.zones, List.flatMap_map]

/-- The servers of a store are those that its entries list. -/
theorem targets_counts_ofEntries (h : Store.ofEntries entries = .ok s)
    (hone : (entries.filter isCommon).length ≤ 1) :
    s.counts.targets = (entries.flatMap entryTargets).length := by
  obtain ⟨hsound, hkeys, rfl⟩ := ofEntries_eq_ok_iff.mp h
  have hg : ∀ e z, networkZone? e = some z → z.zone.recurse = entryTargets e := by
    intro e z hz
    obtain ⟨_, hsel, hread⟩ := networkZone?_eq_some_iff.mp hz
    rw [entryTargets, if_neg (ne_recurseKey_of_ofText hsel), recurse_readZone hread]
  rw [targets_counts, length_flatMap_entries hsound _ hg, ← length_flatMap_networks]
  simp [Store.zones, List.flatMap_map, recurse_fallback_eq hsound hkeys hone, Nat.add_assoc]

/-- The zone for everyone else has something exactly if an entry for everyone else declares a record
set or lists servers, or an entry lists them for everyone. -/
theorem isEmpty_fallback_eq_false_iff (h : Store.ofEntries entries = .ok s)
    (hone : (entries.filter isCommon).length ≤ 1) :
    s.fallback.isEmpty = false ↔
      (∃ e ∈ entries, Selector.ofText e.1 = .ok .default ∧ e.2.filed ≠ []) ∨
      ∃ e ∈ entries, (Selector.ofText e.1 = .ok .default ∨ e.1 = recurseKey) ∧
        entryTargets e ≠ [] := by
  obtain ⟨hsound, hkeys, rfl⟩ := ofEntries_eq_ok_iff.mp h
  rw [Zone.isEmpty, Bool.and_eq_false_iff, List.isEmpty_eq_false_iff, List.isEmpty_eq_false_iff,
    sets_fallback_toStore hsound hkeys, recurse_fallback_eq hsound hkeys hone]
  have hmem : ∀ e, e ∈ entries.filter isCommon ++ entries.filter isFallback ↔
      e ∈ entries ∧ (Selector.ofText e.1 = .ok .default ∨ e.1 = recurseKey) := by
    simp [isFallback_eq_true_iff, isCommon, ← and_or_left, or_comm]
  refine or_congr ?_ ?_
  · simp [isFallback_eq_true_iff]
  · simp only [ne_eq, List.flatMap_eq_nil_iff, hmem, not_forall, exists_prop, and_assoc]

/-- The number of selectors is that of the networks, and one more if there is anything for everyone
else. -/
theorem selectors_counts_ofEntries (h : Store.ofEntries entries = .ok s) :
    s.counts.selectors =
      (declaredNetworks entries).length + if s.fallback.isEmpty then 0 else 1 := by
  have hlength := (represents_ofEntries h).declared.length_eq
  rw [List.length_map] at hlength
  rw [Store.counts, hlength]

end

/-! ## What is written -/

/-- The name and the type of a declaration, as they are written. -/
def Declaration.key (d : Declaration) : String × String := (d.written, d.label)

/-- A name and a type are declared exactly if the type is written under the name. -/
theorem mem_map_key_iff {ms : List (String × Json)} {k : String × String} :
    k ∈ (declarations ms).map Declaration.key ↔
      k.1 ≠ recurseKey ∧ ∃ v, (k.1, v) ∈ ms ∧ k.2 ∈ v.members.map Prod.fst := by
  rw [List.mem_map]
  constructor
  · intro h
    obtain ⟨d, hd, rfl⟩ := h
    obtain ⟨hname, types, hm, ht⟩ := mem_declarations_iff.mp hd
    exact ⟨hname, _, hm, List.mem_map_of_mem ht⟩
  · intro h
    obtain ⟨hname, v, hm, hlabel⟩ := h
    obtain ⟨⟨label, list⟩, ht, heq⟩ := List.mem_map.mp hlabel
    cases v with
    | object types =>
      exact ⟨⟨k.1, label, list⟩, mem_declarations_iff.mpr ⟨hname, types, hm, ht⟩,
        Prod.ext rfl heq⟩
    | _ => cases ht

/-- A member declares its name with every type that is written under it. -/
theorem map_key_ofMember (m : String × Json) :
    (Declaration.ofMember m).map Declaration.key =
      if m.1 = recurseKey then [] else (m.2.members.map Prod.fst).map (Prod.mk m.1) := by
  unfold Declaration.ofMember
  by_cases hname : m.1 = recurseKey
  · simp [hname]
  · cases hv : m.2 <;> simp [hname, Json.members, Declaration.key]

/-- Different names, each with types that are different, have different keys. -/
theorem nodup_map_key {ms : List (String × Json)} (hnames : (ms.map Prod.fst).Nodup)
    (htypes : ∀ m ∈ ms, (m.2.members.map Prod.fst).Nodup) :
    ((declarations ms).map Declaration.key).Nodup := by
  have hfst : ∀ (m : String × Json), ∀ k ∈ (Declaration.ofMember m).map Declaration.key,
      k.1 = m.1 := by
    intro m k hk
    rw [map_key_ofMember] at hk
    split at hk
    · cases hk
    · obtain ⟨_, _, rfl⟩ := List.mem_map.mp hk
      rfl
  rw [declarations, List.map_flatMap, List.nodup_flatMap]
  refine ⟨fun m hm => ?_, ?_⟩
  · rw [map_key_ofMember]
    split
    · exact List.nodup_nil
    · exact (htypes m hm).map (Prod.mk_right_injective m.1)
  · refine (List.pairwise_map.mp hnames).imp fun {m m'} hne k hk hk' => ?_
    exact hne ((hfst m k hk).symm.trans (hfst m' k hk'))

/-! ### Record sets -/

section

variable {v : Json}

/-- Reading leaves the keys that are written, if no name of the object is repeated. -/
theorem mem_map_key_tidy_iff (hv : (v.members.map Prod.fst).Nodup) {k : String × String} :
    k ∈ (declarations v.tidy.members).map Declaration.key ↔
      k ∈ (declarations v.members).map Declaration.key := by
  rw [mem_map_key_iff, mem_map_key_iff]
  refine and_congr_right fun _ => ⟨fun h => ?_, fun h => ?_⟩
  · obtain ⟨_, hm, hlabel⟩ := h
    obtain ⟨v', hm', rfl⟩ := (Json.mem_members_tidy_iff hv).mp hm
    exact ⟨v', hm', Json.mem_names_tidy_iff.mp hlabel⟩
  · obtain ⟨v', hm, hlabel⟩ := h
    exact ⟨v'.tidy, (Json.mem_members_tidy_iff hv).mpr ⟨v', hm, rfl⟩,
      Json.mem_names_tidy_iff.mpr hlabel⟩

/-- No name and type are declared twice once an object's members are put in order. -/
theorem nodup_map_key_tidy (v : Json) :
    ((declarations v.tidy.members).map Declaration.key).Nodup := by
  refine nodup_map_key (Json.nodup_names_tidy v) fun m hm => ?_
  cases v with
  | object ms =>
    obtain ⟨v', _, hv'⟩ := Json.mem_ofMembers_tidyMembers_iff.mp hm
    rw [hv']
    exact Json.nodup_names_tidy v'
  | _ => cases hm

/-- Every key is that of one record set. -/
theorem length_map_key {selector : String} {z : Zone} (h : readZone selector v = .ok z) :
    ((declarations v.members).map Declaration.key).length = v.filed.length := by
  obtain ⟨members, rfl, _⟩ := readZone_eq_ok_iff.mp h
  rw [List.length_map, ← sets_readZone h]
  exact (forall₂_sets h).length_eq

/-- An object declares record sets if and only if something is written under a type. -/
theorem filed_tidy_eq_nil_iff {selector : String} {z : Zone} (h : readZone selector v.tidy = .ok z)
    (hv : (v.members.map Prod.fst).Nodup) :
    v.tidy.filed = [] ↔ declarations v.members = [] := by
  rw [← List.length_eq_zero_iff, ← length_map_key h, List.length_eq_zero_iff,
    List.eq_nil_iff_forall_not_mem, ← List.map_eq_nil_iff (f := Declaration.key),
    List.eq_nil_iff_forall_not_mem]
  exact forall_congr' fun k => (mem_map_key_tidy_iff hv).not

end

/-- The keys that an entry declares. -/
def entryKeys (e : String × Json) : List (String × String) :=
  if e.1 = recurseKey then [] else (declarations e.2.members).map Declaration.key

/-- An entry declares what the object of its zone declares, unless it lists servers for everyone. -/
theorem mem_entryKeys_iff {e : String × Json} {k : String × String} :
    k ∈ entryKeys e ↔ e.1 ≠ recurseKey ∧ k ∈ (declarations e.2.members).map Declaration.key := by
  unfold entryKeys
  by_cases hrecurse : e.1 = recurseKey
  · simp [hrecurse]
  · rw [if_neg hrecurse, and_iff_right hrecurse]

theorem nodup_entryKeys_tidy (e : String × Json) : (entryKeys (e.1, e.2.tidy)).Nodup := by
  unfold entryKeys
  split
  · exact List.nodup_nil
  · exact nodup_map_key_tidy e.2

/-- A sound entry declares as many names with a type as it files record sets. -/
theorem length_entryKeys {e : String × Json} (he : IsSoundEntry e) :
    (entryKeys e).length = e.2.filed.length := by
  unfold entryKeys
  by_cases hrecurse : e.1 = recurseKey
  · obtain ⟨ts, hts⟩ := he.targets hrecurse
    rw [if_pos hrecurse, filed_eq_nil_of_targets? hts]
    rfl
  · obtain ⟨_, z, _, hz⟩ := he.zone hrecurse
    rw [if_neg hrecurse]
    exact length_map_key hz

/-! ### Servers -/

/-- The texts in the lists of servers of an entry. -/
def writtenServers (e : String × Json) : List Json :=
  if e.1 = recurseKey then e.2.items
  else e.2.members.flatMap fun m => if m.1 = recurseKey then m.2.items else []

/-- An array of servers lists one for each of its texts. -/
theorem length_targets? {v : Json} {ts : List Target} (h : v.tidy.targets? = some ts) :
    v.items.length = ts.length := by
  obtain ⟨texts, rfl, hread⟩ := Json.isListOf_tidy_iff.mp (Json.targets?_eq_some_iff.mp h)
  simp [Json.items, hread.length_eq]

/-- A sound entry lists as many servers as are written in it, if no name is repeated there. -/
theorem length_writtenServers {e : String × Json} (he : IsSoundEntry (e.1, e.2.tidy))
    (hnames : (e.2.members.map Prod.fst).Nodup) :
    (writtenServers e).length = (entryTargets (e.1, e.2.tidy)).length := by
  unfold writtenServers entryTargets
  by_cases hrecurse : e.1 = recurseKey
  · obtain ⟨ts, hts⟩ := he.targets hrecurse
    rw [if_pos hrecurse, if_pos hrecurse, hts, Option.getD_some]
    exact length_targets? hts
  · obtain ⟨_, z, _, hz⟩ := he.zone hrecurse
    obtain ⟨_, hobject, hsound, _⟩ := readZone_eq_ok_iff.mp hz
    obtain ⟨ms, hms, rfl⟩ := Json.tidy_eq_object_iff.mp hobject
    have htidy : ((Json.tidyMembers ms).map Prod.fst).Nodup := by
      rw [hms] at hnames
      rw [Json.tidyMembers_eq_map, List.map_map]
      exact hnames
    have hperm := Json.ofMembers_perm htidy
    rw [if_neg hrecurse, if_neg hrecurse, hobject, hms, Json.listed, Json.members,
      (hperm.flatMap_right _).length_eq, Json.tidyMembers_eq_map, List.flatMap_map]
    refine length_flatMap_congr fun m hm => ?_
    have hmem : (m.1, m.2.tidy) ∈ Json.ofMembers (Json.tidyMembers ms) := by
      rw [hperm.mem_iff, Json.tidyMembers_eq_map]
      exact List.mem_map.mpr ⟨m, hm, rfl⟩
    unfold listedTargets
    by_cases hname : m.1 = recurseKey
    · obtain ⟨ts, hts⟩ := (hsound _ hmem).targets hname
      rw [if_pos hname, if_pos hname, hts, Option.getD_some]
      exact length_targets? hts
    · rw [if_neg hname, if_neg hname]
      rfl

/-! ## Documents -/

/-- The record sets that are written in a document: the place of the entry, and the name and the
type as they are written. -/
def writtenPlaces (written : List (String × Json)) : Set (Nat × String × String) :=
  {p | ∃ e, written[p.1]? = some e ∧ e.1 ≠ recurseKey ∧
    ∃ d ∈ declarations e.2.members, p.2 = (d.written, d.label)}

/-- The record sets that are found in a store: the place of the zone, the name and the kind. -/
def Store.places (s : Store) : Set (Nat × String × RecordKind) :=
  {p | ∃ z, s.zones[p.1]? = some z ∧ (z.lookup p.2.1 p.2.2).isSome}

/-- A document says something for everyone else: a record set under the default selector, or a
server there or for everyone. -/
def SpeaksForAll (written : List (String × Json)) : Prop :=
  (∃ e ∈ written, Selector.ofText e.1 = .ok .default ∧ declarations e.2.members ≠ []) ∨
    ∃ e ∈ written, (Selector.ofText e.1 = .ok .default ∨ e.1 = recurseKey) ∧ writtenServers e ≠ []

/-- What is found in the zones of a store is as many as its record sets. -/
theorem encard_places_eq {s : Store} (hfiled : ∀ z ∈ s.zones, z.IsFiled) :
    s.places.encard = s.counts.recordSets := by
  have hplaces : s.places = {p | ∃ z, s.zones[p.1]? = some z ∧ p.2 ∈ z.labels} := by
    simp only [Store.places, Zone.isSome_lookup, Zone.declares_iff]
  rw [hplaces, encard_located fun z hz => (hfiled z hz).labels, recordSets_counts]
  exact congrArg Nat.cast (length_flatMap_congr fun z _ => List.length_map _)

section

variable {written : List (String × Json)} {s : Store}

/-- Every record set that is written is found, and nothing else. -/
theorem encard_writtenPlaces (h : Store.ofEntries (written.map fun e => (e.1, e.2.tidy)) = .ok s)
    (hnames : ∀ e ∈ written, (e.2.members.map Prod.fst).Nodup) :
    (writtenPlaces written).encard = s.counts.recordSets := by
  obtain ⟨hsound, _⟩ := ofEntries_eq_ok_iff.mp h
  have hplaces : writtenPlaces written =
      {p | ∃ e, written[p.1]? = some e ∧ p.2 ∈ entryKeys (e.1, e.2.tidy)} := by
    ext p
    refine exists_congr fun e => and_congr_right fun he => ?_
    rw [mem_entryKeys_iff, mem_map_key_tidy_iff (hnames e (List.mem_of_getElem? he))]
    simp [Declaration.key, eq_comm]
  rw [hplaces, encard_located fun e _ => nodup_entryKeys_tidy e, recordSets_counts_ofEntries h,
    List.flatMap_map]
  refine congrArg Nat.cast (length_flatMap_congr fun e he => ?_)
  exact length_entryKeys (hsound _ (List.mem_map_of_mem he))

/-- Putting entries in order does not change how many list servers for everyone. -/
theorem length_filter_isCommon_tidy (written : List (String × Json)) :
    ((written.map fun e => (e.1, e.2.tidy)).filter isCommon).length =
      (written.filter isCommon).length := by
  rw [List.filter_map, List.length_map]
  rfl

/-- The texts in all lists are the servers of the entries. -/
theorem length_flatMap_writtenServers
    (h : Store.ofEntries (written.map fun e => (e.1, e.2.tidy)) = .ok s)
    (hnames : ∀ e ∈ written, (e.2.members.map Prod.fst).Nodup)
    (hone : (written.filter isCommon).length ≤ 1) :
    s.counts.targets = (written.flatMap writtenServers).length := by
  obtain ⟨hsound, _⟩ := ofEntries_eq_ok_iff.mp h
  rw [← length_filter_isCommon_tidy] at hone
  rw [targets_counts_ofEntries h hone, List.flatMap_map]
  refine length_flatMap_congr fun e he => ?_
  exact (length_writtenServers (hsound _ (List.mem_map_of_mem he)) (hnames e he)).symm

/-- The zone for everyone else has something exactly if the document says something for it. -/
theorem isEmpty_fallback_eq_false_iff_speaksForAll
    (h : Store.ofEntries (written.map fun e => (e.1, e.2.tidy)) = .ok s)
    (hnames : ∀ e ∈ written, (e.2.members.map Prod.fst).Nodup)
    (hone : (written.filter isCommon).length ≤ 1) :
    s.fallback.isEmpty = false ↔ SpeaksForAll written := by
  obtain ⟨hsound, _⟩ := ofEntries_eq_ok_iff.mp h
  rw [← length_filter_isCommon_tidy] at hone
  rw [isEmpty_fallback_eq_false_iff h hone]
  simp only [List.mem_map, exists_exists_and_eq_and]
  refine or_congr ?_ ?_
  · refine exists_congr fun e => and_congr_right fun he => and_congr_right fun hsel => ?_
    obtain ⟨_, _, _, hz⟩ := (hsound _ (List.mem_map_of_mem he)).zone (ne_recurseKey_of_ofText hsel)
    exact (filed_tidy_eq_nil_iff hz (hnames e he)).not
  · refine exists_congr fun e => and_congr_right fun he => and_congr_right fun _ => ?_
    have hlength := length_writtenServers (hsound _ (List.mem_map_of_mem he)) (hnames e he)
    rw [ne_eq, ne_eq, ← List.length_eq_zero_iff, ← List.length_eq_zero_iff, hlength]

/-- **The numbers of a store are those of its document.** The record sets are counted as they are
written, each name and type under each selector, and as they are found, each name and kind in each
zone; the servers as they are written in all lists, repetitions included; and the selectors are
those of networks, and one more exactly if something is said for everyone else. -/
theorem counts_build {text : String} (h : Store.build text = .ok s)
    (hwritten : Document.readWritten text = some ⟨written⟩)
    (hnames : ∀ e ∈ written, (e.2.members.map Prod.fst).Nodup)
    (hone : (written.filter isCommon).length ≤ 1) :
    (writtenPlaces written).encard = s.counts.recordSets ∧
    s.places.encard = s.counts.recordSets ∧
    s.counts.targets = (written.flatMap writtenServers).length ∧
    (SpeaksForAll written → s.counts.selectors = (declaredNetworks written).length + 1) ∧
    (¬ SpeaksForAll written → s.counts.selectors = (declaredNetworks written).length) := by
  obtain ⟨entries, hread, hbuild⟩ := exists_of_build h
  rw [Document.read_eq, hwritten, Option.map_some, Option.some.injEq, Document.mk.injEq] at hread
  subst hread
  have hspeaks := isEmpty_fallback_eq_false_iff_speaksForAll hbuild hnames hone
  have hnetworks : (declaredNetworks (written.map fun e => (e.1, e.2.tidy))).length =
      (declaredNetworks written).length := by
    rw [declaredNetworks, List.filterMap_map]
    rfl
  refine ⟨encard_writtenPlaces hbuild hnames, encard_places_eq (represents_ofEntries hbuild).filed,
    length_flatMap_writtenServers hbuild hnames hone, fun hsaid => ?_, fun hsaid => ?_⟩
  · rw [selectors_counts_ofEntries hbuild, hnetworks, hspeaks.mpr hsaid]
    rfl
  · rw [← hspeaks, Bool.not_eq_false] at hsaid
    rw [selectors_counts_ofEntries hbuild, hnetworks, hsaid]
    rfl

end

/-- A document with a server that is listed twice for everyone, an empty record set and a name
without types. -/
def numbered : String :=
  "\x7b\"recurse\":[\"192.0.2.1\",\"192.0.2.1\"],\"default\":\x7b\"x.y\":\x7b\x7d\x7d," ++
  "\"10.0.0.0/8\":\x7b\"A.b\":\x7b\"A\":[],\"TXT\":[\"t\"]\x7d,\"recurse\":[\"192.0.2.2\"]\x7d\x7d"

set_option maxRecDepth 1000 in
/-- Its zone for everyone else has nothing but the servers for everyone, and counts. -/
theorem counts_build_numbered :
    ∃ s, Store.build numbered = .ok s ∧ s.places.encard = 2 ∧ s.counts.targets = 3 ∧
      s.counts.selectors = 2 := by
  have hsets : (Store.build numbered).toOption.map (·.counts.recordSets) = some 2 := by
    -- the sort itself does not evaluate
    simp only [Store.build, Store.ofEntries, Declared.toStore, mergeSort_narrower]
    decide +kernel
  obtain ⟨s, hs, hsets⟩ := Option.map_eq_some_iff.mp hsets
  have hbuild := toOption_eq_some_iff.mp hs
  have hwritten : Document.readWritten numbered = some ⟨
      [("recurse", .array [.string "192.0.2.1", .string "192.0.2.1"]),
        ("default", .object [("x.y", .object [])]),
        ("10.0.0.0/8", .object [("A.b", .object [("A", .array []), ("TXT", .array [.string "t"])]),
          ("recurse", .array [.string "192.0.2.2"])])]⟩ := by rfl
  obtain ⟨_, hplaces, htargets, hselectors, _⟩ :=
    counts_build hbuild hwritten (by simp [Json.members]) (by decide)
  refine ⟨s, hbuild, by rw [hplaces, hsets]; rfl, htargets, hselectors ?_⟩
  exact .inr ⟨("recurse", _), List.mem_cons_self, .inr rfl, List.cons_ne_nil _ _⟩

end SplitHorizon
