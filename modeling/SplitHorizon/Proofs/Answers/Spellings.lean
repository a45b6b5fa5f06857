import SplitHorizon.Proofs.Answers.Invariant
/-!
# Spellings of a name

The document's names are brought into canonical form when it is read, a query's name when it is
looked up, and the two do not go about it in the same way: the first refuses what is no name, the
second refuses nothing. They agree all the same. A store finds something under a name exactly if the
name has a canonical form and a zone of the client declares it (`resolve_canonical`), so no text
that is refused in the document is ever taken for one that is declared.
-/

namespace SplitHorizon

/-! ## The zones that a client is answered from -/

/-- The zones of a client's networks, narrowest first, and the one for everyone else. -/
def Store.zonesFor (s : Store) (client : Address) : List Zone :=
  (s.matching client).map (·.zone) ++ [s.fallback]

/-- A client is answered from zones of the store only. -/
theorem Store.mem_zones_of_mem_zonesFor {s : Store} {client : Address} {z : Zone}
    (h : z ∈ s.zonesFor client) : z ∈ s.zones := by
  rcases List.mem_append.mp h with h | h
  · obtain ⟨n, hn, rfl⟩ := List.mem_map.mp h
    exact List.mem_append_left _ (List.mem_map_of_mem (List.mem_filter.mp hn).1)
  · exact List.mem_append_right _ h

/-- A store answers a client exactly if one of the client's zones declares the key and the kind. -/
theorem isSome_resolve_iff {s : Store} {client : Address} {name : String} {kind : RecordKind} :
    (s.resolve client name kind).isSome = true ↔
      ∃ z ∈ s.zonesFor client, z.declares (Name.lookupKey name) kind = true := by
  have hnetworks : (s.networks.findSome?
      (NetworkZone.answer? client (Name.lookupKey name) kind)).isSome = true ↔
        ∃ n ∈ s.matching client, n.zone.declares (Name.lookupKey name) kind = true := by
    rw [List.findSome?_isSome_iff]
    simp only [Store.matching, List.mem_filter, and_assoc]
    refine exists_congr fun n => and_congr_right fun _ => ?_
    rw [← Zone.isSome_lookup, NetworkZone.answer?]
    split
    · rename_i hc
      rw [Option.isSome_map]
      exact (and_iff_right hc).symm
    · rename_i hc
      exact iff_of_false Bool.false_ne_true fun h => hc h.1
  rw [resolve_eq, Option.isSome_or, Bool.or_eq_true, hnetworks, Option.isSome_map,
    Zone.isSome_lookup]
  simp only [Store.zonesFor, List.mem_append, List.mem_map, List.mem_singleton, or_and_right,
    exists_or, exists_exists_and_eq_and, exists_eq_left]

/-- What a zone of a built store declares is a canonical name. -/
theorem canonical_of_declares {text : String} {s : Store} (h : Store.build text = .ok s)
    {client : Address} {z : Zone} (hz : z ∈ s.zonesFor client) {key : String} {kind : RecordKind}
    (hkey : z.declares key kind = true) : Name.canonical key = .ok key := by
  obtain ⟨_, _, hrepresents⟩ := represents_build h
  have hfiled := hrepresents.filed z (Store.mem_zones_of_mem_zonesFor hz)
  obtain ⟨set, hset, hlabel⟩ := List.any_eq_true.mp hkey
  obtain ⟨hname, _⟩ := Bool.and_eq_true_iff.mp hlabel
  rw [← beq_iff_eq.mp hname]
  exact hfiled.canonical set hset

/-! ## One form of a name -/

/-- **A name is looked up under its canonical form, and found exactly if that is declared.** The
canonical form of a trimmed name is its key, if the key is canonical at all; the name is its own key
exactly if nothing about it has to be rewritten. So a built store answers a client exactly if the
name has a canonical form that one of the client's zones declares. Letter case makes no difference
to any store, nor does the dot at the end. -/
theorem resolve_canonical {name : String} (hne : name ≠ "")
    (htrim : Text.trim name.toList = name.toList) :
    (∀ key, Name.canonical name = .ok key ↔
        Name.lookupKey name = key ∧ ∃ written, Name.canonical written = .ok key) ∧
      (Name.lookupKey name = name ↔
        Text.fold name.toList = name.toList ∧ name.toList.getLast? = some '.') ∧
      (∀ text s, Store.build text = .ok s → ∀ client kind,
        (s.resolve client name kind).isSome = true ↔
          ∃ key, Name.canonical name = .ok key ∧
            ∃ z ∈ s.zonesFor client, z.declares key kind = true) ∧
      ∀ (s : Store) (client : Address) (kind : RecordKind),
        (∀ name' : String, Text.fold name'.toList = Text.fold name.toList →
            s.resolve client name' kind = s.resolve client name kind) ∧
          (name.toList.getLast? ≠ some '.' →
            s.resolve client (name ++ ".") kind = s.resolve client name kind) := by
  refine ⟨fun key => Name.canonical_eq_ok_iff_lookupKey hne htrim, Name.lookupKey_eq_self_iff,
    fun text s hbuild client kind => ?_,
    fun s client kind => ⟨fun name' hfold => ?_, fun hdot => ?_⟩⟩
  · rw [isSome_resolve_iff]
    constructor
    · rintro ⟨z, hz, hdeclares⟩
      have hkey := canonical_of_declares hbuild hz hdeclares
      exact ⟨_, (Name.canonical_eq_ok_iff_lookupKey hne htrim).mpr ⟨rfl, _, hkey⟩, z, hz, hdeclares⟩
    · rintro ⟨key, hkey, z, hz, hdeclares⟩
      obtain ⟨rfl, _⟩ := (Name.canonical_eq_ok_iff_lookupKey hne htrim).mp hkey
      exact ⟨z, hz, hdeclares⟩
  · have hkeys : Name.lookupKey name' = Name.lookupKey name := by
      rw [Name.lookupKey, Name.lookupKey, hfold]
    simp only [Store.resolve, hkeys]
  · simp only [Store.resolve, Name.lookupKey_append_dot hdot]

/-- The client ::ffff:10.2.0.1 finds the name `A.b` since a zone of its networks declares `a.b.`; no
client finds `a..b`, which is no name. -/
theorem resolve_canonical_capital :
    ∃ s, Store.build overlapping = .ok s ∧
      (∃ z ∈ s.zonesFor (.v6 0xffff0a020001), z.declares "a.b." .a = true) ∧
      (∀ client kind, s.resolve client "a.B" kind = s.resolve client "A.b" kind) ∧
      ∀ client kind, (s.resolve client "a..b" kind).isSome = false := by
  have hanswer : ((Store.build overlapping).toOption.bind fun s =>
      s.resolve (.v6 0xffff0a020001) "A.b" .a).isSome = true := by
    -- the sort itself does not evaluate
    simp only [Store.build, Store.ofEntries, Declared.toStore, mergeSort_narrower]
    decide +kernel
  obtain ⟨answer, hanswer⟩ := Option.isSome_iff_exists.mp hanswer
  obtain ⟨s, hs, hresolve⟩ := Option.bind_eq_some_iff.mp hanswer
  have hbuild := toOption_eq_some_iff.mp hs
  obtain ⟨_, _, hfound, hspelled⟩ :=
    resolve_canonical (by decide : "A.b" ≠ "") (by decide +kernel)
  obtain ⟨_, _, hrefused, _⟩ :=
    resolve_canonical (by decide : "a..b" ≠ "") (by decide +kernel)
  refine ⟨s, hbuild, ?_, fun client kind => (hspelled s client kind).1 "a.B" (by decide +kernel),
    fun client kind => ?_⟩
  · obtain ⟨key, hkey, hz⟩ := (hfound _ s hbuild (.v6 0xffff0a020001) .a).mp (by rw [hresolve]; rfl)
    have hname : Name.canonical "A.b" = .ok "a.b." := by decide +kernel
    obtain rfl := Except.ok.inj (hname.symm.trans hkey)
    exact hz
  · rw [← Bool.not_eq_true, hrefused _ s hbuild client kind]
    rintro ⟨key, hkey, _⟩
    have hname : Name.canonical "a..b" = .error (.emptyLabel "a..b") := by decide +kernel
    rw [hname] at hkey
    cases hkey

end SplitHorizon
