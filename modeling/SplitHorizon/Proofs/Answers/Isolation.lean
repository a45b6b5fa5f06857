import SplitHorizon.Proofs.Answers.Entries
import SplitHorizon.Proofs.Answers.Order
/-!
# Clients do not see what is declared for others

A store is read for a client in two parts only: the zones of the networks that contain the client,
and the zone for everyone else. The zones of one store are sorted together, but the sort and the
choice of a client's zones commute (`matching_toStore`), so that a client's zones in their order are
a function of the entries for that client's networks.

Hence an entry for a network that does not contain a client makes no difference to the client,
whatever its zone declares and wherever it stands (`resolve_of_not_contains`).
-/

namespace SplitHorizon

/-! ## What a client reads of a store -/

namespace Store

variable {s s' : Store} {client : Address}

/-- What a client is answered depends on the zones of its networks and on the one for everyone else
only. -/
theorem resolve_congr (hmatching : s'.matching client = s.matching client)
    (hfallback : s'.fallback = s.fallback) (name : String) (kind : RecordKind) :
    s'.resolve client name kind = s.resolve client name kind := by
  unfold resolve
  rw [hmatching, hfallback]

/-- The servers that a client is sent to depend on the zones of its networks and on the one for
everyone else only. -/
theorem targets_congr (hmatching : s'.matching client = s.matching client)
    (hfallback : s'.fallback = s.fallback) : s'.targets client = s.targets client := by
  unfold targets
  rw [hmatching, hfallback]

end Store

/-- The zones that a client meets are the declared ones for the client, put in order. -/
theorem matching_toStore (d : Declared) (client : Address) :
    d.toStore.matching client =
      (d.networks.filter fun z => z.network.contains client.canonical).mergeSort
        fun a b => b.network.length ≤ a.network.length := by
  unfold Store.matching Declared.toStore
  rw [mergeSort_narrower, mergeSort_narrower, List.filter_flatMap]
  congr 1
  funext n
  rw [List.filter_filter, List.filter_filter]
  exact List.filter_congr fun z _ => Bool.and_comm _ _

/-! ## One entry more -/

section

variable {before after : List (String × Json)} {e : String × Json} {net : Network}

/-- An entry for a network says nothing about everyone else, nor about everyone. -/
theorem fallback_insert (hnet : Selector.ofText e.1 = .ok (.network net)) :
    (Declared.none.extend (before ++ e :: after)).toStore.fallback =
      (Declared.none.extend (before ++ after)).toStore.fallback := by
  have hfallback : fallbackZone? e = none := by
    simp only [fallbackZone?, hnet]
  have hcommon : commonTargets? e = none := by
    rw [commonTargets?, if_neg (ne_recurseKey_of_ofText hnet)]
  simp only [Declared.toStore, Declared.extend, List.filterMap_append,
    List.filterMap_cons_none hfallback, List.filterMap_cons_none hcommon]

/-- An entry for a network is met by the clients of the network only. -/
theorem matching_insert (hnet : Selector.ofText e.1 = .ok (.network net)) {client : Address}
    (hout : net.contains client.canonical = false) :
    (Declared.none.extend (before ++ e :: after)).toStore.matching client =
      (Declared.none.extend (before ++ after)).toStore.matching client := by
  have hnetworks : ((before ++ e :: after).filterMap networkZone?).filter
      (fun z => z.network.contains client.canonical) =
        ((before ++ after).filterMap networkZone?).filter
          fun z => z.network.contains client.canonical := by
    rw [List.filterMap_append, List.filterMap_append, List.filter_append, List.filter_append]
    cases hz : networkZone? e with
    | none => rw [List.filterMap_cons_none hz]
    | some z =>
      obtain ⟨_, hsel, _⟩ := networkZone?_eq_some_iff.mp hz
      obtain rfl : net = z.network := by
        rw [hnet] at hsel
        cases hsel
        rfl
      rw [List.filterMap_cons_some hz, List.filter_cons_of_neg (by rw [hout]; exact nofun)]
  rw [matching_toStore, matching_toStore]
  exact congrArg (List.mergeSort · _) hnetworks

/-- A document from which an entry is left out builds if it did with the entry. -/
theorem ofEntries_remove {s : Store} (h : Store.ofEntries (before ++ e :: after) = .ok s) :
    Store.ofEntries (before ++ after) = .ok (Declared.none.extend (before ++ after)).toStore := by
  have hsub : (before ++ after).Sublist (before ++ e :: after) :=
    (List.sublist_cons_self e after).append_left before
  obtain ⟨hsound, hkeys, _⟩ := ofEntries_eq_ok_iff.mp h
  refine ofEntries_eq_ok_iff.mpr ⟨fun e' he' => ?_, ?_, rfl⟩
  · exact hsound e' (hsub.subset he')
  · exact hkeys.sublist (hsub.filterMap selectorKey?)

/-- **What is declared for a network makes no difference to a client outside of it.** If a document
builds, it builds too without one of its entries for a network, wherever that entry stands; and a
client that the network does not contain is given the same answers of both stores, from the same
sources, and the same servers. -/
theorem resolve_of_not_contains {text text' : String}
    (hread : Document.read text = some ⟨before ++ after⟩)
    (hread' : Document.read text' = some ⟨before ++ e :: after⟩)
    (hnet : Selector.ofText e.1 = .ok (.network net)) {s' : Store}
    (hbuild : Store.build text' = .ok s') {client : Address}
    (hout : (Selector.network net).contains client = false) :
    ∃ s, Store.build text = .ok s ∧
      (∀ name kind, s'.resolve client name kind = s.resolve client name kind) ∧
      s'.targets client = s.targets client := by
  rw [build_of_read hread'] at hbuild
  have hs' : s' = (Declared.none.extend (before ++ e :: after)).toStore :=
    (ofEntries_eq_ok_iff.mp hbuild).2.2
  have hmatching : (Declared.none.extend (before ++ e :: after)).toStore.matching client =
      (Declared.none.extend (before ++ after)).toStore.matching client := matching_insert hnet hout
  have hfallback : (Declared.none.extend (before ++ e :: after)).toStore.fallback =
      (Declared.none.extend (before ++ after)).toStore.fallback := fallback_insert hnet
  refine ⟨(Declared.none.extend (before ++ after)).toStore, ?_, fun name kind => ?_, ?_⟩
  · rw [build_of_read hread]
    exact ofEntries_remove hbuild
  · rw [hs']
    exact Store.resolve_congr hmatching hfallback name kind
  · rw [hs']
    exact Store.targets_congr hmatching hfallback

end

/-- A zone with one address under one name. -/
def addressZone (name address : String) : Json :=
  .object [(name, .object [("A", .array [.string address])])]

/-- The network of one office. -/
def office : String × Json := ("10.1.0.0/16", addressZone "a.b" "10.1.0.1")

/-- The network of another office, as wide as the first and with the same name. -/
def otherOffice : String × Json := ("10.2.0.0/16", addressZone "a.b" "10.2.0.1")

/-- A server for everyone. -/
def everyone : String × Json := (recurseKey, .array [.string "192.0.2.1"])

/-- A client at the first office, under its form of 128 bits, is answered as if the other office
were not declared. -/
theorem resolve_of_not_contains_office :
    ∃ s', Store.build (Document.render ⟨[office, otherOffice, everyone]⟩) = .ok s' ∧
      s'.resolve (.v6 0xffff0a010001) "A.B" .a =
        some ⟨[.a 0x0a010001], .client "10.1.0.0/16"⟩ ∧
      s'.targets (.v6 0xffff0a010001) = [.endpoint (.v4 0xc0000201 53)] := by
  have hread : Document.read (Document.render ⟨[office, everyone]⟩) =
      some ⟨[office] ++ [everyone]⟩ := by rfl
  have hread' : Document.read (Document.render ⟨[office, otherOffice, everyone]⟩) =
      some ⟨[office] ++ otherOffice :: [everyone]⟩ := by rfl
  have hbuilds : (Store.ofEntries [office, otherOffice, everyone]).toOption.isSome = true := by
    decide +kernel
  obtain ⟨s', hs'⟩ := Option.isSome_iff_exists.mp hbuilds
  have hbuild' := (build_of_read hread').trans (toOption_eq_some_iff.mp hs')
  have hnet : Selector.ofText otherOffice.1 =
      .ok (.network (.v4 0x0a020000 16 (by decide))) :=
    toOption_eq_some_iff.mp (by decide +kernel)
  have hout : (Selector.network (.v4 0x0a020000 16 (by decide))).contains
      (.v6 0xffff0a010001) = false := by
    decide
  obtain ⟨s, hbuild, hresolve, htargets⟩ :=
    resolve_of_not_contains hread hread' hnet hbuild' hout
  have hfacts : (Store.ofEntries [office, everyone]).toOption.all (fun s =>
      s.resolve (.v6 0xffff0a010001) "A.B" .a =
          some ⟨[.a 0x0a010001], .client "10.1.0.0/16"⟩ ∧
        s.targets (.v6 0xffff0a010001) = [.endpoint (.v4 0xc0000201 53)]) = true := by
    decide +kernel
  have hs := toOption_eq_some_iff.mpr ((build_of_read hread).symm.trans hbuild)
  rw [List.singleton_append] at hs
  rw [hs, Option.all_some, decide_eq_true_eq] at hfacts
  exact ⟨s', hbuild', (hresolve "A.B" .a).trans hfacts.1, htargets.trans hfacts.2⟩

end SplitHorizon
