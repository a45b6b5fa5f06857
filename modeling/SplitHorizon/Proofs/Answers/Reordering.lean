import SplitHorizon.Proofs.Answers.Isolation
import SplitHorizon.Proofs.Answers.Targets
/-!
# The order of entries in a document

Which order of its entries a document may be given without a change to its store. The duplicates
that make a document faulty are duplicates in any order, and the store sorts its networks by prefix
length, so only networks of one prefix length are told apart by their order: a document may be
reordered in any way that keeps those as they stand (`Reordering`), and builds the same store, if it
builds (`Reordering.ofEntries_eq_ok_iff`).

Of the servers for everyone the last list counts, so a document with two such lists could tell their
order apart; one such list may stand anywhere.
-/

namespace SplitHorizon

/-! ## Reorderings -/

/-- The prefix length of an entry's network, if the entry is for a network. -/
def networkLength? (e : String × Json) : Option Nat :=
  (Selector.ofText e.1).toOption.bind Selector.specificity

/-- The entries of one document are those of another one in a different order, in which networks of
one prefix length follow each other as they did. -/
structure Reordering (entries entries' : List (String × Json)) : Prop where
  perm : entries.Perm entries'
  inOrder : ∀ n e₁ e₂, networkLength? e₁ = some n → networkLength? e₂ = some n →
    [e₁, e₂].Sublist entries → [e₁, e₂].Sublist entries'

/-- An entry has a prefix length exactly if its key is read as a network with a prefix of that
length. -/
theorem networkLength?_eq_some_iff {e : String × Json} {n : Nat} :
    networkLength? e = some n ↔
      ∃ net, Selector.ofText e.1 = .ok (.network net) ∧ net.length = n := by
  unfold networkLength?
  cases Selector.ofText e.1 with
  | error why => exact ⟨nofun, nofun⟩
  | ok selector =>
    cases selector with
    | default => exact ⟨nofun, nofun⟩
    | network net =>
      constructor
      · intro h
        exact ⟨net, rfl, Option.some.inj h⟩
      · intro h
        obtain ⟨_, hnet, hn⟩ := h
        cases hnet
        exact congrArg some hn

/-! ## Classes of items that stay in order -/

section

variable {α : Type} {l l' : List α}

/-- In a list without repetitions no two items stand before each other. -/
theorem eq_of_sublist_of_sublist (hnodup : l.Nodup) {a b : α} (hab : [a, b].Sublist l)
    (hba : [b, a].Sublist l) : a = b := by
  induction l with
  | nil => cases hab
  | cons c l ih =>
    obtain ⟨hnew, hnodup⟩ := List.nodup_cons.mp hnodup
    cases hab with
    | cons _ hab =>
      cases hba with
      | cons _ hba => exact ih hnodup hab hba
      | cons_cons _ _ => exact absurd (hab.subset (List.mem_cons_of_mem _ List.mem_cons_self)) hnew
    | cons_cons _ _ =>
      cases hba with
      | cons _ hba => exact absurd (hba.subset (List.mem_cons_of_mem _ List.mem_cons_self)) hnew
      | cons_cons _ _ => rfl

/-- A class of items without repetitions that stay in order is the same list after a reordering. -/
theorem filter_eq_of_perm {p : α → Bool} (hperm : l.Perm l') (hnodup : (l'.filter p).Nodup)
    (hinOrder : ∀ a b, p a = true → p b = true → [a, b].Sublist l → [a, b].Sublist l') :
    l.filter p = l'.filter p := by
  have hantisymm : ∀ a b, a ∈ l.filter p → b ∈ l'.filter p → [a, b].Sublist (l'.filter p) →
      [b, a].Sublist (l'.filter p) → a = b :=
    fun a b _ _ hab hba => eq_of_sublist_of_sublist hnodup hab hba
  refine List.Perm.eq_of_pairwise hantisymm ?_ ?_ (hperm.filter p)
  · rw [List.pairwise_iff_forall_sublist]
    intro a b hab
    have ha : p a = true := (List.mem_filter.mp (hab.subset List.mem_cons_self)).2
    have hb : p b = true :=
      (List.mem_filter.mp (hab.subset (List.mem_cons_of_mem _ List.mem_cons_self))).2
    have hsub := (hinOrder a b ha hb (hab.trans List.filter_sublist)).filter p
    rwa [List.filter_cons_of_pos ha, List.filter_cons_of_pos hb, List.filter_nil] at hsub
  · rw [List.pairwise_iff_forall_sublist]
    intro a b hab
    exact hab

/-- One item at most has no order. -/
theorem filter_eq_of_perm_of_length {p : α → Bool} (hperm : l.Perm l')
    (hone : (l.filter p).length ≤ 1) : l.filter p = l'.filter p := by
  have hfilter := hperm.filter p
  generalize l.filter p = found at hfilter hone
  rcases found with _ | ⟨a, _ | ⟨b, rest⟩⟩
  · exact (List.nil_perm.mp hfilter).symm
  · exact List.singleton_perm.mp hfilter
  · rw [List.length_cons, List.length_cons] at hone
    omega

end

/-! ## What a reordered document declares -/

section

variable {entries entries' : List (String × Json)}

/-- Entries for networks of one length, if their selectors differ, are themselves different. -/
theorem nodup_filter_networkLength? (hkeys : (entries.filterMap selectorKey?).Nodup) (n : Nat) :
    (entries.filter fun e => networkLength? e == some n).Nodup := by
  have hclass := hkeys.sublist
    ((List.filter_sublist (p := fun e => networkLength? e == some n)).filterMap selectorKey?)
  rw [List.Nodup, List.pairwise_filterMap] at hclass
  refine hclass.imp_of_mem fun {e₁ e₂} he₁ _ hne heq => ?_
  subst heq
  obtain ⟨net, hnet, _⟩ :=
    networkLength?_eq_some_iff.mp (beq_iff_eq.mp (List.mem_filter.mp he₁).2)
  have hkey : selectorKey? e₁ = some (keyForm e₁.1) := if_neg (ne_recurseKey_of_ofText hnet)
  exact hne _ hkey _ hkey rfl

/-- A reordering leaves the networks of one prefix length in their order. -/
theorem Reordering.filter_networkLength? (h : Reordering entries entries')
    (hkeys : (entries.filterMap selectorKey?).Nodup) (n : Nat) :
    (entries.filter fun e => networkLength? e == some n) =
      entries'.filter fun e => networkLength? e == some n := by
  have hkeys' := ((h.perm.filterMap selectorKey?).nodup_iff).mp hkeys
  refine filter_eq_of_perm h.perm (nodup_filter_networkLength? hkeys' n) fun e₁ e₂ he₁ he₂ hsub => ?_
  exact h.inOrder n e₁ e₂ (beq_iff_eq.mp he₁) (beq_iff_eq.mp he₂) hsub

/-- The zones of networks of one length are declared by the entries for networks of that length. -/
theorem filter_filterMap_networkZone? (entries : List (String × Json)) (n : Nat) :
    ((entries.filterMap networkZone?).filter fun z => z.network.length == n) =
      (entries.filter fun e => networkLength? e == some n).filterMap networkZone? := by
  rw [List.filter_filterMap, List.filterMap_filter]
  congr 1
  funext e
  cases hz : networkZone? e with
  | none => rw [Option.filter_none, ite_self]
  | some z =>
    obtain ⟨_, hnet, _⟩ := networkZone?_eq_some_iff.mp hz
    have hlength : networkLength? e = some z.network.length :=
      networkLength?_eq_some_iff.mpr ⟨z.network, hnet, rfl⟩
    rw [hlength, Option.filter_some, Option.some_beq_some]

/-- A reordering leaves the zone for everyone else, of which there is one at most. -/
theorem Reordering.fallbackZones_eq (h : Reordering entries entries')
    (hkeys : (entries.filterMap selectorKey?).Nodup) :
    entries.filterMap fallbackZone? = entries'.filterMap fallbackZone? := by
  have hnone : ∀ e, isFallback e = false → fallbackZone? e = none := by
    intro e he
    cases hz : fallbackZone? e with
    | none => rfl
    | some z =>
      rw [isFallback_eq_true_iff.mpr (fallbackZone?_eq_some_iff.mp hz).1] at he
      cases he
  rw [← filterMap_filter_of_none fun e _ => hnone e,
    filter_eq_of_perm_of_length h.perm (length_filter_isFallback hkeys),
    filterMap_filter_of_none fun e _ => hnone e]

/-- A reordering leaves the list of servers for everyone, if there is one at most. -/
theorem Reordering.commonTargets_eq (h : Reordering entries entries')
    (hone : (entries.filter isCommon).length ≤ 1) :
    entries.filterMap commonTargets? = entries'.filterMap commonTargets? := by
  have hnone : ∀ e, isCommon e = false → commonTargets? e = none := by
    intro e he
    exact if_neg (beq_eq_false_iff_ne.mp he)
  rw [← filterMap_filter_of_none fun e _ => hnone e, filter_eq_of_perm_of_length h.perm hone,
    filterMap_filter_of_none fun e _ => hnone e]

/-- Reordered entries declare one store. -/
theorem Reordering.toStore_eq (h : Reordering entries entries')
    (hkeys : (entries.filterMap selectorKey?).Nodup)
    (hone : (entries.filter isCommon).length ≤ 1) :
    (Declared.none.extend entries).toStore = (Declared.none.extend entries').toStore := by
  have hnetworks : (entries.filterMap networkZone?).mergeSort
      (fun a b => b.network.length ≤ a.network.length) =
        (entries'.filterMap networkZone?).mergeSort
          fun a b => b.network.length ≤ a.network.length := by
    rw [mergeSort_narrower, mergeSort_narrower]
    congr 1
    funext n
    rw [filter_filterMap_networkZone?, filter_filterMap_networkZone?,
      h.filter_networkLength? hkeys n]
  simp only [Declared.toStore, Declared.extend, Declared.none, List.nil_append, hnetworks,
    h.fallbackZones_eq hkeys, h.commonTargets_eq hone]

/-- **A reordered document builds the store that it built before.** -/
theorem Reordering.ofEntries_eq_ok_iff (h : Reordering entries entries')
    (hone : (entries.filter isCommon).length ≤ 1) {s : Store} :
    Store.ofEntries entries' = .ok s ↔ Store.ofEntries entries = .ok s := by
  rw [SplitHorizon.ofEntries_eq_ok_iff, SplitHorizon.ofEntries_eq_ok_iff]
  have hsound : (∀ e ∈ entries', IsSoundEntry e) ↔ ∀ e ∈ entries, IsSoundEntry e :=
    forall_congr' fun e => imp_congr_left h.perm.symm.mem_iff
  have hkeys : (entries'.filterMap selectorKey?).Nodup ↔
      (entries.filterMap selectorKey?).Nodup :=
    (h.perm.symm.filterMap selectorKey?).nodup_iff
  rw [hsound, hkeys]
  refine and_congr_right fun _ => and_congr_right fun hnodup => ?_
  rw [h.toStore_eq hnodup hone]

/-- **Only networks of one prefix length are told apart by their order.** A document that lists
servers for everyone once at most may be reordered in any way that keeps the networks of one length
as they stand: it builds if and only if it did, and then every client is given the same answers from
the same sources and the same servers, and the store has the same counts. -/
theorem build_reordering {text text' : String} (hread : Document.read text = some ⟨entries⟩)
    (hread' : Document.read text' = some ⟨entries'⟩) (hreorder : Reordering entries entries')
    (hone : (entries.filter isCommon).length ≤ 1) :
    ((∃ s', Store.build text' = .ok s') ↔ ∃ s, Store.build text = .ok s) ∧
      ∀ s s', Store.build text = .ok s → Store.build text' = .ok s' →
        (∀ client name kind, s'.resolve client name kind = s.resolve client name kind) ∧
          (∀ client, s'.targets client = s.targets client) ∧ s'.counts = s.counts := by
  rw [build_of_read hread, build_of_read hread']
  simp only [hreorder.ofEntries_eq_ok_iff hone]
  refine ⟨trivial, fun s s' hs hs' => ?_⟩
  obtain rfl : s = s' := Except.ok.inj (hs.symm.trans hs')
  exact ⟨fun _ _ _ => rfl, fun _ => rfl, rfl⟩

end

/-- A network that the two offices are parts of. -/
def company : String × Json := ("10.0.0.0/8", addressZone "a.b" "10.0.0.1")

/-- The two offices stay in order, and the rest moves around them. -/
theorem reordering_company :
    Reordering [company, office, otherOffice, everyone] [everyone, office, otherOffice, company] := by
  have hcompany : networkLength? company = some 8 := by decide +kernel
  have hoffice : networkLength? office = some 16 := by decide +kernel
  have hother : networkLength? otherOffice = some 16 := by decide +kernel
  have heveryone : networkLength? everyone = none := by decide +kernel
  constructor
  · have hback : [office, otherOffice, everyone].Perm [everyone, office, otherOffice] :=
      List.perm_append_singleton everyone [office, otherOffice]
    exact (hback.cons company).trans
      (List.perm_append_singleton company [everyone, office, otherOffice]).symm
  · have hpairs : [company, office, otherOffice, everyone].Pairwise fun e₁ e₂ =>
        ∀ n, networkLength? e₁ = some n → networkLength? e₂ = some n →
          [e₁, e₂].Sublist [everyone, office, otherOffice, company] := by
      simp [hcompany, hoffice, hother, heveryone]
    intro n e₁ e₂ h₁ h₂ hsub
    exact List.pairwise_iff_forall_sublist.mp hpairs hsub n h₁ h₂

set_option maxRecDepth 1000 in
/-- With the widest network moved to the end and the servers to the front, the client at the first
office is answered for its office still. -/
theorem build_reordering_company :
    ∃ s', Store.build (Document.render ⟨[everyone, office, otherOffice, company]⟩) = .ok s' ∧
      s'.resolve (.v4 0x0a010001) "a.b" .a = some ⟨[.a 0x0a010001], .client "10.1.0.0/16"⟩ ∧
      s'.targets (.v4 0x0a010001) = [.endpoint (.v4 0xc0000201 53)] ∧ s'.counts = ⟨4, 3, 1⟩ := by
  have hread : Document.read (Document.render ⟨[company, office, otherOffice, everyone]⟩) =
      some ⟨[company, office, otherOffice, everyone]⟩ := by rfl
  have hread' : Document.read (Document.render ⟨[everyone, office, otherOffice, company]⟩) =
      some ⟨[everyone, office, otherOffice, company]⟩ := by rfl
  have hone : ([company, office, otherOffice, everyone].filter isCommon).length ≤ 1 := by
    decide +kernel
  obtain ⟨hiff, hsame⟩ := build_reordering hread hread' reordering_company hone
  have hfacts : (Store.ofEntries [company, office, otherOffice, everyone]).toOption.any (fun s =>
      s.resolve (.v4 0x0a010001) "a.b" .a = some ⟨[.a 0x0a010001], .client "10.1.0.0/16"⟩ ∧
        s.targets (.v4 0x0a010001) = [.endpoint (.v4 0xc0000201 53)] ∧
        s.counts = ⟨4, 3, 1⟩) = true := by
    -- the sort itself does not evaluate
    simp only [Store.ofEntries, Declared.toStore, mergeSort_narrower]
    decide +kernel
  obtain ⟨s, hs, hfacts⟩ := (Option.any_eq_true _ _).mp hfacts
  obtain ⟨hanswer, htargets, hcounts⟩ := of_decide_eq_true hfacts
  have hbuild := (build_of_read hread).trans (toOption_eq_some_iff.mp hs)
  obtain ⟨s', hbuild'⟩ := hiff.mpr ⟨s, hbuild⟩
  obtain ⟨hresolve, hservers, hsizes⟩ := hsame s s' hbuild hbuild'
  exact ⟨s', hbuild', (hresolve _ _ _).trans hanswer, (hservers _).trans htargets,
    hsizes.trans hcounts⟩

end SplitHorizon
