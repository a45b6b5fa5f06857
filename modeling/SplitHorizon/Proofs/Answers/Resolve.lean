import SplitHorizon.Proofs.Answers.Entries
import SplitHorizon.Proofs.Answers.Order
/-!
# Answers by the document alone

What a client is answered, said of the document and not of the store: of the networks that contain
the client and whose zones declare the name and the kind, the one with the longest prefix answers,
and of those of one length the first that stands in the document. If there is none, the zone for
everyone else answers, if it declares them. `Answers` is this rule; `resolve_build` says that the
store built of a document follows it, for every client, name and kind.
-/

namespace SplitHorizon

/-! ## The rule -/

/-- An entry offers a client values: it is that of a network which contains the client, and its zone
declares the values under the name and the kind. -/
structure Offers (client : Address) (name : String) (kind : RecordKind) (e : String × Json)
    (net : Network) (values : List RecordValue) : Prop where
  selector : Selector.ofText e.1 = .ok (.network net)
  contains : net.contains client.canonical = true
  declares : e.2.Declares name kind values

/-- **What a document answers a client with.** The entry that answers is narrower than every one
before it that offers an answer too, and not wider than any such one behind it. -/
inductive Answers (entries : List (String × Json)) (client : Address) (name : String)
    (kind : RecordKind) : Option LocalAnswer → Prop
  | network {before after : List (String × Json)} {e : String × Json} {net : Network}
      {values : List RecordValue} (split : entries = before ++ e :: after)
      (offers : Offers client name kind e net values)
      (narrower : ∀ e' ∈ before, ∀ net' values', Offers client name kind e' net' values' →
        net'.length < net.length)
      (notWider : ∀ e' ∈ after, ∀ net' values', Offers client name kind e' net' values' →
        net'.length ≤ net.length) :
      Answers entries client name kind (some ⟨values, .client e.1⟩)
  | default {e : String × Json} {values : List RecordValue}
      (noNetwork : ∀ e' ∈ entries, ∀ net' values', ¬ Offers client name kind e' net' values')
      (isEntry : e ∈ entries) (selector : Selector.ofText e.1 = .ok .default)
      (declares : e.2.Declares name kind values) :
      Answers entries client name kind (some ⟨values, .default⟩)
  | nothing
      (noNetwork : ∀ e' ∈ entries, ∀ net' values', ¬ Offers client name kind e' net' values')
      (noDefault : ∀ e ∈ entries, Selector.ofText e.1 = .ok .default →
        ∀ values, ¬ e.2.Declares name kind values) :
      Answers entries client name kind none

/-! ## What the zones of networks say -/

/-- The answer that a network's zone has for a client. -/
def NetworkZone.answer? (client : Address) (name : String) (kind : RecordKind) (z : NetworkZone) :
    Option LocalAnswer :=
  if z.network.contains client.canonical then
    (z.zone.lookup name kind).map fun values => ⟨values, .client z.key⟩
  else none

/-- A network's zone has an answer for a client exactly if the network contains the client and the
zone has values under the name and the kind. -/
theorem NetworkZone.answer?_eq_some_iff {client : Address} {name : String} {kind : RecordKind}
    {z : NetworkZone} {answer : LocalAnswer} :
    z.answer? client name kind = some answer ↔ z.network.contains client.canonical = true ∧
      ∃ values, z.zone.lookup name kind = some values ∧ answer = ⟨values, .client z.key⟩ := by
  unfold answer?
  split
  · rename_i hc
    rw [Option.map_eq_some_iff]
    exact ⟨fun ⟨values, h, heq⟩ => ⟨hc, values, h, heq.symm⟩,
      fun ⟨_, values, h, heq⟩ => ⟨values, h, heq.symm⟩⟩
  · rename_i hc
    exact ⟨nofun, fun h => absurd h.1 hc⟩

/-- A search among the items that satisfy a condition asks each item for both. -/
theorem findSome?_filter {α β : Type} (p : α → Bool) (f : α → Option β) (l : List α) :
    (l.filter p).findSome? f = l.findSome? fun a => if p a then f a else none := by
  induction l with
  | nil => rfl
  | cons a l ih =>
    rw [List.findSome?_cons, List.filter_cons]
    cases hp : p a with
    | true => simp only [if_true, List.findSome?_cons, ih]
    | false => simp only [Bool.false_eq_true, if_false, ih]

/-- A client is answered from the first network that has an answer for it, and else from the zone
for everyone else. -/
theorem resolve_eq {s : Store} {client : Address} {name : String} {kind : RecordKind} :
    s.resolve client name kind =
      (s.networks.findSome? (NetworkZone.answer? client (Name.lookupKey name) kind)).or
        ((s.fallback.lookup (Name.lookupKey name) kind).map fun values => ⟨values, .default⟩) := by
  have hfind : ((s.matching client).findSome? fun z =>
      (z.zone.lookup (Name.lookupKey name) kind).map fun values =>
        LocalAnswer.mk values (.client z.key)) =
      s.networks.findSome? (NetworkZone.answer? client (Name.lookupKey name) kind) :=
    findSome?_filter ..
  simp only [Store.resolve, hfind]
  cases s.networks.findSome? (NetworkZone.answer? client (Name.lookupKey name) kind) <;> rfl

section

variable {entries : List (String × Json)} {client : Address} {name : String} {kind : RecordKind}

/-- A sound entry offers what the zone that is read from it answers. -/
theorem offers_iff {e : String × Json} (he : IsSoundEntry e) {net : Network}
    {values : List RecordValue} :
    Offers client name kind e net values ↔ ∃ z, networkZone? e = some z ∧ z.network = net ∧
      z.answer? client name kind = some ⟨values, .client e.1⟩ := by
  constructor
  · intro h
    obtain ⟨hsel, hc, hvalues⟩ := h
    obtain ⟨_, z, _, hread⟩ := he.zone (ne_recurseKey_of_ofText hsel)
    exact ⟨⟨e.1, net, z⟩, networkZone?_eq_some_iff.mpr ⟨rfl, hsel, hread⟩, rfl,
      NetworkZone.answer?_eq_some_iff.mpr ⟨hc, values, (lookup_readZone hread).mpr hvalues, rfl⟩⟩
  · intro h
    obtain ⟨z, hz, rfl, hanswer⟩ := h
    obtain ⟨_, hsel, hread⟩ := networkZone?_eq_some_iff.mp hz
    obtain ⟨hc, values', hlookup, heq⟩ := NetworkZone.answer?_eq_some_iff.mp hanswer
    obtain rfl := (LocalAnswer.mk.inj heq).1
    exact ⟨hsel, hc, (lookup_readZone hread).mp hlookup⟩

/-- An entry whose zone answers offers the answer. -/
theorem offers_of_answer? {e : String × Json} (he : IsSoundEntry e) {z : NetworkZone}
    (hz : networkZone? e = some z) {answer : LocalAnswer}
    (hanswer : z.answer? client name kind = some answer) :
    ∃ values, answer = ⟨values, .client e.1⟩ ∧ Offers client name kind e z.network values := by
  obtain ⟨_, values, _, rfl⟩ := NetworkZone.answer?_eq_some_iff.mp hanswer
  obtain ⟨hkey, _⟩ := networkZone?_eq_some_iff.mp hz
  rw [hkey] at hanswer ⊢
  exact ⟨values, rfl, (offers_iff he).mpr ⟨z, hz, rfl, hanswer⟩⟩

/-- The answers of the zones that a document's entries declare are those that the entries offer. -/
theorem answers_of_findSome? (hsound : ∀ e ∈ entries, IsSoundEntry e) {answer : LocalAnswer}
    (h : ((entries.filterMap networkZone?).mergeSort fun a b =>
      b.network.length ≤ a.network.length).findSome? (NetworkZone.answer? client name kind) =
        some answer) :
    Answers entries client name kind (some answer) := by
  obtain ⟨zs, z, zs', hsplit, hz, hzs, hzs'⟩ := findSome?_mergeSort_narrower h
  obtain ⟨l, l', rfl, rfl, hl'⟩ := List.filterMap_eq_append_iff.mp hsplit
  obtain ⟨passed, e, after, rfl, hpassed, he, rfl⟩ := List.filterMap_eq_cons_iff.mp hl'
  simp only [List.mem_append, List.mem_cons] at hsound
  obtain ⟨values, rfl, hoffers⟩ := offers_of_answer? (hsound e (.inr (.inr (.inl rfl)))) he hz
  refine .network (List.append_assoc l passed (e :: after)).symm hoffers ?_ ?_
  · intro e' he' net' values' hoffers'
    rcases List.mem_append.mp he' with he' | he'
    · obtain ⟨z', hz', rfl, hanswer⟩ := (offers_iff (hsound e' (.inl he'))).mp hoffers'
      exact hzs z' (List.mem_filterMap.mpr ⟨e', he', hz'⟩) (hanswer ▸ nofun)
    · obtain ⟨z', hz', _⟩ := (offers_iff (hsound e' (.inr (.inl he')))).mp hoffers'
      rw [hpassed e' he'] at hz'
      cases hz'
  · intro e' he' net' values' hoffers'
    obtain ⟨z', hz', rfl, hanswer⟩ := (offers_iff (hsound e' (.inr (.inr (.inr he'))))).mp hoffers'
    exact hzs' z' (List.mem_filterMap.mpr ⟨e', he', hz'⟩) (hanswer ▸ nofun)

/-- Where no network's zone answers, no entry offers an answer. -/
theorem not_offers_of_findSome? (hsound : ∀ e ∈ entries, IsSoundEntry e)
    (h : ((entries.filterMap networkZone?).mergeSort fun a b =>
      b.network.length ≤ a.network.length).findSome? (NetworkZone.answer? client name kind) =
        none) :
    ∀ e ∈ entries, ∀ net values, ¬ Offers client name kind e net values := by
  intro e he net values hoffers
  obtain ⟨z, hz, _, hanswer⟩ := (offers_iff (hsound e he)).mp hoffers
  have hmem := (List.mergeSort_perm (entries.filterMap networkZone?) fun a b =>
    b.network.length ≤ a.network.length).mem_iff.mpr (List.mem_filterMap.mpr ⟨e, he, hz⟩)
  rw [List.findSome?_eq_none_iff.mp h z hmem] at hanswer
  cases hanswer

/-- **A built store answers as its document does.** -/
theorem answers_resolve {s : Store} (h : Store.ofEntries entries = .ok s) (name : String) :
    Answers entries client (Name.lookupKey name) kind (s.resolve client name kind) := by
  obtain ⟨hsound, _, hs⟩ := ofEntries_eq_ok_iff.mp h
  have hnetworks : s.networks = (entries.filterMap networkZone?).mergeSort fun a b =>
      b.network.length ≤ a.network.length := by rw [hs]; rfl
  rw [resolve_eq, hnetworks]
  cases hfind : ((entries.filterMap networkZone?).mergeSort fun a b =>
      b.network.length ≤ a.network.length).findSome?
        (NetworkZone.answer? client (Name.lookupKey name) kind) with
  | some answer => exact answers_of_findSome? hsound hfind
  | none =>
    have hnone := not_offers_of_findSome? hsound hfind
    rw [Option.none_or]
    cases hlookup : s.fallback.lookup (Name.lookupKey name) kind with
    | some values =>
      obtain ⟨e, he, hsel, hvalues⟩ := (lookup_fallback h).mp hlookup
      exact .default hnone he hsel hvalues
    | none =>
      refine .nothing hnone fun e he hsel values hvalues => ?_
      rw [(lookup_fallback h).mpr ⟨e, he, hsel, hvalues⟩] at hlookup
      cases hlookup

/-! ## The rule gives one answer -/

/-- What a sound entry offers is determined. -/
theorem Offers.unique {e : String × Json} (he : IsSoundEntry e) {net net' : Network}
    {values values' : List RecordValue} (h : Offers client name kind e net values)
    (h' : Offers client name kind e net' values') : net = net' ∧ values = values' := by
  obtain ⟨z, hz, rfl, hanswer⟩ := (offers_iff he).mp h
  obtain ⟨z', hz', rfl, hanswer'⟩ := (offers_iff he).mp h'
  obtain rfl : z = z' := Option.some.inj (hz.symm.trans hz')
  exact ⟨rfl, (LocalAnswer.mk.inj (Option.some.inj (hanswer.symm.trans hanswer'))).1⟩

/-- Of two items of a list one stands before the other, or they are the same. -/
theorem append_cons_eq_append_cons {α : Type} {before before' after after' : List α} {a a' : α}
    (h : before ++ a :: after = before' ++ a' :: after') :
    a = a' ∨ a ∈ before' ∧ a' ∈ after ∨ a' ∈ before ∧ a ∈ after' := by
  rcases List.append_eq_append_iff.mp h with ⟨mid, hbefore, hafter⟩ | ⟨mid, hbefore, hafter⟩
  · cases mid with
    | nil => exact .inl (List.cons.inj hafter).1
    | cons b mid =>
      obtain ⟨rfl, rfl⟩ := List.cons.inj hafter
      refine .inr (.inl ⟨?_, List.mem_append_right _ List.mem_cons_self⟩)
      rw [hbefore]
      exact List.mem_append_right _ List.mem_cons_self
  · cases mid with
    | nil => exact .inl (List.cons.inj hafter).1.symm
    | cons b mid =>
      obtain ⟨rfl, rfl⟩ := List.cons.inj hafter
      refine .inr (.inr ⟨?_, List.mem_append_right _ List.mem_cons_self⟩)
      rw [hbefore]
      exact List.mem_append_right _ List.mem_cons_self

/-- The entry that answers is the only one that can. -/
theorem Answers.unique {s : Store} (h : Store.ofEntries entries = .ok s)
    {answer answer' : Option LocalAnswer} (ha : Answers entries client name kind answer)
    (ha' : Answers entries client name kind answer') : answer = answer' := by
  have hsound := (ofEntries_eq_ok_iff.mp h).1
  have hmem : ∀ {before after : List (String × Json)} {e : String × Json},
      entries = before ++ e :: after → e ∈ entries := by
    rintro before after e rfl
    exact List.mem_append_right _ List.mem_cons_self
  cases ha with
  | @network before after e net values split offers narrower notWider =>
    cases ha' with
    | @network before' after' e' net' values' split' offers' narrower' notWider' =>
      rcases append_cons_eq_append_cons (split.symm.trans split') with rfl | ⟨he, he'⟩ | ⟨he', he⟩
      · obtain ⟨rfl, rfl⟩ := offers.unique (hsound e (hmem split)) offers'
        rfl
      · have h₁ := narrower' e he net values offers
        have h₂ := notWider e' he' net' values' offers'
        omega
      · have h₁ := narrower e' he' net' values' offers'
        have h₂ := notWider' e he net values offers
        omega
    | default noNetwork => exact absurd offers (noNetwork e (hmem split) net values)
    | nothing noNetwork => exact absurd offers (noNetwork e (hmem split) net values)
  | @default e values noNetwork isEntry selector declares =>
    cases ha' with
    | @network before' after' e' net' values' split' offers' =>
      exact absurd offers' (noNetwork e' (hmem split') net' values')
    | default _ isEntry' selector' declares' =>
      have h₁ := (lookup_fallback h).mpr ⟨e, isEntry, selector, declares⟩
      have h₂ := (lookup_fallback h).mpr ⟨_, isEntry', selector', declares'⟩
      rw [Option.some.inj (h₁.symm.trans h₂)]
    | nothing _ noDefault => exact absurd declares (noDefault e isEntry selector values)
  | nothing noNetwork noDefault =>
    cases ha' with
    | @network before' after' e' net' values' split' offers' =>
      exact absurd offers' (noNetwork e' (hmem split') net' values')
    | @default e' values' _ isEntry' selector' declares' =>
      exact absurd declares' (noDefault e' isEntry' selector' values')
    | nothing => rfl

end

/-- **A store answers a client with exactly what its document says**: the values of the narrowest
matching network that declares the name and the kind, the first of those of one length, with its key
as it is written; else those of the zone for everyone else; and nothing only if that zone does not
declare them either. -/
theorem resolve_build {text : String} {s : Store} (h : Store.build text = .ok s) :
    ∃ d, Document.read text = some d ∧ ∀ client name kind answer,
      s.resolve client name kind = answer ↔
        Answers d.entries client (Name.lookupKey name) kind answer := by
  unfold Store.build at h
  split at h
  · cases h
  · rename_i d hd
    refine ⟨d, hd, fun client name kind answer => ?_⟩
    have hresolve : Answers d.entries client (Name.lookupKey name) kind
        (s.resolve client name kind) := answers_resolve h name
    constructor
    · rintro rfl
      exact hresolve
    · intro hanswer
      exact hresolve.unique h hanswer

/-- Two networks of one length, a narrower one that lacks the kind, and a zone for everyone else. -/
def overlapping : String := "\x7b\"default\":\x7b\"a.b\":\x7b\"A\":[\"10.0.0.9\"]\x7d\x7d," ++
  "\"10.0.0.0/8\":\x7b\"A.b.\":\x7b\"a\":[\"10.0.0.2\",\"10.0.0.1\"]\x7d\x7d," ++
  "\"10.9.9.9/8\":\x7b\"a.b\":\x7b\"A\":[\"10.0.0.3\"]\x7d\x7d," ++
  "\"10.2.0.0/16\":\x7b\"a.b\":\x7b\"TXT\":[\"t\"]\x7d\x7d\x7d"

/-- The client ::ffff:10.2.0.1 is answered for the first of the two networks of one length. -/
theorem resolve_build_overlapping :
    ∃ s d, Store.build overlapping = .ok s ∧ Document.read overlapping = some d ∧
      Answers d.entries (.v6 0xffff0a020001) "a.b." .a
        (some ⟨[.a 0x0a000002, .a 0x0a000001], .client "10.0.0.0/8"⟩) := by
  have hanswer : ((Store.build overlapping).toOption.bind fun s =>
      s.resolve (.v6 0xffff0a020001) "A.B" .a) =
        some ⟨[.a 0x0a000002, .a 0x0a000001], .client "10.0.0.0/8"⟩ := by
    -- the sort itself does not evaluate
    simp only [Store.build, Store.ofEntries, Declared.toStore, mergeSort_narrower]
    decide +kernel
  obtain ⟨s, hs, hresolve⟩ := Option.bind_eq_some_iff.mp hanswer
  have hbuild := toOption_eq_some_iff.mp hs
  obtain ⟨d, hd, hrule⟩ := resolve_build hbuild
  exact ⟨s, d, hbuild, hd, (hrule (.v6 0xffff0a020001) "A.B" .a _).mp hresolve⟩

end SplitHorizon
