import SplitHorizon.Proofs.Answers.Reordering
/-!
# The list of a client's servers

The servers that a built store has for a client, from the text of the document on: those that the
document lists for the client, without their repetitions, in the order of the first occurrences. So
the list names each server once, no others and all of them; and it does not depend on where the
document has the servers for everyone and the zone for everyone else (`targets_build`).
-/

namespace SplitHorizon

/-- Whether an entry is for a network. -/
def isForNetwork (e : String × Json) : Bool := (networkLength? e).isSome

/-- Entries that are for no network may stand anywhere. -/
theorem Reordering.of_filter_eq {entries entries' : List (String × Json)}
    (hperm : entries.Perm entries')
    (hnetworks : entries.filter isForNetwork = entries'.filter isForNetwork) :
    Reordering entries entries' := by
  have hnetwork : ∀ e n, networkLength? e = some n → isForNetwork e = true := by
    intro e n h
    rw [isForNetwork, h]
    rfl
  refine ⟨hperm, fun n e₁ e₂ h₁ h₂ hsub => ?_⟩
  have hkept := hsub.filter isForNetwork
  rw [List.filter_cons_of_pos (hnetwork e₁ n h₁), List.filter_cons_of_pos (hnetwork e₂ n h₂),
    List.filter_nil, hnetworks] at hkept
  exact hkept.trans List.filter_sublist

/-- **The servers for a client are those that the document lists**, each at its first occurrence:
the servers of the networks that contain the client, the longest prefix first and in one length as
they stand, then those for everyone, then those of the zone for everyone else (`listedFor`). If the
entries that are for no network are moved anywhere else, the document builds the same store. -/
theorem targets_build {text : String} {s : Store} (h : Store.build text = .ok s) :
    ∃ d, Document.read text = some d ∧ ((d.entries.filter isCommon).length ≤ 1 →
      (∀ client,
        s.targets client = (listedFor d.entries client).eraseDups ∧
        (s.targets client).Nodup ∧
        (∀ target, target ∈ s.targets client ↔ target ∈ listedFor d.entries client) ∧
        ∀ target target', (s.targets client).idxOf target < (s.targets client).idxOf target' ↔
          (listedFor d.entries client).idxOf target <
            (listedFor d.entries client).idxOf target') ∧
      ∀ text' d', Document.read text' = some d' → d.entries.Perm d'.entries →
        d.entries.filter isForNetwork = d'.entries.filter isForNetwork →
        Store.build text' = .ok s) := by
  cases hread : Document.read text with
  | none =>
    rw [Store.build, hread] at h
    cases h
  | some d =>
    rw [build_of_read hread] at h
    refine ⟨d, rfl, fun hone => ⟨fun client => ?_, fun text' d' hread' hperm hnetworks => ?_⟩⟩
    · rw [targets_ofEntries h hone]
      exact ⟨rfl, nodup_eraseDups _, fun _ => List.mem_eraseDups,
        fun target target' => idxOf_eraseDups_lt_iff target target' _⟩
    · have hreorder := Reordering.of_filter_eq hperm hnetworks
      rw [build_of_read hread']
      exact (hreorder.ofEntries_eq_ok_iff hone).mpr h

/-- Two networks, one inside of the other, and between them lists for everyone else and for
everyone; all of them share servers. -/
def interleaved : String := "\x7b\"default\":\x7b\"recurse\":[\"192.0.2.3\",\"192.0.2.1\"]\x7d," ++
  "\"10.0.0.0/8\":\x7b\"recurse\":[\"192.0.2.1\",\"192.0.2.2\"]\x7d," ++
  "\"recurse\":[\"192.0.2.2\",\"192.0.2.4\"]," ++
  "\"10.1.0.0/16\":\x7b\"recurse\":[\"192.0.2.5\",\"192.0.2.1\"]\x7d\x7d"

/-- A client in both networks, under its form of 128 bits, has the five servers of all lists. -/
theorem targets_build_interleaved :
    ∃ s, Store.build interleaved = .ok s ∧
      s.targets (.v6 0xffff0a010001) =
        [.endpoint (.v4 0xc0000205 53), .endpoint (.v4 0xc0000201 53),
          .endpoint (.v4 0xc0000202 53), .endpoint (.v4 0xc0000204 53),
          .endpoint (.v4 0xc0000203 53)] := by
  have hfacts : (Document.read interleaved).any (fun d =>
      (Store.ofEntries d.entries).toOption.isSome ∧ (d.entries.filter isCommon).length ≤ 1 ∧
        (listedFor d.entries (.v6 0xffff0a010001)).eraseDups =
          [.endpoint (.v4 0xc0000205 53), .endpoint (.v4 0xc0000201 53),
            .endpoint (.v4 0xc0000202 53), .endpoint (.v4 0xc0000204 53),
            .endpoint (.v4 0xc0000203 53)]) = true := by
    decide +kernel
  obtain ⟨d, hread, hfacts⟩ := (Option.any_eq_true _ _).mp hfacts
  obtain ⟨hsome, hone, hlisted⟩ := of_decide_eq_true hfacts
  obtain ⟨s, hs⟩ := Option.isSome_iff_exists.mp hsome
  have hbuild := (build_of_read hread).trans (toOption_eq_some_iff.mp hs)
  obtain ⟨d', hread', htargets⟩ := targets_build hbuild
  obtain rfl := Option.some.inj (hread.symm.trans hread')
  obtain ⟨hservers, -⟩ := (htargets hone).1 (.v6 0xffff0a010001)
  exact ⟨s, hbuild, hservers.trans hlisted⟩

end SplitHorizon
