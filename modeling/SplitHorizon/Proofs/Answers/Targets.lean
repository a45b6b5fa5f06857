import SplitHorizon.Proofs.Answers.Entries
import SplitHorizon.Proofs.Answers.Order
import SplitHorizon.Proofs.Occurrences
/-!
# The servers for a client

What a document lists for a client's unanswered queries: the servers of the networks that contain
the client, the longest prefix first and in one length as they stand in the document, then those for
everyone, then those of the zone for everyone else. A built store gives the client these servers,
each at its first occurrence (`targets_ofEntries`), wherever in the document the entries stand.
-/

namespace SplitHorizon

/-! ## What a document lists -/

/-- The servers that the zone of an entry lists. -/
def Json.listed : Json → List Target
  | .object members => members.flatMap listedTargets
  | _ => []

/-- Whether an entry is the selector of a network with a prefix length that contains a client. -/
def isNetworkOf (client : Address) (length : Nat) (e : String × Json) : Bool :=
  match Selector.ofText e.1 with
  | .ok (.network net) => net.length == length && net.contains client.canonical
  | _ => false

/-- Whether an entry is the selector for everyone else. -/
def isFallback (e : String × Json) : Bool :=
  match Selector.ofText e.1 with
  | .ok .default => true
  | _ => false

/-- Whether an entry lists servers for everyone. -/
def isCommon (e : String × Json) : Bool := e.1 == recurseKey

/-- The servers that entries list for a client, in the order in which they are asked. -/
def listedFor (entries : List (String × Json)) (client : Address) : List Target :=
  (Network.lengths.flatMap fun n => (entries.filter (isNetworkOf client n)).flatMap (·.2.listed)) ++
    ((entries.filter isCommon).flatMap fun e => e.2.targets?.getD []) ++
    (entries.filter isFallback).flatMap (·.2.listed)

/-- A zone that has been read lists the servers that its object lists. -/
theorem recurse_readZone {selector : String} {v : Json} {z : Zone}
    (h : readZone selector v = .ok z) : z.recurse = v.listed := by
  obtain ⟨members, rfl, _, _, rfl⟩ := readZone_eq_ok_iff.mp h
  rfl

/-- An entry is for everyone else exactly if its key is read as the default selector. -/
theorem isFallback_eq_true_iff {e : String × Json} :
    isFallback e = true ↔ Selector.ofText e.1 = .ok .default := by
  unfold isFallback
  split
  · exact iff_of_true rfl ‹_›
  · exact iff_of_false Bool.false_ne_true ‹_›

/-! ## The three parts -/

/-- The networks' servers: every entry lists what its zone holds. -/
theorem flatMap_recurse_networks {entries : List (String × Json)}
    (hsound : ∀ e ∈ entries, IsSoundEntry e) (client : Address) (n : Nat) :
    (((entries.filterMap networkZone?).filter fun z => z.network.length == n).filter
        fun z => z.network.contains client.canonical).flatMap (·.zone.recurse) =
      (entries.filter (isNetworkOf client n)).flatMap (·.2.listed) := by
  induction entries with
  | nil => rfl
  | cons e entries ih =>
    have ih := ih fun e he => hsound e (List.mem_cons_of_mem _ he)
    rw [List.filter_filter] at ih ⊢
    cases hz : networkZone? e with
    | none =>
      have hnot : isNetworkOf client n e = false := by
        unfold isNetworkOf
        split
        · rename_i net hnet
          obtain ⟨selector, z, hsel, hread⟩ :=
            (hsound e List.mem_cons_self).zone (ne_recurseKey_of_ofText hnet)
          rw [networkZone?, hnet, hread] at hz
          cases hz
        · rfl
      rw [List.filterMap_cons_none hz, List.filter_cons_of_neg (Bool.not_eq_true _ ▸ hnot), ih]
    | some z =>
      obtain ⟨_, hnet, hread⟩ := networkZone?_eq_some_iff.mp hz
      have hsame : isNetworkOf client n e =
          (z.network.contains client.canonical && z.network.length == n) := by
        rw [isNetworkOf, hnet]
        exact Bool.and_comm _ _
      rw [List.filterMap_cons_some hz]
      by_cases hin : isNetworkOf client n e = true
      · rw [List.filter_cons_of_pos hin, List.filter_cons_of_pos (hsame ▸ hin), List.flatMap_cons,
          List.flatMap_cons, ih, recurse_readZone hread]
      · rw [List.filter_cons_of_neg hin, List.filter_cons_of_neg (hsame ▸ hin), ih]

/-- The servers for everyone, if one entry at most lists them. -/
theorem getLast?_commonTargets? {entries : List (String × Json)}
    (hsound : ∀ e ∈ entries, IsSoundEntry e) (hone : (entries.filter isCommon).length ≤ 1) :
    (entries.filterMap commonTargets?).getLast?.getD [] =
      (entries.filter isCommon).flatMap fun e => e.2.targets?.getD [] := by
  refine getLast?_filterMap_eq_flatMap id rfl hone (fun e _ he => ?_) fun e hmem he => ?_
  · rw [commonTargets?, if_neg (beq_eq_false_iff_ne.mp he)]
  · have he := beq_iff_eq.mp he
    obtain ⟨ts, hts⟩ := (hsound e hmem).targets he
    rw [commonTargets?, if_pos he, hts]
    exact ⟨ts, rfl, rfl⟩

/-- Of entries with different selectors one at most is for everyone else. -/
theorem length_filter_isFallback {entries : List (String × Json)}
    (hkeys : (entries.filterMap selectorKey?).Nodup) : (entries.filter isFallback).length ≤ 1 := by
  have hkey : ∀ e ∈ entries.filter isFallback, selectorKey? e = some "default" := by
    intro e he
    have hsel := isFallback_eq_true_iff.mp (List.mem_filter.mp he).2
    rw [selectorKey?, if_neg (ne_recurseKey_of_ofText hsel), ofText_eq_default_iff.mp hsel]
  have hnodup := hkeys.sublist ((List.filter_sublist (p := isFallback)).filterMap selectorKey?)
  generalize entries.filter isFallback = found at hkey hnodup
  rcases found with _ | ⟨a, _ | ⟨b, rest⟩⟩
  · exact Nat.zero_le _
  · exact Nat.le_refl _
  · rw [List.filterMap_cons_some (hkey a List.mem_cons_self), List.filterMap_cons_some
      (hkey b (List.mem_cons_of_mem _ List.mem_cons_self))] at hnodup
    exact absurd List.mem_cons_self (List.nodup_cons.mp hnodup).1

/-- What is told of the zone for everyone else is told of its entry. -/
theorem getLast?_fallbackZone?_eq_flatMap {α : Type} {entries : List (String × Json)}
    (hsound : ∀ e ∈ entries, IsSoundEntry e) (hkeys : (entries.filterMap selectorKey?).Nodup)
    (told : Zone → List α) {listed : Json → List α} (hempty : told .empty = [])
    (hlisted : ∀ {selector v z}, readZone selector v = .ok z → told z = listed v) :
    told ((entries.filterMap fallbackZone?).getLast?.getD .empty) =
      (entries.filter isFallback).flatMap fun e => listed e.2 := by
  refine getLast?_filterMap_eq_flatMap told hempty (length_filter_isFallback hkeys)
    (fun e _ he => ?_) fun e hmem he => ?_
  · cases hz : fallbackZone? e with
    | none => rfl
    | some z =>
      rw [isFallback_eq_true_iff.mpr (fallbackZone?_eq_some_iff.mp hz).1] at he
      cases he
  · have hsel := isFallback_eq_true_iff.mp he
    obtain ⟨_, z, _, hread⟩ := (hsound e hmem).zone (ne_recurseKey_of_ofText hsel)
    exact ⟨z, fallbackZone?_eq_some_iff.mpr ⟨hsel, hread⟩, hlisted hread⟩

/-- The servers of the zone for everyone else: those for everyone, and then its own. -/
theorem recurse_fallback_toStore {entries : List (String × Json)}
    (hsound : ∀ e ∈ entries, IsSoundEntry e) (hkeys : (entries.filterMap selectorKey?).Nodup)
    (hone : (entries.filter isCommon).length ≤ 1) :
    (Declared.none.extend entries).toStore.fallback.recurse =
      ((entries.filter isCommon).flatMap fun e => e.2.targets?.getD []) ++
        (entries.filter isFallback).flatMap (·.2.listed) := by
  have hfallback := getLast?_fallbackZone?_eq_flatMap hsound hkeys Zone.recurse rfl recurse_readZone
  rw [← getLast?_commonTargets? hsound hone, ← hfallback, Declared.toStore, Declared.extend,
    Declared.none, Option.or_none]

/-! ## All of them -/

/-- **A built store gives a client the servers that its document lists for the client**, each at its
first occurrence. -/
theorem targets_ofEntries {entries : List (String × Json)} {s : Store}
    (h : Store.ofEntries entries = .ok s) (hone : (entries.filter isCommon).length ≤ 1)
    (client : Address) : s.targets client = (listedFor entries client).eraseDups := by
  obtain ⟨hsound, hkeys, rfl⟩ := ofEntries_eq_ok_iff.mp h
  have hnetworks : ((Declared.none.extend entries).toStore.matching client).flatMap
      (·.zone.recurse) = Network.lengths.flatMap fun n =>
        (entries.filter (isNetworkOf client n)).flatMap (·.2.listed) := by
    rw [Store.matching, Declared.toStore, mergeSort_narrower, List.filter_flatMap,
      List.flatMap_assoc]
    exact congrArg (Network.lengths.flatMap ·)
      (funext fun n => flatMap_recurse_networks hsound client n)
  rw [Store.targets, hnetworks, recurse_fallback_toStore hsound hkeys hone, listedFor,
    List.append_assoc]

end SplitHorizon
