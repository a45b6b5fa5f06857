import SplitHorizon.Proofs.Answers.Resolve
import SplitHorizon.Proofs.Record.Reading
/-!
# Values of the kind asked for

A record set is filed under the kind as which its values were read. So whatever a store answers to a
question for a kind, all the values of the answer are of that kind, and the names inside them are
canonical (`isOfKind_of_resolve`).
-/

namespace SplitHorizon

/-- The values that are read for a kind are of that kind. -/
theorem Json.isOfKind_of_values? {list : Json} {kind : RecordKind} {values : List RecordValue}
    (h : list.values? kind = some values) : ∀ v ∈ values, v.IsOfKind kind := by
  intro v hv
  cases list with
  | array items =>
    obtain ⟨item, _, hitem⟩ := exists_of_mem_mapM h hv
    cases item with
    | string text => exact RecordValue.isOfKind_of_read (toOption_eq_some_iff.mp hitem)
    | _ => cases hitem
  | _ => cases h

/-- The values that are declared under a kind are of that kind. -/
theorem Json.Declares.isOfKind {zone : Json} {name : String} {kind : RecordKind}
    {values : List RecordValue} (h : zone.Declares name kind values) :
    ∀ v ∈ values, v.IsOfKind kind := by
  obtain ⟨_, _, _, _, _, hspelled⟩ := h
  exact Json.isOfKind_of_values? hspelled

/-- **What a built store answers for a kind are values of that kind.** -/
theorem isOfKind_of_resolve {entries : List (String × Json)} {s : Store}
    (h : Store.ofEntries entries = .ok s) {client : Address} {name : String} {kind : RecordKind}
    {answer : LocalAnswer} (hanswer : s.resolve client name kind = some answer) :
    ∀ v ∈ answer.values, v.IsOfKind kind := by
  have hrule : Answers entries client (Name.lookupKey name) kind (s.resolve client name kind) :=
    answers_resolve h name
  rw [hanswer] at hrule
  cases hrule with
  | network _ offers _ _ => exact offers.declares.isOfKind
  | default _ _ _ declares => exact declares.isOfKind

end SplitHorizon
