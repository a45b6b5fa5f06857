import SplitHorizon.Proofs.Answers.Isolation
/-!
# The fault of a document

A document that is refused has one fault reported. It is that of the first entry that can not be
taken in (`build_eq_error`): a document that ends in front of this entry builds, and so does every
shorter one, while a document that goes on behind it in another way is refused with the same fault.
The fault names the selector of its entry as it is written there, and a fault in an answer names a
member of the object that stands under the selector.

What may be wrong with an entry is said by `Declared.add` and the readers below it. Each of them is
given the selector, and from the members of the object down also the name, that its faults are to
show; one law for each reader says that they show these and nothing else.
-/

namespace SplitHorizon

/-! ## Where a fault points -/

namespace ConfigFault

/-- The selector that a fault of a document is under. -/
def selector? : ConfigFault → Option String
  | entry selector _ => some selector
  | answer selector _ _ _ => some selector
  | server selector _ _ => some selector
  | _ => none

/-- The name that a fault in an answer is under. -/
def name? : ConfigFault → Option String
  | answer _ name _ _ => some name
  | _ => none

/-- A fault points into an entry: to its selector, and to no other name than one in the object that
stands under the selector. -/
structure PointsInto (why : ConfigFault) (e : String × Json) : Prop where
  selector : why.selector? = some e.1
  name : ∀ name, why.name? = some name → ∃ members, e.2 = .object members ∧
    name ∈ members.map Prod.fst

/-- A fault that names no answer is told by its selector alone. -/
theorem pointsInto_of_name?_eq_none {why : ConfigFault} {e : String × Json}
    (hselector : why.selector? = some e.1) (hname : why.name? = none) : why.PointsInto e :=
  ⟨hselector, fun _ h => by simp [hname] at h⟩

end ConfigFault

/-! ## The faults of each reader -/

section

variable {selector name : String} {why : ConfigFault}

/-- A fault in a list of servers is one of a server under the selector. -/
theorem exists_server_of_readTargets {v : Json} (h : readTargets selector v = .error why) :
    ∃ text fault, why = .server selector text fault := by
  cases v with
  | array items =>
    obtain ⟨item, _, h⟩ := exists_error_of_mapM h
    cases item with
    | string text =>
      obtain ⟨fault, _, rfl⟩ := mapError_eq_error_iff.mp h
      exact ⟨_, _, rfl⟩
    | _ =>
      cases h
      exact ⟨_, _, rfl⟩
  | _ =>
    cases h
    exact ⟨_, _, rfl⟩

/-- A fault in a list of values is one of an answer under the selector, the name and the kind. -/
theorem exists_answer_of_readValues {kind : RecordKind} {v : Json}
    (h : readValues selector name kind v = .error why) :
    ∃ fault, why = .answer selector name kind.text fault := by
  cases v with
  | array items =>
    obtain ⟨item, _, h⟩ := exists_error_of_mapM h
    cases item with
    | string text =>
      obtain ⟨fault, _, rfl⟩ := mapError_eq_error_iff.mp h
      exact ⟨_, rfl⟩
    | _ =>
      cases h
      exact ⟨_, rfl⟩
  | _ =>
    cases h
    exact ⟨_, rfl⟩

/-- A fault in a type under a name is one of an answer under the selector and the name. -/
theorem exists_answer_of_addSet {key : String} {z : Zone} {m : String × Json}
    (h : addSet selector name key z m = .error why) :
    ∃ kind fault, why = .answer selector name kind fault := by
  unfold addSet at h
  split at h
  · cases h
    exact ⟨_, _, rfl⟩
  · split at h
    · cases h
      exact ⟨_, _, rfl⟩
    · rcases bind_eq_error_iff.mp h with h | ⟨_, _, h⟩
      · exact ⟨_, exists_answer_of_readValues h⟩
      · cases h

/-- A member of a zone's object is at fault as a list of servers, or under its own name. -/
theorem exists_fault_of_addMember {z : Zone} {m : String × Json}
    (h : addMember selector z m = .error why) :
    (∃ text fault, why = .server selector text fault) ∨
      ∃ kind fault, why = .answer selector m.1 kind fault := by
  unfold addMember at h
  split at h
  · rcases bind_eq_error_iff.mp h with h | ⟨_, _, h⟩
    · exact .inl (exists_server_of_readTargets h)
    · cases h
  · right
    split at h
    · cases h
      exact ⟨_, _, rfl⟩
    · split at h
      · obtain ⟨_, t, _, z, _, _, h⟩ := foldlM_eq_error_iff.mp h
        exact exists_answer_of_addSet h
      · cases h
        exact ⟨_, _, rfl⟩

/-- **A zone's fault is under the selector that it is read for**, and if it is in an answer, under
one of the names in its object. -/
theorem pointsInto_of_readZone {e : String × Json} (h : readZone e.1 e.2 = .error why) :
    why.PointsInto e := by
  unfold readZone at h
  split at h
  · rename_i members hv
    obtain ⟨before, m, after, z, hmembers, _, h⟩ := foldlM_eq_error_iff.mp h
    rcases exists_fault_of_addMember h with ⟨text, fault, rfl⟩ | ⟨kind, fault, rfl⟩
    · exact ConfigFault.pointsInto_of_name?_eq_none rfl rfl
    · refine ⟨rfl, ?_⟩
      rintro _ ⟨⟩
      refine ⟨members, hv, ?_⟩
      simp [hmembers]
  · cases h
    exact ConfigFault.pointsInto_of_name?_eq_none rfl rfl

end

/-- **The fault of an entry points into that entry**, whatever has been declared before it. -/
theorem Declared.pointsInto_of_add {d : Declared} {e : String × Json} {why : ConfigFault}
    (h : d.add e = .error why) : why.PointsInto e := by
  unfold add at h
  split at h
  · rename_i hkey
    rcases bind_eq_error_iff.mp h with h | ⟨_, _, h⟩
    · obtain ⟨text, fault, rfl⟩ := exists_server_of_readTargets h
      exact ConfigFault.pointsInto_of_name?_eq_none (congrArg some hkey.symm) rfl
    · cases h
  · split at h
    · cases h
      exact ConfigFault.pointsInto_of_name?_eq_none rfl rfl
    · rename_i selector _
      split at h
      · cases h
        exact ConfigFault.pointsInto_of_name?_eq_none rfl rfl
      · rcases bind_eq_error_iff.mp h with h | ⟨z, _, h⟩
        · exact pointsInto_of_readZone h
        · cases selector <;> cases h

/-! ## The first fault -/

/-- A store is refused for the first entry that can not be taken in. -/
theorem ofEntries_eq_error_iff {entries : List (String × Json)} {why : ConfigFault} :
    Store.ofEntries entries = .error why ↔ ∃ before e after d, entries = before ++ e :: after ∧
      before.foldlM Declared.add .none = .ok d ∧ d.add e = .error why := by
  unfold Store.ofEntries
  rw [bind_eq_error_iff, foldlM_eq_error_iff]
  constructor
  · rintro (h | ⟨_, _, h⟩)
    · exact h
    · cases h
  · intro h
    exact .inl h

/-- **A document is refused for its first fault.** There is an entry up to which every front of the
document builds; with this entry the document is refused, and with the same fault whatever follows
the entry; and the fault points into the entry. -/
theorem build_eq_error {text : String} {why : ConfigFault} (h : Store.build text = .error why)
    (hread : why ≠ .malformed) :
    ∃ entries i e, Document.read text = some ⟨entries⟩ ∧ entries[i]? = some e ∧
      (∀ j ≤ i, ∃ s, Store.ofEntries (entries.take j) = .ok s) ∧
      (∀ others, Store.ofEntries (entries.take (i + 1) ++ others) = .error why) ∧
      why.PointsInto e := by
  unfold Store.build at h
  split at h
  · cases h
    exact absurd rfl hread
  · rename_i doc hdoc
    obtain ⟨before, e, after, d, hentries, hbefore, hadd⟩ := ofEntries_eq_error_iff.mp h
    refine ⟨doc.entries, before.length, e, hdoc, ?_, ?_, ?_, Declared.pointsInto_of_add hadd⟩
    · simp [hentries]
    · intro j hj
      obtain ⟨d', hd'⟩ := exists_foldlM_take hbefore j
      refine ⟨d'.toStore, ?_⟩
      rw [hentries, List.take_append_of_le_length hj]
      exact bind_eq_ok_iff.mpr ⟨d', hd', rfl⟩
    · intro others
      refine ofEntries_eq_error_iff.mpr ⟨before, e, others, d, ?_, hbefore, hadd⟩
      rw [hentries]
      simp [List.take_append]

/-- A zone for everyone else in which an address is none. -/
def misprinted : String × Json := ("default", addressZone "a.b" "10.0.0.300")

set_option maxRecDepth 1000 in
/-- Between the zones of two offices the fault is the same as before any other entries. -/
theorem build_eq_error_misprinted :
    ∃ why, Store.build (Document.render ⟨[office, misprinted, otherOffice]⟩) = .error why ∧
      why = .answer "default" "a.b" "A" (.value (.address "10.0.0.300")) ∧
      (∃ s, Store.ofEntries [office] = .ok s) ∧
      ∀ others, Store.ofEntries ([office, misprinted] ++ others) = .error why := by
  have hbuild : Store.build (Document.render ⟨[office, misprinted, otherOffice]⟩) =
      .error (.answer "default" "a.b" "A" (.value (.address "10.0.0.300"))) := by
    decide +kernel
  have hread : Document.read (Document.render ⟨[office, misprinted, otherOffice]⟩) =
      some ⟨[office, misprinted, otherOffice]⟩ := by rfl
  obtain ⟨entries, i, e, hentries, he, hbefore, hothers, hpoints⟩ :=
    build_eq_error hbuild nofun
  rw [hread] at hentries
  cases hentries
  -- the only entry with the selector of the fault is the second one
  have hi : i = 1 := by
    match i, he with
    | 0, he =>
      cases he
      exact absurd hpoints.selector (by decide)
    | 1, _ => rfl
    | 2, he =>
      cases he
      exact absurd hpoints.selector (by decide)
  subst hi
  exact ⟨_, hbuild, rfl, hbefore 1 le_rfl, hothers⟩

end SplitHorizon
