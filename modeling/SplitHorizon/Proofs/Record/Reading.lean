import SplitHorizon.Proofs.Record.Body
/-!
# Values that have been read

A text is read as a value of the kind that it stands under, and the name in the value, if it has
one, is in its canonical form (`isOfKind_of_read`). Nothing else can come to stand in a record set,
so the two hold of all values of a store.
-/

namespace SplitHorizon.RecordValue

/-- A value as it is read under a kind. -/
structure IsOfKind (kind : RecordKind) (v : RecordValue) : Prop where
  kind_eq : v.kind = kind
  name : ∀ name, v.name? = some name → ∃ written, Name.canonical written = .ok name

/-- A name is read exactly if it has a canonical form. -/
theorem readName_eq_ok_iff {cs : List Char} {name : String} :
    readName cs = .ok name ↔ Name.canonical (String.ofList cs) = .ok name :=
  mapError_eq_ok_iff

/-- **A value that is read under a kind is of that kind**, and its name is canonical. -/
theorem isOfKind_of_read {kind : RecordKind} {raw : String} {v : RecordValue}
    (h : read kind raw = .ok v) : v.IsOfKind kind := by
  have hnamed : ∀ {cs : List Char} {name name' : String}, readName cs = .ok name →
      some name = some name' → ∃ written, Name.canonical written = .ok name' := by
    intro cs name name' hname heq
    cases heq
    exact ⟨_, readName_eq_ok_iff.mp hname⟩
  unfold read at h
  cases kind with
  | a =>
    dsimp only at h
    split at h <;> cases h
    exact ⟨rfl, nofun⟩
  | aaaa =>
    dsimp only at h
    split at h <;> cases h
    exact ⟨rfl, nofun⟩
  | txt =>
    cases h
    exact ⟨rfl, nofun⟩
  | cname =>
    obtain ⟨name, hname, rfl⟩ := map_eq_ok_iff.mp h
    exact ⟨rfl, fun _ => hnamed hname⟩
  | ns =>
    obtain ⟨name, hname, rfl⟩ := map_eq_ok_iff.mp h
    exact ⟨rfl, fun _ => hnamed hname⟩
  | ptr =>
    obtain ⟨name, hname, rfl⟩ := map_eq_ok_iff.mp h
    exact ⟨rfl, fun _ => hnamed hname⟩
  | mx =>
    dsimp only at h
    split at h
    · obtain ⟨preference, _, h⟩ := bind_eq_ok_iff.mp h
      obtain ⟨name, hname, h⟩ := bind_eq_ok_iff.mp h
      cases h
      exact ⟨rfl, fun _ => hnamed hname⟩
    · cases h
  | srv =>
    dsimp only at h
    split at h
    · obtain ⟨priority, _, h⟩ := bind_eq_ok_iff.mp h
      obtain ⟨weight, _, h⟩ := bind_eq_ok_iff.mp h
      obtain ⟨port, _, h⟩ := bind_eq_ok_iff.mp h
      obtain ⟨name, hname, h⟩ := bind_eq_ok_iff.mp h
      cases h
      exact ⟨rfl, fun _ => hnamed hname⟩
    · cases h

end SplitHorizon.RecordValue
