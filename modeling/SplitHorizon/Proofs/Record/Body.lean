import Mathlib.Data.List.Forall2
import SplitHorizon.Proofs.Except
import SplitHorizon.Proofs.Record.Strings
/-!
# Values as resource records

What the records of a record set are: one for each value, in order, under one name and with one time
to live, of the type of the value's kind, and with a body that holds the value (`IsRecordOf`).

A value is refused for its name only. So a record set is made into records exactly if the name of
each of its values, where it has one, is read as the name of a message (`exists_toRecords_iff`).
-/

namespace SplitHorizon

/-! ## Bodies -/

/-- **The body of a record holds a value**: the same address, the same numbers, the name that the
value's name is read as, or strings that are the value's text, one after the other. -/
inductive RecordBody.Holds : RecordBody → RecordValue → Prop
  | a {bits : BitVec 32} : Holds (.a bits) (.a bits)
  | aaaa {bits : BitVec 128} : Holds (.aaaa bits) (.aaaa bits)
  | cname {name : String} {n : DomainName} (readName : DomainName.ofText? name = some n) :
      Holds (.cname n) (.cname name)
  | ns {name : String} {n : DomainName} (readName : DomainName.ofText? name = some n) :
      Holds (.ns n) (.ns name)
  | ptr {name : String} {n : DomainName} (readName : DomainName.ofText? name = some n) :
      Holds (.ptr n) (.ptr name)
  | mx {preference : UInt16} {name : String} {n : DomainName}
      (readName : DomainName.ofText? name = some n) :
      Holds (.mx preference n) (.mx preference name)
  | txt {text : String} {strings : List (List UInt8)}
      (whole : strings.flatten = Text.utf8 text.toList) (short : ∀ s ∈ strings, s.length ≤ 255) :
      Holds (.txt strings) (.txt text)
  | srv {priority weight port : UInt16} {name : String} {n : DomainName}
      (readName : DomainName.ofText? name = some n) :
      Holds (.srv priority weight port n) (.srv priority weight port name)

namespace RecordValue

/-- The name inside a value, if it has one. -/
def name? : RecordValue → Option String
  | cname name | ns name | ptr name | mx _ name | srv _ _ _ name => some name
  | a _ | aaaa _ | txt _ => none

/-- A value whose name, if it has one, is read as the name of a message. -/
def IsSendable (v : RecordValue) : Prop :=
  ∀ name, v.name? = some name → ∃ n, DomainName.ofText? name = some n

/-- A name is sent as the name of a message that it is read as. -/
theorem wireName_eq_ok_iff {name : String} {n : DomainName} :
    wireName name = .ok n ↔ DomainName.ofText? name = some n := by
  unfold wireName
  cases DomainName.ofText? name with
  | none => exact ⟨nofun, nofun⟩
  | some n =>
    rw [Option.some.injEq]
    exact ⟨Except.ok.inj, congrArg Except.ok⟩

theorem map_wireName_eq_ok_iff {name : String} {f : DomainName → RecordBody} {body : RecordBody} :
    (wireName name).map f = .ok body ↔ ∃ n, DomainName.ofText? name = some n ∧ f n = body := by
  simp only [map_eq_ok_iff, wireName_eq_ok_iff]

/-- The body that is made of a value holds it. -/
theorem holds_of_toBody {v : RecordValue} {body : RecordBody} (h : v.toBody = .ok body) :
    body.Holds v := by
  cases v with
  | a bits =>
    cases h
    exact .a
  | aaaa bits =>
    cases h
    exact .aaaa
  | txt text =>
    cases h
    refine .txt (flatten_chunks text) fun s hs => ?_
    obtain ⟨piece, hpiece, rfl⟩ := List.mem_map.mp hs
    exact length_le_of_mem_chunks hpiece
  | cname name =>
    obtain ⟨n, hn, rfl⟩ := map_wireName_eq_ok_iff.mp h
    exact .cname hn
  | ns name =>
    obtain ⟨n, hn, rfl⟩ := map_wireName_eq_ok_iff.mp h
    exact .ns hn
  | ptr name =>
    obtain ⟨n, hn, rfl⟩ := map_wireName_eq_ok_iff.mp h
    exact .ptr hn
  | mx preference name =>
    obtain ⟨n, hn, rfl⟩ := map_wireName_eq_ok_iff.mp h
    exact .mx hn
  | srv priority weight port name =>
    obtain ⟨n, hn, rfl⟩ := map_wireName_eq_ok_iff.mp h
    exact .srv hn

/-- A body is made of a value exactly if the value can be sent. -/
theorem exists_toBody_iff {v : RecordValue} : (∃ body, v.toBody = .ok body) ↔ v.IsSendable := by
  have hnamed : ∀ {name : String} {f : DomainName → RecordBody},
      (∃ body, (wireName name).map f = .ok body) ↔ ∃ n, DomainName.ofText? name = some n := by
    intro name f
    simp only [map_wireName_eq_ok_iff]
    exact ⟨fun ⟨_, n, hn, _⟩ => ⟨n, hn⟩, fun ⟨n, hn⟩ => ⟨f n, n, hn, rfl⟩⟩
  unfold IsSendable
  cases v with
  | a bits => exact ⟨fun _ => nofun, fun _ => ⟨_, rfl⟩⟩
  | aaaa bits => exact ⟨fun _ => nofun, fun _ => ⟨_, rfl⟩⟩
  | txt text => exact ⟨fun _ => nofun, fun _ => ⟨_, rfl⟩⟩
  | _ => simp only [toBody, hnamed, name?, Option.some.injEq, forall_eq']

/-! ## Records -/

/-- **A resource record states a value** under a name and with a time to live. -/
structure IsRecordOf (owner : DomainName) (ttl : UInt32) (v : RecordValue) (r : ResourceRecord) :
    Prop where
  name : r.name = owner
  typeCode : r.typeCode = v.kind.code
  classCode : r.classCode = Message.internetClass
  ttl : r.ttl = ttl
  body : r.body.Holds v

variable {owner : DomainName} {ttl : UInt32} {v : RecordValue} {values : List RecordValue}

/-- A record that is made of a value is one of that value for its owner. -/
theorem isRecordOf_of_toRecord {r : ResourceRecord} (h : toRecord owner ttl v = .ok r) :
    IsRecordOf owner ttl v r := by
  obtain ⟨body, hbody, h⟩ := bind_eq_ok_iff.mp h
  cases h
  exact ⟨rfl, rfl, rfl, rfl, holds_of_toBody hbody⟩

theorem exists_toRecord_iff : (∃ r, toRecord owner ttl v = .ok r) ↔ v.IsSendable := by
  rw [← exists_toBody_iff]
  constructor
  · intro h
    obtain ⟨_, h⟩ := h
    obtain ⟨body, hbody, _⟩ := bind_eq_ok_iff.mp h
    exact ⟨body, hbody⟩
  · intro h
    obtain ⟨body, hbody⟩ := h
    exact ⟨_, bind_eq_ok_iff.mpr ⟨body, hbody, rfl⟩⟩

/-- Records are made of values exactly if one is made of each. -/
theorem toRecords_cons_eq_ok_iff {rs : List ResourceRecord} :
    toRecords owner ttl (v :: values) = .ok rs ↔
      ∃ r rest, toRecord owner ttl v = .ok r ∧ toRecords owner ttl values = .ok rest ∧
        rs = r :: rest := by
  unfold toRecords
  rw [List.mapM_cons, bind_eq_ok_iff]
  simp only [bind_eq_ok_iff]
  constructor
  · intro h
    obtain ⟨r, hr, rest, hrest, h⟩ := h
    cases h
    exact ⟨r, rest, hr, hrest, rfl⟩
  · intro h
    obtain ⟨r, rest, hr, hrest, rfl⟩ := h
    exact ⟨r, hr, rest, hrest, rfl⟩

/-- **The records of a record set are one for each value, in order**, and state the values. -/
theorem forall₂_of_toRecords {rs : List ResourceRecord} (h : toRecords owner ttl values = .ok rs) :
    List.Forall₂ (IsRecordOf owner ttl) values rs := by
  induction values generalizing rs with
  | nil =>
    cases h
    exact .nil
  | cons v values ih =>
    obtain ⟨r, rest, hr, hrest, rfl⟩ := toRecords_cons_eq_ok_iff.mp h
    exact .cons (isRecordOf_of_toRecord hr) (ih hrest)

/-- **A record set is made into records exactly if all of its names are read.** -/
theorem exists_toRecords_iff :
    (∃ rs, toRecords owner ttl values = .ok rs) ↔ ∀ v ∈ values, v.IsSendable := by
  induction values with
  | nil => exact ⟨fun _ => nofun, fun _ => ⟨[], rfl⟩⟩
  | cons v values ih =>
    have hv : (∃ r, toRecord owner ttl v = .ok r) ↔ v.IsSendable := exists_toRecord_iff
    rw [List.forall_mem_cons, ← ih, ← hv]
    simp only [toRecords_cons_eq_ok_iff]
    constructor
    · intro h
      obtain ⟨_, r, rest, hr, hrest, _⟩ := h
      exact ⟨⟨r, hr⟩, rest, hrest⟩
    · intro h
      obtain ⟨⟨r, hr⟩, rest, hrest⟩ := h
      exact ⟨_, r, rest, hr, hrest, rfl⟩

end RecordValue

end SplitHorizon
