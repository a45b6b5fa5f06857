import SplitHorizon.Proofs.Name.HostNames
import SplitHorizon.Proofs.Record.Reading
/-!
# Values that were loaded and can be sent

A document is checked when it is loaded, and its values are made into records when they are asked
for. The first check does not cover the second. An address or a text can always be sent, and so can
a value whose name is a host name. But a name with any other character, such as the slash in the
reverse name of an address that stands in a small block, is loaded and then refused, and its whole
record set with it (`hasHostName_iff_of_mapM_read`, `toRecord_block`).

A backslash in a name begins an escape when the name is read, and not when it is loaded. Such names
are left out: some of them can be sent and some can not.
-/

namespace SplitHorizon.RecordValue

/-- The name inside the value, if it has one, is a host name. -/
def HasHostName (v : RecordValue) : Prop :=
  ∀ name, v.name? = some name → DomainName.isHostName name = true

/-- The name inside the value, if it has one, has no escape in it. -/
def IsUnescaped (v : RecordValue) : Prop :=
  ∀ name, v.name? = some name → '\\' ∉ name.toList

/-- The name of a value is a host name exactly if it has no escape and the value can be sent. -/
theorem IsOfKind.hasHostName_iff {kind : RecordKind} {v : RecordValue} (h : v.IsOfKind kind) :
    v.HasHostName ↔ v.IsUnescaped ∧ v.IsSendable := by
  constructor
  · intro hhost
    refine ⟨fun name hname => ?_, fun name hname => ?_⟩
    all_goals
      obtain ⟨_, hcanonical⟩ := h.name name hname
      have hread := (DomainName.isHostName_iff hcanonical).mp (hhost name hname)
    · exact hread.1
    · exact hread.2
  · rintro ⟨hunescaped, hsendable⟩ name hname
    obtain ⟨_, hcanonical⟩ := h.name name hname
    exact (DomainName.isHostName_iff hcanonical).mpr ⟨hunescaped name hname, hsendable name hname⟩

/-- The values of a record set have host names exactly if they can be sent and have no escapes. -/
theorem hasHostName_iff_of_isOfKind {kind : RecordKind} {values : List RecordValue}
    (h : ∀ v ∈ values, v.IsOfKind kind) (owner : DomainName) (ttl : UInt32) :
    (∀ v ∈ values, v.HasHostName) ↔
      (∀ v ∈ values, v.IsUnescaped) ∧ ∃ records, toRecords owner ttl values = .ok records := by
  rw [exists_toRecords_iff, ← forall₂_and]
  exact forall₂_congr fun v hv => (h v hv).hasHostName_iff

/-- **What was read can be sent if its names are host names**, under every name and with every time
to live. For values without escapes that is the only way. -/
theorem hasHostName_iff_of_mapM_read {kind : RecordKind} {texts : List String}
    {values : List RecordValue} (hread : texts.mapM (read kind) = .ok values) (owner : DomainName)
    (ttl : UInt32) :
    (∀ v ∈ values, v.HasHostName) ↔
      (∀ v ∈ values, v.IsUnescaped) ∧ ∃ records, toRecords owner ttl values = .ok records := by
  have hoption : texts.mapM (fun text => (read kind text).toOption) = some values :=
    (mapM_eq_ok_iff (fun _ _ => toOption_eq_some_iff.symm) texts values).mp hread
  have hkind : ∀ v ∈ values, v.IsOfKind kind := by
    intro v hv
    obtain ⟨text, _, htext⟩ := exists_of_mem_mapM hoption hv
    exact isOfKind_of_read (toOption_eq_some_iff.mp htext)
  exact hasHostName_iff_of_isOfKind hkind owner ttl

/-- Two servers of mail are read, and they can be sent under every name. -/
theorem hasHostName_iff_mail :
    ["10 Mail.b", " 20 *.b. "].mapM (read .mx) = .ok [.mx 10 "mail.b.", .mx 20 "*.b."] ∧
      ∀ owner ttl, ∃ records,
        toRecords owner ttl [.mx 10 "mail.b.", .mx 20 "*.b."] = .ok records := by
  have hread : ["10 Mail.b", " 20 *.b. "].mapM (read .mx) =
      .ok [.mx 10 "mail.b.", .mx 20 "*.b."] :=
    toOption_eq_some_iff.mp (by decide +kernel)
  refine ⟨hread, fun owner ttl => ((hasHostName_iff_of_mapM_read hread owner ttl).mp ?_).2⟩
  have hnames : ∀ name ∈ ["mail.b.", "*.b."], DomainName.isHostName name = true := by
    decide +kernel
  simp only [List.mem_cons, List.not_mem_nil, or_false, forall_eq_or_imp, forall_eq] at hnames ⊢
  exact ⟨fun _ h => by cases h; exact hnames.1, fun _ h => by cases h; exact hnames.2⟩

/-- A name in the block of the first 128 addresses of a network is read and then refused. -/
theorem toRecord_block :
    read .cname "1.0/25.2.0.192.in-addr.arpa" = .ok (.cname "1.0/25.2.0.192.in-addr.arpa.") ∧
      ∀ owner ttl, toRecord owner ttl (.cname "1.0/25.2.0.192.in-addr.arpa.") =
        .error (.invalidName "1.0/25.2.0.192.in-addr.arpa.") := by
  have hname : DomainName.ofText? "1.0/25.2.0.192.in-addr.arpa." = none := by
    decide +kernel
  refine ⟨toOption_eq_some_iff.mp (by decide +kernel), fun owner ttl => ?_⟩
  rw [toRecord, toBody, wireName, hname]
  rfl

end SplitHorizon.RecordValue
