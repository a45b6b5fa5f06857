import SplitHorizon.Proofs.Address.Endpoint
import SplitHorizon.Proofs.Except
import SplitHorizon.Proofs.Text.Cuts
import SplitHorizon.Target
/-!
# Targets, written and read

What is read as a target is read again from the target's own text, with one exception: a dotted
address followed by a port with a plus sign (`ofText_toText`). The port of an endpoint has no sign,
so such a text is no endpoint, and the port of a host may have one. The target is then a host whose
name is an address, and its text is that of the endpoint.
-/

namespace SplitHorizon

open Text (Stops leaving)

namespace Target

/-! ## Names in front of a port -/

/-- Whether a text can be the name of a host. -/
structure IsHostName (name : List Char) : Prop where
  nonempty : name ≠ []
  ours : ∀ c ∈ name, isForeign c = false

namespace IsHostName

variable {name : List Char} (h : IsHostName name)

include h

/-- No character that host names lack is in one. -/
theorem notMem {c : Char} (hc : isForeign c = true) : c ∉ name := by
  intro hmem
  rw [h.ours c hmem] at hc
  cases hc

/-- There are no blanks in a host name. -/
theorem isBlank_eq_false : ∀ c ∈ name, Text.isBlank c = false := by
  intro c hc
  have hours := h.ours c hc
  rw [isForeign, Bool.or_eq_false_iff] at hours
  exact hours.1

/-- A name begins with a character of its own. -/
theorem exists_cons : ∃ c cs, name = c :: cs ∧ c ≠ '[' := by
  obtain ⟨c, cs, rfl⟩ := List.exists_cons_of_ne_nil h.nonempty
  refine ⟨c, cs, rfl, ?_⟩
  rintro rfl
  exact h.notMem rfl List.mem_cons_self

/-- Without a colon only a dotted address is one. -/
theorem addressRead_eq : Address.read name = (Address.Dotted.read name).map .v4 := by
  cases hread : Address.read name with
  | none =>
    cases hdotted : Address.Dotted.read name with
    | none => rfl
    | some bits =>
      rw [Address.read_eq_v4_iff.mpr hdotted] at hread
      cases hread
  | some a =>
    cases a with
    | v4 bits => rw [Address.read_eq_v4_iff.mp hread, Option.map_some]
    | v6 bits =>
      have hcolons := (Address.Grouped.goesOn_of_read (Address.read_eq_v6_iff.mp hread)).2
      rw [List.count_eq_zero_of_not_mem (h.notMem rfl)] at hcolons
      omega

/-- Behind a name a port makes an endpoint if the name is a dotted address. -/
theorem endpointRead_eq (t : List Char) :
    Endpoint.read (name ++ ':' :: t) =
      (Address.Dotted.read name).bind fun bits =>
        (Endpoint.readPort (':' :: t)).map (.v4 bits) := by
  obtain ⟨c, cs, rfl, hc⟩ := h.exists_cons
  have hstops : Stops Address.Dotted.goesOn (':' :: t) := Text.stops_cons.mpr rfl
  rw [Endpoint.read, Address.Dotted.scan_append hstops, Address.Dotted.read]
  cases hscan : Address.Dotted.scan (c :: cs) with
  | none => simp [Endpoint.readBracketed, hc]
  | some found =>
    obtain ⟨bits, rest⟩ := found
    cases rest with
    | nil => rfl
    | cons d rest =>
      -- the address ends inside the name, where no colon is
      have hd : d ≠ ':' := by
        rintro rfl
        obtain ⟨front, hname, -⟩ := Address.Dotted.front_of_scan hscan
        refine h.notMem rfl (c := ':') ?_
        rw [hname]
        exact List.mem_append_right _ List.mem_cons_self
      simp [leaving, Endpoint.readPort, hd]

/-- With a port behind it a name is no address: it has a colon, and not a second one. -/
theorem addressRead_append {t : List Char} (ht : ':' ∉ t) :
    Address.read (name ++ ':' :: t) = none := by
  cases hread : Address.read (name ++ ':' :: t) with
  | none => rfl
  | some a =>
    cases a with
    | v4 bits =>
      have hcs := (Address.Dotted.goesOn_of_read (Address.read_eq_v4_iff.mp hread)).1 ':' (by simp)
      cases hcs
    | v6 bits =>
      have hcolons := (Address.Grouped.goesOn_of_read (Address.read_eq_v6_iff.mp hread)).2
      rw [List.count_append, List.count_cons_self, List.count_eq_zero_of_not_mem ht,
        List.count_eq_zero_of_not_mem (h.notMem rfl)] at hcolons
      omega

/-- A host name is read as the host of that name. -/
theorem readHost_eq (text : List Char) (port : UInt16) :
    readHost text name port = .ok (.host (String.ofList name) port) := by
  have hne : name.isEmpty = false := by simpa using h.nonempty
  have hours : name.any isForeign = false := List.any_eq_false.mpr fun c hc => by simp [h.ours c hc]
  simp [readHost, hne, hours]

/-- A text that begins with a host name is not in brackets. -/
theorem bracketed?_append (t : List Char) : bracketed? (name ++ t) = none := by
  obtain ⟨c, cs, rfl, hc⟩ := h.exists_cons
  unfold bracketed?
  split
  · rename_i heq
    exact absurd (List.cons.inj heq).1 hc
  · rfl

end IsHostName

/-- A target is read from a name exactly if it is a host name, and it is the host of that name. -/
theorem readHost_eq_ok_iff {text name : List Char} {port : UInt16} {target : Target} :
    readHost text name port = .ok target ↔
      IsHostName name ∧ target = .host (String.ofList name) port := by
  constructor
  · intro h
    unfold readHost at h
    split at h
    · cases h
    · split at h
      · cases h
      · rename_i hne hours
        cases h
        refine ⟨⟨by simpa using hne, fun c hc => ?_⟩, rfl⟩
        rw [Bool.not_eq_true, List.any_eq_false] at hours
        simpa using hours c hc
  · rintro ⟨hname, rfl⟩
    exact hname.readHost_eq text port

/-! ## What is read as a host -/

/-- A number is spelled without a colon. -/
theorem colon_notMem_of_read16 {cs : List Char} {port : UInt16} (h : Decimal.read16 cs = .ok port) :
    ':' ∉ cs := by
  obtain ⟨n, hn, -⟩ := map_eq_ok_iff.mp h
  exact Decimal.notMem_of_read hn (by decide)

/-- How a text without blanks around it names a host, with a port or without. -/
inductive NamesHost (name : List Char) (port : UInt16) : List Char → Prop
  | bare : port = servicePort → NamesHost name port name
  | withPort {right : List Char} : Decimal.read16 right = .ok port →
      NamesHost name port (name ++ ':' :: right)

/-- **What is read as a host** is a name, with a port or without, that is neither an endpoint nor an
address. -/
theorem read_eq_host_iff {cs name : List Char} {port : UInt16} :
    read cs = .ok (.host (String.ofList name) port) ↔
      Endpoint.read (Text.trim cs) = none ∧ Address.read (Text.trim cs) = none ∧
        IsHostName name ∧ NamesHost name port (Text.trim cs) := by
  rw [read]
  generalize Text.trim cs = text
  constructor
  · intro h
    split at h
    · cases h
    · rename_i hendpoint
      split at h
      · cases h
      · rename_i haddress
        refine ⟨hendpoint, haddress, ?_⟩
        split at h
        · split at h <;> cases h
        · split at h
          · obtain ⟨hname, htarget⟩ := readHost_eq_ok_iff.mp h
            obtain ⟨hlist, rfl⟩ := Target.host.inj htarget
            rw [String.ofList_injective hlist]
            exact ⟨hname, .bare rfl⟩
          · rename_i name' right hcut
            obtain ⟨rfl, -⟩ := Text.cutLast_eq_some_iff.mp hcut
            split at h
            · cases h
            · rename_i port' hright
              obtain ⟨hname, htarget⟩ := readHost_eq_ok_iff.mp h
              obtain ⟨hlist, rfl⟩ := Target.host.inj htarget
              rw [String.ofList_injective hlist]
              exact ⟨hname, .withPort hright⟩
  · rintro ⟨hendpoint, haddress, hname, htext⟩
    simp only [hendpoint, haddress]
    cases htext with
    | bare hport =>
      have hopen := hname.bracketed?_append []
      rw [List.append_nil] at hopen
      simp only [hopen, Text.cutLast_of_notMem (hname.notMem (c := ':') rfl), hname.readHost_eq,
        hport]
    | withPort hright =>
      simp only [hname.bracketed?_append, Text.cutLast_append_cons (colon_notMem_of_read16 hright),
        hright, hname.readHost_eq]

/-! ## What is read of a target's own text -/

/-- Whether a target is a host whose name is an address. -/
def isLiteralHost : Target → Bool
  | endpoint _ => false
  | host name _ => (Address.ofText? name).isSome

/-- An endpoint is read back from its text. -/
theorem ofText_endpoint (e : Endpoint) : ofText (endpoint e).toText = .ok (endpoint e) := by
  rw [ofText, toText, Endpoint.toText, String.toList_ofList, read,
    Text.trim_eq_self e.isBlank_of_mem_render, Endpoint.read_render]

/-- A host is written as its name, a colon and the digits of its port. -/
theorem toList_toText_host (name : String) (port : UInt16) :
    (host name port).toText.toList = name.toList ++ ':' :: Decimal.digits port.toNat := by
  simp [toText, Decimal.render]

/-- Hosts are known by their texts. -/
theorem host_eq_of_toText_eq {name name' : String} {port port' : UInt16}
    (h : (host name port).toText = (host name' port').toText) :
    host name port = host name' port' := by
  have hcut : ∀ (name : String) (port : UInt16),
      Text.cutLast ':' (host name port).toText.toList =
        some (name.toList, Decimal.digits port.toNat) := by
    intro name port
    have hcolon := colon_notMem_of_read16 (Decimal.read16_digits port)
    rw [toList_toText_host, Text.cutLast_append_cons hcolon]
  have hparts := hcut name port
  rw [h, hcut, Option.some.injEq, Prod.mk.injEq] at hparts
  have hport := Decimal.read16_digits port
  rw [← hparts.2, Decimal.read16_digits] at hport
  rw [String.toList_injective hparts.1, Except.ok.inj hport]

/-- Behind a name the digits of a port make a host, or the endpoint at the address that the name
is. -/
theorem ofText_host {name : String} (hname : IsHostName name.toList) (port : UInt16) :
    ofText (host name port).toText =
      .ok (((Address.ofText? name).map fun a => endpoint (.ofAddress a port)).getD
        (host name port)) := by
  have hblank : ∀ c ∈ name.toList ++ ':' :: Decimal.digits port.toNat, Text.isBlank c = false := by
    rw [List.forall_mem_append, List.forall_mem_cons]
    exact ⟨hname.isBlank_eq_false, rfl, fun _ => Endpoint.isBlank_of_mem_digits⟩
  have hport := Decimal.read16_digits port
  have hendpoint := hname.endpointRead_eq (Decimal.digits port.toNat)
  rw [Endpoint.readPort_digits] at hendpoint
  rw [ofText, toList_toText_host, Address.ofText?, hname.addressRead_eq]
  cases hdotted : Address.Dotted.read name.toList with
  | some bits =>
    rw [hdotted] at hendpoint
    rw [read, Text.trim_eq_self hblank, hendpoint]
    rfl
  | none =>
    rw [hdotted] at hendpoint
    rw [Option.map_none, Option.map_none, Option.getD_none, ← String.ofList_toList (s := name),
      read_eq_host_iff, String.ofList_toList, Text.trim_eq_self hblank]
    exact ⟨hendpoint, hname.addressRead_append (colon_notMem_of_read16 hport), hname,
      .withPort hport⟩

/-- The name of a host that was read is a host name. -/
theorem isHostName_of_ofText {text name : String} {port : UInt16}
    (h : ofText text = .ok (host name port)) : IsHostName name.toList := by
  rw [ofText, ← String.ofList_toList (s := name), read_eq_host_iff] at h
  exact h.2.2.1

/-- What is read of the text of a host whose name is no address, or of an endpoint, is itself. -/
theorem ofText_toText_of_not_literal {text : String} {target : Target}
    (h : ofText text = .ok target) (hliteral : target.isLiteralHost = false) :
    ofText target.toText = .ok target := by
  cases target with
  | endpoint e => exact ofText_endpoint e
  | host name port =>
    rw [isLiteralHost, Option.isSome_eq_false_iff, Option.isNone_iff_eq_none] at hliteral
    rw [ofText_host (isHostName_of_ofText h), hliteral]
    rfl

/-- A dotted address with a port that has a plus sign. -/
def SignsPort (cs : List Char) : Prop :=
  ∃ left ds, cs = left ++ ':' :: '+' :: ds ∧ (Address.Dotted.read left).isSome = true ∧
    ∀ c ∈ ds, (Decimal.digit? c).isSome = true

/-- A dotted address can be the name of a host, by its characters. -/
theorem isHostName_of_dotted {left : List Char} {bits : BitVec 32}
    (h : Address.Dotted.read left = some bits) : IsHostName left := by
  obtain ⟨hleft, hdot⟩ := Address.Dotted.goesOn_of_read h
  refine ⟨List.ne_nil_of_mem hdot, fun c hc => ?_⟩
  have hgoes := hleft c hc
  rw [isForeign, Address.isBlank_of_goesOn (Address.Grouped.goesOn_of_dotted hgoes), Bool.false_or,
    ← Bool.not_eq_true, List.contains_iff_mem]
  intro hmem
  simp only [List.mem_cons, List.not_mem_nil, or_false] at hmem
  rcases hmem with rfl | rfl | rfl | rfl <;> cases hgoes

/-- **A target is a host whose name is an address exactly if it is written with a signed port.** -/
theorem isLiteralHost_iff {cs : List Char} {target : Target} (h : read cs = .ok target) :
    target.isLiteralHost = true ↔ SignsPort (Text.trim cs) := by
  constructor
  · intro hliteral
    cases target with
    | endpoint e => cases hliteral
    | host name port =>
      rw [← String.ofList_toList (s := name), read_eq_host_iff] at h
      obtain ⟨hendpoint, haddress, hname, htext⟩ := h
      rw [isLiteralHost, Address.ofText?] at hliteral
      generalize Text.trim cs = text at hendpoint haddress htext ⊢
      cases htext with
      | bare _ =>
        rw [haddress] at hliteral
        cases hliteral
      | @withPort right hright =>
        rw [hname.addressRead_eq, Option.isSome_map] at hliteral
        obtain ⟨bits, hbits⟩ := Option.isSome_iff_exists.mp hliteral
        obtain ⟨n, hn, -⟩ := map_eq_ok_iff.mp hright
        obtain ⟨ds, hcs, hne, hds, rfl, hle⟩ := Decimal.read_eq_ok_iff.mp hn
        rcases hcs with rfl | rfl
        · rw [hname.endpointRead_eq, hbits, Endpoint.readPort_of_digits hne hds hle] at hendpoint
          cases hendpoint
        · exact ⟨name.toList, ds, rfl, hliteral, hds⟩
  · rintro ⟨left, ds, htext, hleft, hds⟩
    obtain ⟨bits, hbits⟩ := Option.isSome_iff_exists.mp hleft
    have hname := isHostName_of_dotted hbits
    have hcolon : ':' ∉ '+' :: ds := by
      rw [List.mem_cons, not_or]
      exact ⟨by decide, fun hmem => Bool.noConfusion (hds ':' hmem)⟩
    have hport : Endpoint.readPort (':' :: '+' :: ds) = none := rfl
    have hendpoint : Endpoint.read (left ++ ':' :: '+' :: ds) = none := by
      rw [hname.endpointRead_eq, hbits, hport]
      rfl
    rw [read, htext] at h
    simp only [hendpoint, hname.addressRead_append hcolon, hname.bracketed?_append,
      Text.cutLast_append_cons hcolon] at h
    split at h
    · cases h
    · rw [hname.readHost_eq] at h
      cases h
      rw [isLiteralHost, Address.ofText?, String.toList_ofList, hname.addressRead_eq, hbits]
      rfl

/-- **What is read as a target is read again from the target's own text**, unless it is a dotted
address with a signed port. Of such a text the target is a host whose name is the address, and what
is read again is the endpoint at the address. Only so can two targets that were read have one text:
one of them is such a host. -/
theorem ofText_toText {text : String} {target : Target} (h : ofText text = .ok target) :
    (ofText target.toText = .ok target ↔ target.isLiteralHost = false) ∧
    (target.isLiteralHost = true ↔ SignsPort (Text.trim text.toList)) ∧
    (∀ name port a, target = host name port → Address.ofText? name = some a →
      ofText target.toText = .ok (endpoint (.ofAddress a port))) ∧
    ∀ text' target', ofText text' = .ok target' → target'.isLiteralHost = target.isLiteralHost →
      target'.toText = target.toText → target' = target := by
  have hsigned : ∀ name port a, target = host name port → Address.ofText? name = some a →
      ofText target.toText = .ok (endpoint (.ofAddress a port)) := by
    rintro name port a rfl ha
    rw [ofText_host (isHostName_of_ofText h), ha]
    rfl
  refine ⟨⟨fun hback => ?_, ofText_toText_of_not_literal h⟩, isLiteralHost_iff h, hsigned, ?_⟩
  · rw [← Bool.not_eq_true]
    intro hliteral
    cases target with
    | endpoint e => cases hliteral
    | host name port =>
      obtain ⟨a, ha⟩ := Option.isSome_iff_exists.mp hliteral
      rw [hsigned name port a rfl ha] at hback
      cases hback
  · intro text' target' h' hliteral' htext
    cases hliteral : target.isLiteralHost with
    | false =>
      rw [hliteral] at hliteral'
      have hread := ofText_toText_of_not_literal h' hliteral'
      rw [htext, ofText_toText_of_not_literal h hliteral] at hread
      exact (Except.ok.inj hread).symm
    | true =>
      rw [hliteral] at hliteral'
      cases target with
      | endpoint e => cases hliteral
      | host name port =>
        cases target' with
        | endpoint e' => cases hliteral'
        | host name' port' => exact host_eq_of_toText_eq htext

/-- With a plus sign in front of its port an address is taken for a host, and the text of that host
is the text of the endpoint at the address. -/
theorem ofText_plus :
    ofText "8.8.8.8:+53" = .ok (host "8.8.8.8" 53) ∧
      ofText "8.8.8.8:53" = .ok (endpoint (.v4 0x08080808 53)) ∧
      (host "8.8.8.8" 53).toText = "8.8.8.8:53" ∧
      (endpoint (.v4 0x08080808 53)).toText = "8.8.8.8:53" := by
  decide +kernel

/-- It is not read again as the host that it is. -/
theorem ofText_toText_plus :
    ofText "8.8.8.8:+53" = .ok (host "8.8.8.8" 53) ∧
      SignsPort (Text.trim "8.8.8.8:+53".toList) ∧
      ofText (host "8.8.8.8" 53).toText = .ok (endpoint (.v4 0x08080808 53)) ∧
      ofText (host "8.8.8.8" 53).toText ≠ .ok (host "8.8.8.8" 53) := by
  have hread : ofText "8.8.8.8:+53" = .ok (host "8.8.8.8" 53) := by decide +kernel
  have haddress : Address.ofText? "8.8.8.8" = some (.v4 0x08080808) := by decide +kernel
  have hliteral : (host "8.8.8.8" 53).isLiteralHost = true := by rw [isLiteralHost, haddress]; rfl
  obtain ⟨hback, hsigned, hendpoint, -⟩ := ofText_toText hread
  refine ⟨hread, hsigned.mp hliteral, hendpoint _ _ _ rfl haddress, fun h => ?_⟩
  rw [hback.mp h] at hliteral
  cases hliteral

end Target

end SplitHorizon
