import SplitHorizon.Proofs.Address.Endpoint
import SplitHorizon.Proofs.Name.Canonical
import SplitHorizon.Proofs.Record.Reading
import SplitHorizon.Proofs.Text.Fields
/-!
# Values and their texts

A value that has been read is read again from the text that it is rendered as (`read_render`). The
parts of its text are words, since no address, number or canonical name has blanks in it, so a space
between every two of them divides the text where it was put together (`IsOfKind.fields_render`).

Blanks around a text are trimmed before anything else is done, so they change nothing, not even the
fault (`read_append`). Free text is the exception: it is not trimmed, and reading and rendering it
leave it as it is.
-/

namespace SplitHorizon

open Text (IsWord)

/-! ## Words -/

/-- A canonical name is one word. -/
theorem Name.isWord_of_canonical {written name : String} (h : canonical written = .ok name) :
    IsWord name.toList := by
  refine ⟨fun hnil => ?_, isBlank_of_mem_canonical h⟩
  have hdot := (fold_canonical h).2
  rw [hnil] at hdot
  cases hdot

/-- The digits of a number are one word. -/
theorem Decimal.isWord_digits (n : Nat) : IsWord (digits n) :=
  ⟨digits_ne_nil n, fun _ => Endpoint.isBlank_of_mem_digits⟩

/-- An address is one word. -/
theorem Address.isWord_render (a : Address) : IsWord a.render :=
  ⟨render_ne_nil a, fun _ => isBlank_of_mem_render⟩

namespace RecordValue

/-! ## Texts of values -/

/-- The name of a value that is read under a kind is its own canonical form. -/
theorem IsOfKind.canonical_name {kind : RecordKind} {v : RecordValue} (h : v.IsOfKind kind)
    {name : String} (hname : v.name? = some name) : Name.canonical name = .ok name := by
  obtain ⟨written, hwritten⟩ := h.name name hname
  exact Name.canonical_canonical hwritten

/-- The parts of the text of a value; free text is one part. -/
def words : RecordValue → List (List Char)
  | a bits => [Address.render (.v4 bits)]
  | aaaa bits => [Address.render (.v6 bits)]
  | cname name | ns name | ptr name => [name.toList]
  | mx preference name => [Decimal.digits preference.toNat, name.toList]
  | txt text => [text.toList]
  | srv priority weight port name =>
    [Decimal.digits priority.toNat, Decimal.digits weight.toNat, Decimal.digits port.toNat,
      name.toList]

/-- A value is written as its words, with a blank between them. -/
theorem toList_render (v : RecordValue) : v.render.toList = [' '].intercalate v.words := by
  cases v <;> simp [render, words, Address.render, number, Decimal.render, List.intercalate]

/-- Nothing in a value that is not free text has a blank in it. -/
theorem IsOfKind.isWord {kind : RecordKind} {v : RecordValue} (h : v.IsOfKind kind)
    (hkind : kind ≠ .txt) : ∀ w ∈ v.words, IsWord w := by
  have hname : ∀ name, v.name? = some name → IsWord name.toList :=
    fun _ hname => Name.isWord_of_canonical (h.canonical_name hname)
  obtain rfl := h.kind_eq
  cases v with
  | a bits => simpa [words] using Address.isWord_render (.v4 bits)
  | aaaa bits => simpa [words] using Address.isWord_render (.v6 bits)
  | txt text => exact absurd rfl hkind
  | cname name | ns name | ptr name => simpa [words] using hname name rfl
  | mx _ name | srv _ _ _ name => simp [words, Decimal.isWord_digits, hname name rfl]

/-- **A reader divides the text of a value where it was put together.** -/
theorem IsOfKind.fields_render {kind : RecordKind} {v : RecordValue} (h : v.IsOfKind kind)
    (hkind : kind ≠ .txt) : Text.fields (Text.trim v.render.toList) = v.words := by
  rw [Text.fields_trim, toList_render, Text.fields_intercalate (h.isWord hkind)]

/-! ## Values -/

theorem readNumber_digits (what : String) (n : UInt16) :
    readNumber what (Decimal.digits n.toNat) = .ok n :=
  mapError_eq_ok_iff.mpr (Decimal.read16_digits n)

/-- A canonical name is read back as it is. -/
theorem readName_toList {name : String} (h : Name.canonical name = .ok name) :
    readName name.toList = .ok name := by
  rw [readName_eq_ok_iff, String.ofList_toList, h]

/-- **A value is read from the text that it is rendered as.** -/
theorem read_render {kind : RecordKind} {v : RecordValue} (h : v.IsOfKind kind) :
    read kind v.render = .ok v := by
  obtain rfl := h.kind_eq
  cases v with
  | a bits =>
    have htrim := Text.trim_eq_self (Address.isWord_render (.v4 bits)).visible
    rw [Address.render] at htrim
    simp [read, kind, render, htrim, Address.Dotted.read_render]
  | aaaa bits =>
    have htrim := Text.trim_eq_self (Address.isWord_render (.v6 bits)).visible
    rw [Address.render] at htrim
    simp [read, kind, render, htrim, Address.Grouped.read_render]
  | txt text => rfl
  | cname name | ns name | ptr name =>
    have hname := h.canonical_name rfl
    have htrim := Text.trim_eq_self (Name.isWord_of_canonical hname).visible
    simp only [read, kind, render, htrim, readName_toList hname]
    rfl
  | mx preference name =>
    have hname := h.canonical_name rfl
    have hfields := h.fields_render (by simp [kind])
    simp only [read, kind, hfields, words, readNumber_digits, readName_toList hname]
    rfl
  | srv priority weight port name =>
    have hname := h.canonical_name rfl
    have hfields := h.fields_render (by simp [kind])
    simp only [read, kind, hfields, words, readNumber_digits, readName_toList hname]
    rfl

/-! ## Blanks around a text -/

/-- **Blanks around a text make no difference**, unless it is free text. -/
theorem read_append {kind : RecordKind} (hkind : kind ≠ .txt) {before after : String}
    (hbefore : ∀ c ∈ before.toList, Text.isBlank c = true)
    (hafter : ∀ c ∈ after.toList, Text.isBlank c = true) (raw : String) :
    read kind (before ++ raw ++ after) = read kind raw := by
  have htrim : Text.trim (before ++ raw ++ after).toList = Text.trim raw.toList := by
    rw [String.toList_append, String.toList_append, Text.trim_append hbefore hafter]
  cases kind with
  | txt => exact absurd rfl hkind
  | _ => simp only [read, htrim]

/-- **Rendering and reading a value that was read gives the value again.** It is of the kind that it
was read under and the name in it is canonical. Blanks around the text change neither the value nor,
if there is none, the fault; free text keeps them. -/
theorem read_render_of_read (kind : RecordKind) (raw : String) :
    (∀ v, read kind raw = .ok v → v.kind = kind ∧ read kind v.render = .ok v ∧
      ∀ name, v.name? = some name → Name.canonical name = .ok name) ∧
    (kind ≠ .txt → ∀ before after : String, (∀ c ∈ before.toList, Text.isBlank c = true) →
      (∀ c ∈ after.toList, Text.isBlank c = true) →
      read kind (before ++ raw ++ after) = read kind raw) ∧
    (kind = .txt → read kind raw = .ok (.txt raw) ∧ (txt raw).render = raw) := by
  refine ⟨fun v h => ?_, fun hkind _ _ hbefore hafter => ?_, ?_⟩
  · have hv := isOfKind_of_read h
    exact ⟨hv.kind_eq, read_render hv, fun _ => hv.canonical_name⟩
  · exact read_append hkind hbefore hafter raw
  · rintro rfl
    exact ⟨rfl, rfl⟩

/-- A number with a sign and a zero in front, capital letters, and blanks of several kinds. -/
theorem read_render_of_read_mx :
    read .mx "+010 \t Mail.Example" = .ok (mx 10 "mail.example.") ∧
      read .mx (mx 10 "mail.example.").render = .ok (mx 10 "mail.example.") ∧
      Name.canonical "mail.example." = .ok "mail.example." ∧
      read .mx ("\u3000 " ++ "+010 \t Mail.Example" ++ "\n") = .ok (mx 10 "mail.example.") ∧
      read .txt " \t" = .ok (txt " \t") := by
  obtain ⟨hstable, hblanks, -⟩ := read_render_of_read .mx "+010 \t Mail.Example"
  obtain ⟨-, -, hfree⟩ := read_render_of_read .txt " \t"
  have hread : read .mx "+010 \t Mail.Example" = .ok (mx 10 "mail.example.") := by decide +kernel
  obtain ⟨-, hagain, hname⟩ := hstable _ hread
  have hbefore : "\u3000 ".toList.all Text.isBlank = true := by decide
  have hafter : "\n".toList.all Text.isBlank = true := by decide
  refine ⟨hread, hagain, hname _ rfl, ?_, (hfree rfl).1⟩
  rw [hblanks (by decide) _ _ (List.all_eq_true.mp hbefore) (List.all_eq_true.mp hafter), hread]

end RecordValue

end SplitHorizon
