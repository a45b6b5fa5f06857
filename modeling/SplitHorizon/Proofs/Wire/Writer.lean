import SplitHorizon.Proofs.Wire.Name
/-!
# What writers write

`Writes w d bs`: behind a draft `d` the writer writes the bytes `bs`, and leaves the limit as it is.
There is a rule for every way in which writers are put together, as there is for readers. A name is
written whole if no end of it stands before it (`writes_writeName`).
-/

namespace SplitHorizon.Wire

/-- Behind a draft, a writer writes bytes. -/
def Writes (w : Writer) (d : Draft) (bs : List UInt8) : Prop :=
  ∃ d', w d = some (bs, d') ∧ d'.limit = d.limit ∧ d'.size = d.size + bs.length

/-- Bytes are written if there is room for them. -/
theorem writes_bytes {bs : List UInt8} {d : Draft} (h : d.size + bs.length ≤ d.limit) :
    Writes (Writer.bytes bs) d bs :=
  ⟨{ d with size := d.size + bs.length }, if_pos h, rfl, rfl⟩

theorem writes_all_nil (d : Draft) : Writes (.all []) d [] := ⟨d, rfl, rfl, rfl⟩

/-- Writers one after the other write their bytes one after the other. -/
theorem Writes.all_cons {w : Writer} {ws : List Writer} {d : Draft} {bs bs' : List UInt8}
    (hw : Writes w d bs)
    (hws : ∀ d', d'.limit = d.limit → d'.size = d.size + bs.length → Writes (.all ws) d' bs') :
    Writes (.all (w :: ws)) d (bs ++ bs') := by
  obtain ⟨d₁, hbs, hlimit, hsize⟩ := hw
  obtain ⟨d₂, hbs', hlimit', hsize'⟩ := hws d₁ hlimit hsize
  refine ⟨d₂, ?_, hlimit'.trans hlimit, ?_⟩
  · show (w d >>= fun p => Writer.all ws p.2 >>= fun p' => some (p.1 ++ p'.1, p'.2)) = _
    rw [hbs]
    show (Writer.all ws d₁ >>= fun p' => some (bs ++ p'.1, p'.2)) = _
    rw [hbs']
    rfl
  · rw [hsize', hsize, List.length_append, Nat.add_assoc]

/-- What is written with its length in front is written behind two bytes for the length. -/
theorem writes_sized {w : Writer} {d : Draft} {bs : List UInt8} (hd : d.size + 2 ≤ d.limit)
    (hw : ∀ d', d'.limit = d.limit → d'.size = d.size + 2 → Writes w d' bs) :
    Writes (.sized w) d (put16 (UInt16.ofNat bs.length) ++ bs) := by
  have hgap : Writes (Writer.bytes [0, 0]) d [0, 0] := writes_bytes hd
  obtain ⟨d₁, h₁, hlimit, hsize⟩ := hgap
  obtain ⟨d₂, h₂, hlimit', hsize'⟩ := hw d₁ hlimit hsize
  refine ⟨d₂, ?_, hlimit'.trans hlimit, ?_⟩
  · show (Writer.bytes [0, 0] d >>= fun p => w p.2 >>= fun p' =>
      some (put16 (UInt16.ofNat p'.1.length) ++ p'.1, p'.2)) = _
    rw [h₁]
    show (w d₁ >>= fun p' => some (put16 (UInt16.ofNat p'.1.length) ++ p'.1, p'.2)) = _
    rw [h₂]
    rfl
  · rw [hsize', hsize, List.length_append, put16, Places.length_bytes]
    exact Nat.add_assoc _ _ _

/-- One item that is written is all of the items. -/
theorem front_singleton {α : Type} {write : α → Writer} {a : α} {d d' : Draft} {bs : List UInt8}
    (h : write a d = some (bs, d')) : front write [a] d = (⟨bs, 1, true⟩, d') := by
  rw [front, h]
  exact congrArg (fun bs => ((⟨bs, 1, true⟩ : Front), d')) (List.append_nil bs)

/-! ## Names -/

/-- A name of which no end stands before it is written whole. -/
theorem writes_writeName {name : DomainName} {d : Draft}
    (hcut : d.cut name.labels = (name.labels, none)) (hd : d.size + name.size ≤ d.limit) :
    Writes (writeName name) d (putName name) := by
  have hroom : ¬ d.limit < d.size + DomainName.span name.labels := by
    rw [DomainName.size] at hd
    omega
  have hremember : (d.remember name.labels).limit = d.limit ∧
      (d.remember name.labels).size = d.size := by
    unfold Draft.remember
    split <;> exact ⟨rfl, rfl⟩
  have hwrites : Writes (Writer.bytes (putName name)) (d.remember name.labels) (putName name) := by
    refine writes_bytes ?_
    rw [hremember.1, hremember.2, length_putName]
    exact hd
  obtain ⟨d', hbytes, hlimit, hsize⟩ := hwrites
  refine ⟨d', ?_, hlimit.trans hremember.1, hsize.trans (by rw [hremember.2])⟩
  rw [writeName, if_neg hroom, hcut]
  exact hbytes

/-- Behind a draft without names a name is written whole. -/
theorem cut_of_names_eq_nil {d : Draft} (h : d.names = []) (labels : List (List UInt8)) :
    d.cut labels = (labels, none) := by
  induction labels with
  | nil => rfl
  | cons label labels ih =>
    have hplace : d.place? (label :: labels) = none := by
      rw [Draft.place?, h]
      rfl
    rw [Draft.cut, hplace, ih]

end SplitHorizon.Wire
