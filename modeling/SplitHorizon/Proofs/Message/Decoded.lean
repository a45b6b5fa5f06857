import SplitHorizon.Message.Codec
import SplitHorizon.Proofs.Message.Options
import SplitHorizon.Proofs.Wire.Name
/-!
# Messages as they are read

What holds of every message that is read off bytes, as far as a query that is made from it is
concerned (`lasts_of_decode`): its question names can stand in a message, its extension record asks
for a size in range and has options that are read again as they are, and without an extension record
its code has no upper bits.

The query takes at most ten bytes more than the message that it was read from
(`querySize_le_of_decode`). It can take more at all, because a question's name may have ended in a
pointer into the header, and is written out in the query.
-/

namespace SplitHorizon

open Wire (Reader readName)
open Wire.Reader (Ensures ensures_pure ensures_fail ensures_number ensures_number8 ensures_number16
  ensures_number32 ensures_times ensures_within)

/-! ## Records -/

theorem Message.minPayload_le_max (n : UInt16) : minPayload ≤ max n minPayload := by
  show minPayload ≤ if n ≤ minPayload then minPayload else n
  split
  · exact UInt16.le_refl _
  · exact UInt16.le_of_lt (UInt16.not_le.mp ‹_›)

/-- A size that is not less than the least one stays as it is. -/
theorem Message.max_minPayload {n : UInt16} (h : minPayload ≤ n) : max n minPayload = n := by
  show (if n ≤ minPayload then minPayload else n) = n
  split
  · exact UInt16.le_antisymm h ‹_›
  · rfl

/-- An extension that is read as it is written. -/
structure Edns.Lasts (e : Edns) : Prop where
  payload : Message.minPayload ≤ e.payload
  options : ∀ o ∈ e.options, o.Lasts

/-- The number of bytes of an extension record. -/
def Edns.size (e : Edns) : Nat := 11 + (e.options.flatMap EdnsOption.put).length

namespace RecordBody

theorem read_ednsType (message : List UInt8) : read message Message.ednsType = readOptions := rfl

/-- The body of an extension record is all of the bytes ahead. -/
theorem readOptions_eq (offset : Nat) (bytes : List UInt8) :
    readOptions ⟨offset, bytes⟩ =
      (EdnsOption.readBody bytes).map fun list => (options list, ⟨offset + bytes.length, []⟩) := by
  have htake : Reader.take bytes.length ⟨offset, bytes⟩ =
      some (bytes, ⟨offset + bytes.length, []⟩) := (Wire.Reader.reads_take bytes).readsAll offset
  have hget : (get : Reader Wire.Cursor) ⟨offset, bytes⟩ =
      some (⟨offset, bytes⟩, ⟨offset, bytes⟩) := rfl
  unfold readOptions
  rw [Reader.bind_apply, hget, Option.bind_some, Reader.bind_apply, htake, Option.bind_some]
  cases EdnsOption.readBody bytes <;> rfl

end RecordBody

/-- The options that a body holds. -/
def RecordBody.optionsOf : RecordBody → List EdnsOption
  | .options list => list
  | _ => []

/-- The body of an extension record that is read has options that last, and they take no more bytes
than it was read from. -/
theorem RecordBody.ensures_within (message : List UInt8) {typeCode : UInt16} {offset length : Nat} :
    Ensures offset (Reader.within length (read message typeCode)) fun body n =>
      typeCode = Message.ednsType → (∀ o ∈ body.optionsOf, o.Lasts) ∧
        (body.optionsOf.flatMap EdnsOption.put).length ≤ n := by
  refine (Reader.ensures_within (P := fun body => typeCode = Message.ednsType →
    (∀ o ∈ body.optionsOf, o.Lasts) ∧ (body.optionsOf.flatMap EdnsOption.put).length ≤ length)
      fun inside body c hinside hread htype => ?_).mono fun body n h => h.1 ▸ h.2
  subst htype
  rw [read_ednsType, readOptions_eq] at hread
  obtain ⟨list, hlist, h⟩ := Option.map_eq_some_iff.mp hread
  cases h
  rw [← hinside]
  exact EdnsOption.readBody_spec hlist

/-- An extension record that is read lasts, and takes no more bytes than it was read from. -/
theorem ResourceRecord.ensures_read (message : List UInt8) (offset : Nat) :
    Ensures offset (read message) fun r n =>
      Edns.isEdns r = true → (Edns.ofRecord r).Lasts ∧ (Edns.ofRecord r).size ≤ n := by
  refine (Wire.ensures_readName message offset).bind fun name n hname =>
    ensures_number16.bind fun typeCode n₁ hn₁ => ?_
  have hn : 0 < n := hname.2.2.2
  simp only
  split
  · exact ensures_fail
  · refine ensures_number16.bind fun classCode n₂ hn₂ => ensures_number32.bind fun ttl n₃ hn₃ =>
      (ensures_number 2).bind fun length n₄ h₄ => ?_
    have hrecord : ∀ body n₅, (typeCode = Message.ednsType → (∀ o ∈ body.optionsOf, o.Lasts) ∧
        (body.optionsOf.flatMap EdnsOption.put).length ≤ n₅) → ∀ r : ResourceRecord,
        r.typeCode = typeCode → r.body = body →
        r.classCode = (if typeCode == Message.ednsType then max classCode Message.minPayload
          else classCode) →
        Edns.isEdns r = true → (Edns.ofRecord r).Lasts ∧
          (Edns.ofRecord r).size ≤ n + (n₁ + (n₂ + (n₃ + (n₄ + n₅)))) := by
      rintro body n₅ hbody r rfl rfl hclass hedns
      obtain ⟨hlasts, hsize⟩ := hbody (beq_iff_eq.mp hedns)
      replace hclass : r.classCode = max classCode Message.minPayload :=
        hclass.trans (if_pos hedns)
      refine ⟨⟨?_, hlasts⟩, ?_⟩
      · show Message.minPayload ≤ r.classCode
        rw [hclass]
        exact Message.minPayload_le_max classCode
      · show 11 + (r.body.optionsOf.flatMap EdnsOption.put).length ≤ _
        omega
    split
    · exact ensures_pure (hrecord (.raw []) 0 (fun _ => ⟨nofun, Nat.le_refl _⟩) _ rfl rfl rfl)
    · exact (RecordBody.ensures_within message).bind fun body n₅ hbody =>
        ensures_pure (hrecord body n₅ hbody _ rfl rfl rfl)

/-! ## Messages -/

/-- The number of bytes of a query that is made from a message. -/
def Message.querySize (m : Message) : Nat :=
  Header.size + m.questions.foldr (fun q n => q.name.size + 4 + n) 0 + m.edns.elim 0 Edns.size

/-- What a query that is made from a message needs, to be read as it is written. -/
structure Message.Lasts (m : Message) : Prop where
  names : ∀ q ∈ m.questions, q.name.Valid ∧ q.name.absolute = true
  edns : ∀ e, m.edns = some e → e.Lasts
  code : m.edns = none → m.header.code.toNat < 16

/-- A header that is read takes twelve bytes, and its code has no upper bits. -/
theorem Header.ensures_read :
    Ensures 0 read fun p n => n = 12 ∧ p.1.code.toNat < 16 := by
  refine ensures_number16.bind fun id n₁ hn₁ => ensures_number8.bind fun high n₂ hn₂ =>
    ensures_number8.bind fun low n₃ hn₃ => (ensures_number 2).bind fun _ n₄ h₄ =>
      (ensures_number 2).bind fun _ n₅ h₅ => (ensures_number 2).bind fun _ n₆ h₆ =>
        (ensures_number 2).bind fun _ n₇ h₇ => ensures_pure ⟨by omega, ?_⟩
  show (BitVec.ofNat 12 (low.toNat % 16)).toNat < 16
  rw [BitVec.toNat_ofNat]
  omega

/-- A question that is read has a valid name that ends at the root. With the name written whole it
takes at most `offset - 2` bytes more than it was read from. -/
theorem Question.ensures_read (message : List UInt8) (offset : Nat) :
    Ensures offset (read message) fun q n => (q.name.Valid ∧ q.name.absolute = true) ∧
      q.name.size + 4 ≤ n + (offset - 2) := by
  refine (Wire.ensures_readName message offset).bind fun name n ⟨hvalid, habsolute, hsize, _⟩ =>
    ensures_number16.bind fun _ n₁ hn₁ => ensures_number16.bind fun _ n₂ hn₂ =>
      ensures_pure ⟨⟨hvalid, habsolute⟩, ?_⟩
  show name.size + 4 ≤ _
  omega

/-- The names of all questions can stand in a message. A question alone is not much longer than the
bytes it was read from, because it stands near the front. -/
theorem Question.ensures_times (message : List UInt8) (count : Nat) :
    Ensures 12 (Reader.times (read message) count) fun qs n =>
      (∀ q ∈ qs, q.name.Valid ∧ q.name.absolute = true) ∧
        ∀ q, qs = [q] → q.name.size + 4 ≤ n + 10 := by
  cases count with
  | zero => exact ensures_pure ⟨nofun, nofun⟩
  | succ count =>
    have hnames : ∀ offset, Ensures offset (read message) fun q _ =>
        q.name.Valid ∧ q.name.absolute = true :=
      fun offset => (ensures_read message offset).mono fun q n h => h.1
    refine (ensures_read message 12).bind fun q n ⟨hq, hsize⟩ =>
      (Reader.ensures_times hnames count).bind fun qs k ⟨_, hqs⟩ =>
        ensures_pure ⟨fun q' hq' => ?_, fun q' hq' => ?_⟩
    · rcases List.mem_cons.mp hq' with rfl | hq'
      · exact hq
      · obtain ⟨_, _, hvalid⟩ := hqs q' hq'
        exact hvalid
    · cases hq'
      omega

/-- What is read as a message lasts, and a query with its question takes at most ten bytes more. -/
theorem Message.ensures_read (bytes : List UInt8) :
    Ensures 0 (read bytes) fun m n => m.Lasts ∧ ∀ q, m.questions = [q] → m.querySize ≤ n + 10 := by
  refine Header.ensures_read.bind fun p n ⟨hn, hcode⟩ => ?_
  subst hn
  refine (Question.ensures_times bytes p.2.questions).bind fun questions n₁ ⟨hnames, hone⟩ =>
    (Reader.ensures_times (ResourceRecord.ensures_read bytes) p.2.answers).bind fun answers n₂ _ =>
      (Reader.ensures_times (ResourceRecord.ensures_read bytes) p.2.authorities).bind
        fun authorities n₃ _ => (Reader.ensures_times (ResourceRecord.ensures_read bytes)
          p.2.additionals).bind fun records n₄ ⟨_, hrecords⟩ => ?_
  simp only
  split
  · refine ensures_pure ⟨⟨hnames, nofun, fun _ => hcode⟩, fun q hq => ?_⟩
    have hquestion := hone q hq
    simp only at hq
    simp only [querySize, hq, List.foldr_cons, List.foldr_nil, Option.elim, Header.size]
    omega
  · rename_i r hr
    have hmem : r ∈ records.filter Edns.isEdns := hr ▸ List.mem_singleton_self r
    obtain ⟨hin, hedns⟩ := List.mem_filter.mp hmem
    obtain ⟨k, hk, hlasts⟩ := hrecords r hin
    obtain ⟨hlasts, hsize⟩ := hlasts hedns
    refine ensures_pure ⟨⟨hnames, fun e he => Option.some.inj he ▸ hlasts, nofun⟩, fun q hq => ?_⟩
    have hquestion := hone q hq
    simp only at hq
    simp only [querySize, hq, List.foldr_cons, List.foldr_nil, Option.elim, Header.size]
    omega
  · exact ensures_fail

/-- **What is decoded lasts.** -/
theorem Message.lasts_of_decode {bytes : List UInt8} {m : Message} (h : decode bytes = some m) :
    m.Lasts := by
  obtain ⟨⟨m', c⟩, hread, rfl⟩ := Option.map_eq_some_iff.mp h
  obtain ⟨_, _, _, hlasts, _⟩ := ensures_read bytes bytes m' c hread
  exact hlasts

/-- A query with the question of a message takes at most ten bytes more than the message. -/
theorem Message.querySize_le_of_decode {bytes : List UInt8} {m : Message} {q : Question}
    (h : decode bytes = some m) (hq : m.questions = [q]) : m.querySize ≤ bytes.length + 10 := by
  obtain ⟨⟨m', c⟩, hread, rfl⟩ := Option.map_eq_some_iff.mp h
  obtain ⟨n, _, hlength, _, hsize⟩ := ensures_read bytes bytes m' c hread
  have hle : m'.querySize ≤ n + 10 := hsize q hq
  show m'.querySize ≤ _
  omega

end SplitHorizon
