import SplitHorizon.Proofs.Message.Header
import SplitHorizon.Proofs.Wire.Behind
/-!
# Messages that are cut short

A message says how many entries it has, so its reader knows where it ends. Bytes behind that place
change nothing (`decode_append`). If any byte before it is missing, nothing is decoded at all: else
the bytes that are there would be a message by themselves, and those behind it would be left over
(`decode_take_eq_none`).
-/

namespace SplitHorizon

open Wire (Reader put16 put32 putName persists_readName)
open Wire.Reader (Persists persists_self persists_pure persists_fail persists_number
  persists_number8 persists_number16 persists_number32)

variable (message behind more : List UInt8)

/-! ## Bodies -/

namespace RecordBody

/-- Of the kinds that can be answered locally only the names look at the message. -/
theorem persists_readKind (kind : RecordKind) :
    Persists [] (readKind message kind) (readKind (message ++ behind) kind) := by
  cases kind with
  | a => exact persists_self _
  | aaaa => exact persists_self _
  | cname => exact (persists_readName message behind []).bind fun _ => persists_pure _
  | ns => exact (persists_readName message behind []).bind fun _ => persists_pure _
  | ptr => exact (persists_readName message behind []).bind fun _ => persists_pure _
  | mx =>
    exact persists_number16.bind fun _ => (persists_readName message behind []).bind fun _ =>
      persists_pure _
  | txt => exact persists_self _
  | srv =>
    exact persists_number16.bind fun _ => persists_number16.bind fun _ =>
      persists_number16.bind fun _ => (persists_readName message behind []).bind fun _ =>
        persists_pure _

theorem persists_readSoa : Persists [] (readSoa message) (readSoa (message ++ behind)) :=
  (persists_readName message behind []).bind fun _ =>
    (persists_readName message behind []).bind fun _ => persists_self _

theorem persists_readNaptr : Persists [] (readNaptr message) (readNaptr (message ++ behind)) :=
  persists_number16.bind fun _ => persists_number16.bind fun _ => (persists_self _).bind fun _ =>
    (persists_self _).bind fun _ => (persists_self _).bind fun _ =>
      (persists_readName message behind []).bind fun _ => persists_self _

theorem persists_readService :
    Persists [] (readService message) (readService (message ++ behind)) :=
  persists_number16.bind fun _ => (persists_readName message behind []).bind fun _ =>
    persists_self _

/-- A body has a length in front, so nothing stands behind it. -/
theorem persists_read (typeCode : UInt16) :
    Persists [] (read message typeCode) (read (message ++ behind) typeCode) := by
  unfold read
  cases RecordKind.ofCode? typeCode with
  | some kind => exact persists_readKind message behind kind
  | none =>
    dsimp only
    split
    · exact persists_readSoa message behind
    split
    · exact persists_readNaptr message behind
    split
    · exact persists_readService message behind
    split
    · rw [map_eq_pure_bind, map_eq_pure_bind]
      exact (persists_readName message behind []).bind fun _ => persists_pure _
    · exact persists_self _

end RecordBody

/-! ## Entries -/

/-- A record is read all the same with more bytes behind it. -/
theorem ResourceRecord.persists_read :
    Persists more (read message) (read (message ++ behind)) := by
  refine (persists_readName message behind more).bind fun name =>
    persists_number16.bind fun typeCode => ?_
  dsimp only
  split
  · exact persists_fail
  · refine persists_number16.bind fun classCode => persists_number32.bind fun ttl =>
      (persists_number 2).bind fun length => ?_
    split
    · exact (persists_pure _).bind fun _ => persists_pure _
    · exact ((RecordBody.persists_read message behind typeCode).within length).bind fun _ =>
        persists_pure _

theorem Question.persists_read : Persists more (read message) (read (message ++ behind)) :=
  (persists_readName message behind more).bind fun _ => persists_number16.bind fun _ =>
    persists_number16.bind fun _ => persists_pure _

theorem Header.persists_read : Persists more read read :=
  persists_number16.bind fun _ => persists_number8.bind fun _ => persists_number8.bind fun _ =>
    (persists_number 2).bind fun _ => (persists_number 2).bind fun _ =>
      (persists_number 2).bind fun _ => (persists_number 2).bind fun _ => persists_pure _

/-! ## Messages -/

namespace Message

/-- A message is read all the same with more bytes behind it, and those are left. -/
theorem persists_read : Persists more (read message) (read (message ++ behind)) := by
  have hrecords : ∀ count, Persists more (Reader.times (ResourceRecord.read message) count)
      (Reader.times (ResourceRecord.read (message ++ behind)) count) :=
    fun count => (ResourceRecord.persists_read message behind more).times count
  refine (Header.persists_read more).bind fun p => ?_
  refine ((Question.persists_read message behind more).times _).bind fun questions => ?_
  refine (hrecords _).bind fun answers => (hrecords _).bind fun authorities =>
    (hrecords _).bind fun records => ?_
  dsimp only
  split
  · exact persists_pure _
  · exact persists_pure _
  · exact persists_fail

variable {bytes : List UInt8}

/-- **Bytes behind a message change nothing.** -/
theorem decode_append {m : Message} (h : decode bytes = some m) (behind : List UInt8) :
    decode (bytes ++ behind) = some m := by
  obtain ⟨⟨m', c⟩, hread, rfl⟩ := Option.map_eq_some_iff.mp h
  have hread' := persists_read bytes behind behind 0 bytes m' c hread
  exact Option.map_eq_some_iff.mpr ⟨_, hread', rfl⟩

/-- Whether bytes are a message with nothing behind its last entry. -/
def fills (bytes : List UInt8) : Bool := ((read bytes).run ⟨0, bytes⟩).any (·.2.rest.isEmpty)

/-- A message fills bytes exactly if it is read off them and nothing is left. -/
theorem fills_eq_true_iff :
    fills bytes = true ↔ ∃ m offset, (read bytes).run ⟨0, bytes⟩ = some (m, ⟨offset, []⟩) := by
  rw [fills, Option.any_eq_true]
  constructor
  · rintro ⟨⟨m, offset, rest⟩, hread, hrest⟩
    obtain rfl := List.isEmpty_iff.mp hrest
    exact ⟨m, offset, hread⟩
  · rintro ⟨m, offset, hread⟩
    exact ⟨_, hread, rfl⟩

theorem isSome_decode_of_fills (h : fills bytes = true) : (decode bytes).isSome = true := by
  obtain ⟨m, offset, hread⟩ := fills_eq_true_iff.mp h
  rw [decode, hread]
  rfl

/-- **Of a message that is cut short nothing is decoded.** -/
theorem decode_take_eq_none (h : fills bytes = true) {n : Nat} (hn : n < bytes.length) :
    decode (bytes.take n) = none := by
  obtain ⟨m, offset, hread⟩ := fills_eq_true_iff.mp h
  rw [decode, Option.map_eq_none_iff, Option.eq_none_iff_forall_ne_some]
  rintro ⟨m', c⟩ hcut
  have hwhole := persists_read _ (bytes.drop n) (bytes.drop n) 0 (bytes.take n) m' c hcut
  rw [List.take_append_drop] at hwhole
  -- what was cut off would be left over
  obtain ⟨-, hrest⟩ := Prod.mk.inj (Option.some.inj (hread.symm.trans hwhole))
  have hnil : [] = c.rest ++ bytes.drop n := congrArg Wire.Cursor.rest hrest
  have hlength := congrArg List.length hnil
  rw [List.length_nil, List.length_append, List.length_drop] at hlength
  omega

/-! ## Messages of any size -/

/-- The type of a record that may hold any bytes. -/
def nullType : UInt16 := 10

/-- The header of a reply without an error. -/
def plainHeader : Header := ⟨0x1234, true, 0, false, false, true, true, false, false, 0⟩

/-- A record of the root that holds some bytes. -/
def nullRecord (body : List UInt8) : ResourceRecord :=
  ⟨.root, nullType, internetClass, 60, .raw body⟩

/-- The bytes of that record. -/
def nullBytes (body : List UInt8) : List UInt8 :=
  putName .root ++ (put16 nullType ++ (put16 internetClass ++ (put32 60 ++
    (Places.bytes 2 body.length ++ body))))

/-- A reply with that record. -/
def bulky (body : List UInt8) : List UInt8 := plainHeader.put ⟨0, 1, 0, 0⟩ ++ nullBytes body

theorem length_bulky (body : List UInt8) : (bulky body).length = 23 + body.length := by
  simp only [bulky, nullBytes, List.length_append, Header.put, Wire.length_putName, put16, put32,
    Places.length_bytes, DomainName.size, DomainName.root, DomainName.span, List.foldr_nil,
    List.length_cons, List.length_nil]
  omega

/-- All bytes ahead are the body of such a record. -/
theorem readsAll_nullType (message body : List UInt8) :
    Reader.ReadsAll (RecordBody.read message nullType) body (.raw body) := by
  intro offset
  have htake := (Reader.reads_take body).readsAll offset
  show RecordBody.readRaw nullType ⟨offset, body⟩ = _
  have hget : (get : Reader Wire.Cursor) ⟨offset, body⟩ =
      some (⟨offset, body⟩, ⟨offset, body⟩) := rfl
  unfold RecordBody.readRaw
  rw [Reader.bind_apply, hget, Option.bind_some, Reader.bind_apply, htake, Option.bind_some]
  rfl

/-- A record that holds some bytes is read as it was written. -/
theorem reads_nullRecord (message : List UInt8) {body : List UInt8} (hbody : body ≠ [])
    (hlength : body.length < 65536) :
    Reader.Reads (ResourceRecord.read message) (nullBytes body) (nullRecord body) := by
  have hroot : DomainName.root.Valid := ⟨nofun, by decide⟩
  refine (Wire.reads_readName message hroot rfl).bind ((Reader.reads_number16 _).bind
    ((Reader.reads_number16 _).bind ((Reader.reads_number32 _).bind
      ((Reader.reads_number 2 hlength).bind ?_))))
  rw [if_neg (mt List.length_eq_zero_iff.mp hbody)]
  exact (readsAll_nullType message body).within.map
    (ResourceRecord.mk .root nullType internetClass 60)

/-- A reply with such a record is read as it was written, wherever it stands. -/
theorem reads_bulky (message : List UInt8) {body : List UInt8} (hbody : body ≠ [])
    (hlength : body.length < 65536) :
    Reader.Reads (read message) (bulky body)
      ⟨plainHeader, [], [nullRecord body], [], [], none⟩ := by
  have hone : 1 < 65536 := by decide
  have hzero : 0 < 65536 := by decide
  have hnone : Reader.Reads (Reader.times (ResourceRecord.read message) 0) [] [] :=
    Reader.reads_pure []
  have hquestions : Reader.Reads (Reader.times (Question.read message) 0) [] [] :=
    Reader.reads_pure []
  have hrecord := Reader.reads_times (r := ResourceRecord.read message) (fun _ => nullBytes body)
    [nullRecord body] fun r hr =>
      List.mem_singleton.mp hr ▸ reads_nullRecord message hbody hlength
  rw [List.flatMap_singleton] at hrecord
  refine (Header.reads_read plainHeader hzero hone hzero hzero).bind (hquestions.bind ?_)
  show Reader.Reads _ (nullBytes body) _
  rw [← List.append_nil (nullBytes body)]
  refine hrecord.bind (hnone.bind (hnone.bind ?_))
  exact Reader.reads_pure _

/-- The bytes of such a reply end where its record does. -/
theorem fills_bulky {body : List UInt8} (hbody : body ≠ []) (hlength : body.length < 65536) :
    fills (bulky body) = true :=
  fills_eq_true_iff.mpr ⟨_, _, (reads_bulky (bulky body) hbody hlength).readsAll 0⟩

end Message

end SplitHorizon
