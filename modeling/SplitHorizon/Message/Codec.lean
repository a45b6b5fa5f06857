import SplitHorizon.Message.Record
/-!
# Messages as bytes

A message is its header, which counts the entries of the four parts behind it, and those parts. The
extension record is one of the additional records: the first of its type there is taken out, and a
second one makes the message malformed. Bytes behind the last record are ignored.

A message is written up to a limit of its size. All of its questions have to fit; each section then
holds as many of its records as fit, and if any record is left out the header says that the message
was cut.
-/

namespace SplitHorizon

open Wire (Reader Writer Draft put16 put32 readName writeName)

/-! ## The header -/

/-- The numbers of questions and of records in the three sections. -/
structure Tally where
  questions : Nat
  answers : Nat
  authorities : Nat
  additionals : Nat

namespace Header

def size : Nat := 12

/-- A flag of a byte; bit 7 is the first one. -/
def flag (b : UInt8) (bit : Nat) : Bool := b.toNat.testBit bit

/-- The header of a number and two bytes of flags. -/
def ofFlags (id : UInt16) (high low : UInt8) : Header where
  id := id
  response := flag high 7
  opcode := BitVec.ofNat 4 (high.toNat / 8)
  authoritative := flag high 2
  truncated := flag high 1
  recursionDesired := flag high 0
  recursionAvailable := flag low 7
  authenticData := flag low 5
  checkingDisabled := flag low 4
  code := BitVec.ofNat 12 (low.toNat % 16)

/-- The first byte of flags. -/
def highFlags (h : Header) : UInt8 :=
  UInt8.ofNat (h.response.toNat * 128 + h.opcode.toNat * 8 + h.authoritative.toNat * 4 +
    h.truncated.toNat * 2 + h.recursionDesired.toNat)

/-- The second byte of flags, with the lower four bits of the response code. -/
def lowFlags (h : Header) : UInt8 :=
  UInt8.ofNat (h.recursionAvailable.toNat * 128 + h.authenticData.toNat * 32 +
    h.checkingDisabled.toNat * 16 + h.code.toNat % 16)

/-- The response code with its upper eight bits replaced. -/
def withHighCode (h : Header) (high : UInt8) : Header :=
  { h with code := BitVec.ofNat 12 (high.toNat * 16 + h.code.toNat % 16) }

/-- Reads a header and the counts. -/
def read : Reader (Header × Tally) := do
  let id ← Reader.number16
  let high ← Reader.number8
  let low ← Reader.number8
  let questions ← Reader.number 2
  let answers ← Reader.number 2
  let authorities ← Reader.number 2
  let additionals ← Reader.number 2
  pure (ofFlags id high low, ⟨questions, answers, authorities, additionals⟩)

/-- The bytes of a header and counts. -/
def put (h : Header) (t : Tally) : List UInt8 :=
  put16 h.id ++ [h.highFlags, h.lowFlags] ++ Places.bytes 2 t.questions ++
    Places.bytes 2 t.answers ++ Places.bytes 2 t.authorities ++ Places.bytes 2 t.additionals

def decode (bytes : List UInt8) : Option Header := (read.run ⟨0, bytes⟩).map (·.1.1)

end Header

/-! ## Questions -/

namespace Question

def read (message : List UInt8) : Reader Question := do
  let name ← readName message
  let typeCode ← Reader.number16
  let classCode ← Reader.number16
  pure ⟨name, typeCode, classCode⟩

def write (q : Question) : Writer :=
  .all [writeName q.name, .bytes (put16 q.typeCode ++ put16 q.classCode)]

end Question

/-! ## The extension record -/

namespace Edns

def isEdns (r : ResourceRecord) : Bool := r.typeCode == Message.ednsType

/-- The upper eight bits of the response code, which an extension record carries. -/
def highCode (r : ResourceRecord) : UInt8 := UInt8.ofNat (r.ttl.toNat / 0x1000000)

/-- The extension that a record states. -/
def ofRecord (r : ResourceRecord) : Edns where
  payload := r.classCode
  version := UInt8.ofNat (r.ttl.toNat / 0x10000)
  dnssecOk := r.ttl.toNat.testBit 15
  reserved := BitVec.ofNat 15 r.ttl.toNat
  options :=
    match r.body with
    | .options list => list
    | _ => []

/-- The record that states an extension, with the upper eight bits of a response code. -/
def toRecord (e : Edns) (high : Nat) : ResourceRecord where
  name := .root
  typeCode := Message.ednsType
  classCode := e.payload
  ttl := UInt32.ofNat (high * 0x1000000 + e.version.toNat * 0x10000 + e.dnssecOk.toNat * 0x8000 +
    e.reserved.toNat)
  body := if e.options.isEmpty then .raw [] else .options e.options

end Edns

/-! ## The message -/

namespace Message

def read (bytes : List UInt8) : Reader Message := do
  let (header, tally) ← Header.read
  let questions ← Reader.times (Question.read bytes) tally.questions
  let answers ← Reader.times (ResourceRecord.read bytes) tally.answers
  let authorities ← Reader.times (ResourceRecord.read bytes) tally.authorities
  let records ← Reader.times (ResourceRecord.read bytes) tally.additionals
  let additionals := records.filter fun r => !Edns.isEdns r
  match records.filter Edns.isEdns with
  | [] => pure ⟨header, questions, answers, authorities, additionals, none⟩
  | [r] =>
    pure ⟨header.withHighCode (Edns.highCode r), questions, answers, authorities, additionals,
      some (Edns.ofRecord r)⟩
  | _ => Reader.fail

def decode (bytes : List UInt8) : Option Message := ((read bytes).run ⟨0, bytes⟩).map (·.1)

/-- The bytes of the questions at the front of a message. -/
def questionBytes (bytes : List UInt8) : Option (List UInt8) :=
  let questions : Reader (List UInt8) := do
    let (_, tally) ← Header.read
    let (_, seen) ← Reader.seen (Reader.times (Question.read bytes) tally.questions)
    pure seen
  (questions.run ⟨0, bytes⟩).map (·.1)

def ednsRecord (m : Message) : Option ResourceRecord :=
  m.edns.map (·.toRecord (m.header.code.toNat / 16))

/-- Writes the records of a message behind its questions. -/
def writeRecords (m : Message) (questions : List UInt8) : StateM Draft (List UInt8) := do
  let answers ← Wire.front ResourceRecord.write m.answers
  let authorities ← Wire.front ResourceRecord.write m.authorities
  let additionals ← Wire.front ResourceRecord.write m.additionals
  let edns ← Wire.front ResourceRecord.write m.ednsRecord.toList
  let whole := answers.whole && authorities.whole && additionals.whole && edns.whole
  let header := { m.header with truncated := m.header.truncated || !whole }
  let tally : Tally :=
    ⟨m.questions.length, answers.count, authorities.count, additionals.count + edns.count⟩
  pure (header.put tally ++ questions ++ answers.bytes ++ authorities.bytes ++
    additionals.bytes ++ edns.bytes)

/-- Writes a message of at most `limit` bytes, with its questions as they are given. -/
def write (m : Message) (limit : Nat) (questions : Writer) : Option (List UInt8) := do
  let (questions, d) ← questions.run ⟨limit, Header.size, []⟩
  some (m.writeRecords questions d).1

def encode (m : Message) : Option (List UInt8) :=
  m.write maxSize (.all (m.questions.map Question.write))

end Message

end SplitHorizon
