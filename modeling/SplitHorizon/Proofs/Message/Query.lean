import SplitHorizon.Proofs.Message.Decoded
import SplitHorizon.Proofs.Message.Header
import SplitHorizon.Proofs.Wire.Writer
import SplitHorizon.Server.Response
/-!
# A query that is passed on is read as it was made

The query that is made of a message with one question has no records but the extension record. If it
fits into a message, all of it is written, and what is written is read as the same query
(`decode_encode_forwarded`): no part of the header, of the question or of the extension is lost or
changed on the way.
-/

namespace SplitHorizon

open Wire (Reader put16 put32 putName readName writeName Writes writes_bytes writes_all_nil
  writes_sized)

/-! ## Questions -/

namespace Question

/-- The bytes of a question whose name is written whole. -/
def bytes (q : Question) : List UInt8 := putName q.name ++ (put16 q.typeCode ++ put16 q.classCode)

theorem length_bytes (q : Question) : q.bytes.length = q.name.size + 4 := by
  rw [bytes, List.length_append, Wire.length_putName, List.length_append, put16, put16,
    Places.length_bytes, Places.length_bytes]

/-- A question is read as it was written. -/
theorem reads_read (message : List UInt8) {q : Question} (hname : q.name.Valid)
    (habsolute : q.name.absolute = true) : Reader.Reads (read message) q.bytes q :=
  (Wire.reads_readName message hname habsolute).bind ((Reader.reads_number16 q.typeCode).bind
    ((Reader.reads_number16 q.classCode).map (Question.mk q.name q.typeCode)))

/-- The first question of a message is written whole. -/
theorem writes_write {q : Question} {d : Wire.Draft} (hnames : d.names = [])
    (hd : d.size + q.bytes.length ≤ d.limit) : Writes q.write d q.bytes := by
  rw [length_bytes] at hd
  have hwrites : Writes q.write d
      (putName q.name ++ ((put16 q.typeCode ++ put16 q.classCode) ++ [])) := by
    refine (Wire.writes_writeName (Wire.cut_of_names_eq_nil hnames _) (by omega)).all_cons
      fun d₁ hlimit₁ hsize₁ => (writes_bytes ?_).all_cons fun d₂ _ _ => writes_all_nil d₂
    rw [hlimit₁, hsize₁, Wire.length_putName, List.length_append, put16, put16,
      Places.length_bytes, Places.length_bytes]
    omega
  rwa [List.append_nil] at hwrites

end Question

/-! ## Extension records -/

namespace Edns

/-- The bytes of the record that states an extension, with the upper bits of a response code. -/
def bytes (e : Edns) (high : Nat) : List UInt8 :=
  putName .root ++ ((put16 Message.ednsType ++ put16 e.payload ++ put32 (e.toRecord high).ttl) ++
    (put16 (UInt16.ofNat (e.options.flatMap EdnsOption.put).length) ++
      e.options.flatMap EdnsOption.put))

theorem length_bytes (e : Edns) (high : Nat) : (e.bytes high).length = e.size := by
  simp only [bytes, List.length_append, Wire.length_putName, put16, put32, Places.length_bytes,
    size, DomainName.size, DomainName.root, DomainName.span, List.foldr_nil]
  omega

/-- The body of an extension record is its options, one after the other. -/
theorem writes_body {e : Edns} {high : Nat} {d : Wire.Draft}
    (hd : d.size + (e.options.flatMap EdnsOption.put).length ≤ d.limit) :
    Writes (e.toRecord high).body.write d (e.options.flatMap EdnsOption.put) := by
  unfold toRecord
  cases hoptions : e.options with
  | nil =>
    rw [hoptions] at hd
    exact writes_bytes hd
  | cons o os =>
    rw [hoptions] at hd
    exact writes_bytes hd

/-- An extension record is written whole if there is room for it. -/
theorem writes_toRecord (e : Edns) (high : Nat) {d : Wire.Draft}
    (hd : d.size + e.size ≤ d.limit) : Writes (e.toRecord high).write d (e.bytes high) := by
  rw [size] at hd
  have hfixed : (put16 (e.toRecord high).typeCode ++ put16 (e.toRecord high).classCode ++
      put32 (e.toRecord high).ttl).length = 8 := by
    simp only [List.length_append, put16, put32, Places.length_bytes]
  have hroot : (putName (e.toRecord high).name).length = 1 := rfl
  have hwrites : Writes (e.toRecord high).write d (putName .root ++
      ((put16 Message.ednsType ++ put16 e.payload ++ put32 (e.toRecord high).ttl) ++
        ((put16 (UInt16.ofNat (e.options.flatMap EdnsOption.put).length) ++
          e.options.flatMap EdnsOption.put) ++ []))) := by
    refine (Wire.writes_writeName rfl (by show d.size + 1 ≤ _; omega)).all_cons
      fun d₁ hlimit₁ hsize₁ => (writes_bytes ?_).all_cons fun d₂ hlimit₂ hsize₂ =>
        (writes_sized ?_ fun d₃ hlimit₃ hsize₃ => writes_body ?_).all_cons fun d₄ _ _ =>
          writes_all_nil d₄
    · rw [hlimit₁, hsize₁, hroot, hfixed]
      omega
    · rw [hlimit₂, hlimit₁, hsize₂, hsize₁, hroot, hfixed]
      omega
    · rw [hlimit₃, hlimit₂, hlimit₁, hsize₃, hsize₂, hsize₁, hroot, hfixed]
      omega
  rwa [List.append_nil] at hwrites

/-- An extension record is read as it was written. -/
theorem reads_toRecord (message : List UInt8) {e : Edns} (hlasts : e.Lasts) (high : Nat)
    (hsize : e.size < 65536) :
    Reader.Reads (ResourceRecord.read message) (e.bytes high) (e.toRecord high) := by
  have hlength : (e.options.flatMap EdnsOption.put).length < 65536 := by
    rw [size] at hsize
    omega
  have hroot : DomainName.root.Valid := ⟨nofun, by decide⟩
  have hcount : put16 (UInt16.ofNat (e.options.flatMap EdnsOption.put).length) =
      Places.bytes 2 (e.options.flatMap EdnsOption.put).length := by
    rw [put16, UInt16.toNat_ofNat_of_lt' hlength]
  have hbody : Reader.ReadsAll (RecordBody.read message Message.ednsType)
      (e.options.flatMap EdnsOption.put) (.options e.options) := by
    intro offset
    rw [RecordBody.read_ednsType, RecordBody.readOptions_eq,
      EdnsOption.readBody_flatMap_put hlasts.options]
    rfl
  simp only [bytes, List.append_assoc, hcount]
  refine (Wire.reads_readName message hroot rfl).bind ((Reader.reads_number16 _).bind
    ((Reader.reads_number16 e.payload).bind ((Reader.reads_number32 _).bind
      ((Reader.reads_number 2 hlength).bind ?_))))
  have hclass : (if (Message.ednsType == Message.ednsType) = true then
      max e.payload Message.minPayload else e.payload) = e.payload :=
    (if_pos rfl).trans (Message.max_minPayload hlasts.payload)
  obtain ⟨ttl, httl⟩ : ∃ ttl, ttl = (e.toRecord high).ttl := ⟨_, rfl⟩
  have hrecord : ∀ body, (e.toRecord high).body = body →
      e.toRecord high = ⟨.root, Message.ednsType, e.payload, ttl, body⟩ := by
    rintro _ rfl
    rw [httl]
    rfl
  simp only [hclass, ← httl]
  cases hoptions : e.options with
  | nil =>
    rw [hrecord (.raw []) (by rw [toRecord, hoptions]; rfl)]
    exact Reader.reads_pure _
  | cons o os =>
    have hpos : ((o :: os).flatMap EdnsOption.put).length ≠ 0 := by
      rw [List.flatMap_cons, List.length_append, EdnsOption.length_put]
      omega
    rw [hoptions] at hbody
    rw [hrecord (.options (o :: os)) (by rw [toRecord, hoptions]; rfl), if_neg hpos]
    exact hbody.within.map (ResourceRecord.mk .root Message.ednsType e.payload ttl)

end Edns

/-! ## Queries -/

namespace Message

/-- The number of extension records of a message. -/
def ednsCount (m : Message) : Nat := m.edns.elim 0 fun _ => 1

/-- The bytes of the extension record of a message, if it has one. -/
def ednsBytes (m : Message) : List UInt8 := m.edns.elim [] (·.bytes (m.header.code.toNat / 16))

/-- The bytes of the query that is made of a message with one question. -/
def queryBytes (m : Message) (q : Question) : List UInt8 :=
  m.header.put ⟨1, 0, 0, m.ednsCount⟩ ++ (q.bytes ++ m.ednsBytes)

/-- The size of a query is that of the header, of its question and of its extension. -/
theorem querySize_eq {m : Message} {q : Question} (hq : m.questions = [q]) :
    m.querySize = 12 + q.bytes.length + m.ednsBytes.length := by
  have hedns : m.ednsBytes.length = m.edns.elim 0 Edns.size := by
    rw [ednsBytes]
    cases m.edns with
    | none => rfl
    | some e => exact e.length_bytes _
  rw [querySize, hq, hedns, Question.length_bytes]
  rfl

/-- Behind the questions of a query its extension record is written, and nothing else. -/
theorem writeRecords_forwarded {m : Message} {q : Question} (hq : m.questions = [q])
    {questions : List UInt8} {d : Wire.Draft} (hd : d.size + m.ednsBytes.length ≤ d.limit) :
    (m.forwarded.writeRecords questions d).1 =
      m.header.put ⟨1, 0, 0, m.ednsCount⟩ ++ questions ++ m.ednsBytes := by
  have hrecords : ∃ d', Wire.front ResourceRecord.write m.ednsRecord.toList d =
      (⟨m.ednsBytes, m.ednsCount, true⟩, d') := by
    rw [ednsRecord]
    rw [ednsBytes] at hd ⊢
    rw [ednsCount]
    cases hedns : m.edns with
    | none => exact ⟨d, rfl⟩
    | some e =>
      rw [hedns] at hd
      rw [Option.elim, Edns.length_bytes] at hd
      obtain ⟨d', hwrite, _, _⟩ := Edns.writes_toRecord e (m.header.code.toNat / 16) hd
      exact ⟨d', Wire.front_singleton hwrite⟩
  obtain ⟨d', hrecords⟩ := hrecords
  have hwhole : (m.forwarded.writeRecords questions d).1 =
      let edns := (Wire.front ResourceRecord.write m.ednsRecord.toList d).1
      ({ m.header with truncated := m.header.truncated || !edns.whole } : Header).put
          ⟨m.questions.length, 0, 0, 0 + edns.count⟩ ++ questions ++ [] ++ [] ++ [] ++ edns.bytes :=
    rfl
  rw [hwhole, hrecords, hq]
  simp only [Bool.not_true, Bool.or_false, Nat.zero_add, List.append_nil]
  rfl

/-- The question of a query always fits. -/
theorem writes_question {q : Question} (hname : q.name.Valid) :
    Writes (.all [q.write]) ⟨maxSize, Header.size, []⟩ q.bytes := by
  have hsize : q.name.size ≤ 255 := hname.size
  have hwrites : Writes (.all [q.write]) ⟨maxSize, Header.size, []⟩ (q.bytes ++ []) := by
    refine (Question.writes_write rfl ?_).all_cons fun d _ _ => writes_all_nil d
    rw [Question.length_bytes]
    show 12 + _ ≤ 65535
    omega
  rwa [List.append_nil] at hwrites

/-- A query whose question is written is encoded as the question, with its records behind it. -/
theorem encode_forwarded_eq {m : Message} {q : Question} (hq : m.questions = [q]) {d : Wire.Draft}
    (hd : Wire.Writer.all [q.write] ⟨maxSize, Header.size, []⟩ = some (q.bytes, d)) :
    m.forwarded.encode = some (m.forwarded.writeRecords q.bytes d).1 := by
  show (Wire.Writer.all (m.questions.map Question.write) ⟨maxSize, Header.size, []⟩ >>= fun p =>
    some (m.forwarded.writeRecords p.1 p.2).1) = _
  rw [hq]
  show (Wire.Writer.all [q.write] ⟨maxSize, Header.size, []⟩ >>= fun p =>
    some (m.forwarded.writeRecords p.1 p.2).1) = _
  rw [hd]
  rfl

/-- A query is written in any case. -/
theorem exists_encode_forwarded {m : Message} {q : Question} (hlasts : m.Lasts)
    (hq : m.questions = [q]) : ∃ wire, m.forwarded.encode = some wire := by
  obtain ⟨hname, _⟩ := hlasts.names q (hq ▸ List.mem_singleton_self q)
  obtain ⟨d, hd, _, _⟩ := writes_question hname
  exact ⟨_, encode_forwarded_eq hq hd⟩

/-- **All of a query is written if it fits into a message.** -/
theorem encode_forwarded {m : Message} {q : Question} (hlasts : m.Lasts) (hq : m.questions = [q])
    (hsize : m.querySize ≤ maxSize) : m.forwarded.encode = some (m.queryBytes q) := by
  rw [querySize_eq hq] at hsize
  obtain ⟨hname, _⟩ := hlasts.names q (hq ▸ List.mem_singleton_self q)
  obtain ⟨d, hd, hlimit, hdsize⟩ := writes_question hname
  have hroom : d.size + m.ednsBytes.length ≤ d.limit := by
    rw [hlimit, hdsize]
    exact hsize
  rw [encode_forwarded_eq hq hd, writeRecords_forwarded hq hroom, queryBytes, List.append_assoc]

/-- **The bytes of a query are read as the query.** -/
theorem reads_queryBytes (bytes : List UInt8) {m : Message} {q : Question} (hlasts : m.Lasts)
    (hq : m.questions = [q]) (hsize : m.querySize ≤ maxSize) :
    Reader.Reads (read bytes) (m.queryBytes q) m.forwarded := by
  obtain ⟨hname, habsolute⟩ := hlasts.names q (hq ▸ List.mem_singleton_self q)
  have hquestions : Reader.Reads (Reader.times (Question.read bytes) 1) q.bytes [q] := by
    have h := Reader.reads_times (r := Question.read bytes) Question.bytes [q] fun q' hq' =>
      List.mem_singleton.mp hq' ▸ Question.reads_read bytes hname habsolute
    rwa [List.flatMap_singleton] at h
  have hnone : Reader.Reads (Reader.times (ResourceRecord.read bytes) 0) [] [] :=
    Reader.reads_pure []
  have hcount : m.ednsCount < 65536 := by
    rw [ednsCount]
    cases m.edns with
    | none => exact Nat.zero_lt_succ _
    | some e => exact Nat.lt_of_sub_pos (Nat.zero_lt_succ _)
  have hone : 1 < 65536 := by decide
  have hzero : 0 < 65536 := by decide
  have hforwarded : m.forwarded = ⟨m.header, [q], [], [], [], m.edns⟩ := by rw [forwarded, hq]
  refine (Header.reads_read m.header hone hzero hzero hcount).bind (hquestions.bind (hnone.bind
    (hnone.bind ?_)))
  show Reader.Reads _ m.ednsBytes _
  rw [hforwarded, ednsBytes, ednsCount]
  cases hedns : m.edns with
  | none =>
    refine hnone.bind ?_
    rw [Header.code_of_lt (hlasts.code hedns)]
    exact Reader.reads_pure _
  | some e =>
    have hhigh : m.header.code.toNat / 16 < 256 := by
      have hcode := m.header.code.isLt
      omega
    have hedns' : e.size < 65536 := by
      rw [querySize, hedns, Option.elim, Header.size, maxSize] at hsize
      omega
    have hrecords : Reader.Reads (Reader.times (ResourceRecord.read bytes) 1)
        (e.bytes (m.header.code.toNat / 16)) [e.toRecord (m.header.code.toNat / 16)] := by
      have h := Reader.reads_times (r := ResourceRecord.read bytes)
        (fun _ => e.bytes (m.header.code.toNat / 16)) [e.toRecord (m.header.code.toNat / 16)]
        fun r hr => List.mem_singleton.mp hr ▸
          Edns.reads_toRecord bytes (hlasts.edns e hedns) _ hedns'
      rwa [List.flatMap_singleton] at h
    show Reader.Reads _ (e.bytes (m.header.code.toNat / 16)) _
    rw [← List.append_nil (e.bytes _)]
    refine hrecords.bind ?_
    have hedns : [e.toRecord (m.header.code.toNat / 16)].filter Edns.isEdns =
        [e.toRecord (m.header.code.toNat / 16)] := rfl
    have hothers : [e.toRecord (m.header.code.toNat / 16)].filter (fun r => !Edns.isEdns r) = [] :=
      rfl
    simp only [hedns, hothers, Edns.ofRecord_toRecord e hhigh,
      Header.withHighCode_of_toNat (Edns.toNat_highCode_toRecord e hhigh)]
    exact Reader.reads_pure _

/-- **A query that fits into a message is read again as it was made.** -/
theorem decode_encode_forwarded {m : Message} {q : Question} (hlasts : m.Lasts)
    (hq : m.questions = [q]) (hsize : m.querySize ≤ maxSize) {wire : List UInt8}
    (hwire : m.forwarded.encode = some wire) : decode wire = some m.forwarded := by
  rw [encode_forwarded hlasts hq hsize, Option.some.injEq] at hwire
  subst hwire
  have hread := (reads_queryBytes (m.queryBytes q) hlasts hq hsize).readsAll 0
  exact congrArg (Option.map Prod.fst) hread

end Message

end SplitHorizon
