import SplitHorizon.Proofs.Server.Headers
/-!
# The class of a question

A question names a class beside its type, and nothing that is answered here looks at it. The
records of a local answer are of the class of the Internet, whatever class was asked for, and a
question that differs in its class alone is answered with the same records (`class_handle_local`).
So a question of the class of chaos is told an address of the Internet (`handle_chaos`).
-/

namespace SplitHorizon

/-- The same question for another class. -/
def Question.ofClass (q : Question) (code : UInt16) : Question := { q with classCode := code }

/-- The same message with a question in place of those that it has. -/
def Message.withQuestion (m : Message) (q : Question) : Message := { m with questions := [q] }

/-! ## Records -/

/-- All records that are made of values are of the internet class. -/
theorem RecordValue.classCode_of_mem_toRecords {owner : DomainName} {ttl : UInt32}
    {values : List RecordValue} {records : List ResourceRecord}
    (h : toRecords owner ttl values = .ok records) :
    ∀ record ∈ records, record.classCode = Message.internetClass := by
  have hclasses : List.Forall₂ (fun record v => record.classCode = Message.internetClass ∧
      IsRecordOf owner ttl v record) records values :=
    (forall₂_of_toRecords h).flip.imp fun _ _ hrecord => ⟨hrecord.classCode, hrecord⟩
  exact ((List.forall₂_and_left _ _).mp hclasses).1

/-- Records of one class have another one only if that is the same, or there are none. -/
theorem forall_classCode_eq_iff {records : List ResourceRecord} {code code' : UInt16}
    (h : ∀ record ∈ records, record.classCode = code) :
    (∀ record ∈ records, record.classCode = code') ↔ code' = code ∨ records = [] := by
  constructor
  · intro h'
    cases records with
    | nil => exact .inr rfl
    | cons record records =>
      exact .inl ((h' record List.mem_cons_self).symm.trans (h record List.mem_cons_self))
  · rintro (rfl | rfl)
    · exact h
    · exact nofun

namespace Request

/-! ## Responses that are made here -/

/-- The response to a question that no server is asked about, or none replies to: the local answer,
or a refusal. -/
def ownResponse (store : Store) (ttl : UInt32) (r : Request) (q : Question) : Message :=
  match (r.query q).findLocal store with
  | some answer => r.respond ttl q (.ok (.found answer))
  | none => r.message.refused

section

variable {client : Address} {protocol : Protocol} {bytes : List UInt8} {r : Request} {q : Question}
  {store : Store} {answer : LocalAnswer}

/-- A request whose question has a local answer is responded to with it, and nobody is called. -/
theorem handle_found (hr : ofBytes client protocol bytes = some r) (hq : r.message.questions = [q])
    (hlocal : (r.query q).findLocal store = some answer) (out : Outside Id) (ttl : UInt32) :
    r.handle out store ttl = ⟨[], r.respond ttl q (.ok (.found answer))⟩ := by
  obtain ⟨-, -, hdecode, -⟩ := ofBytes_eq_some_iff.mp hr
  obtain ⟨wire, hwire⟩ := Message.exists_encode_forwarded (Message.lasts_of_decode hdecode) hq
  exact handle_of_findLocal hq hwire hlocal out ttl

/-- A request that is not handed a reply gets a response of the server's own. -/
theorem response_eq_ownResponse (hr : ofBytes client protocol bytes = some r)
    (hq : r.message.questions = [q]) {out : Outside Id} (hhanded : ¬r.IsHandedOn out store)
    (ttl : UInt32) : (r.handle out store ttl).response = r.ownResponse store ttl q := by
  unfold ownResponse
  cases hlocal : (r.query q).findLocal store with
  | some answer => rw [handle_found hr hq hlocal out ttl]
  | none =>
    refine response_of_not_isAnswered hr ?_ hhanded ttl
    rintro ⟨q', answer, hq', hlocal', -⟩
    obtain rfl := List.singleton_inj.mp (hq.symm.trans hq')
    rw [hlocal] at hlocal'
    cases hlocal'

/-- A response of the server's own has the questions of the request, and no records but answers of
the class of the Internet. They are one for each value of a record set that can be sent. -/
theorem exists_ownResponse (store : Store) (ttl : UInt32) (r : Request) (q : Question) :
    ∃ header records edns,
      r.ownResponse store ttl q = ⟨header, r.message.questions, records, [], [], edns⟩ ∧
      (∀ record ∈ records, record.classCode = Message.internetClass) ∧
      ∀ answer, (r.query q).findLocal store = some answer →
        (∀ v ∈ answer.values, v.IsSendable) → records.length = answer.values.length := by
  unfold ownResponse
  cases (r.query q).findLocal store with
  | none => exact ⟨_, [], _, rfl, nofun, nofun⟩
  | some answer =>
    by_cases hsendable : ∀ v ∈ answer.values, v.IsSendable
    · obtain ⟨records, hrecords⟩ : ∃ records,
          RecordValue.toRecords q.name ttl answer.values = .ok records :=
        RecordValue.exists_toRecords_iff.mpr hsendable
      refine ⟨_, records, _, respond_found hrecords,
        RecordValue.classCode_of_mem_toRecords hrecords, fun _ h _ => ?_⟩
      obtain rfl := Option.some.inj h
      exact (RecordValue.forall₂_of_toRecords hrecords).length_eq.symm
    · have hnone : ¬∃ records, RecordValue.toRecords q.name ttl answer.values = .ok records :=
        fun hrecords => hsendable (RecordValue.exists_toRecords_iff.mp hrecords)
      refine ⟨_, [], _, respond_found_of_not hnone, nofun, fun _ h hall => ?_⟩
      obtain rfl := Option.some.inj h
      exact absurd hall hsendable

/-- The class of a question shows in no other part of such a response. -/
theorem ownResponse_ofClass {r' : Request} {code : UInt16} (hclient : r'.client = r.client)
    (hmessage : r'.message = r.message.withQuestion (q.ofClass code)) (store : Store)
    (ttl : UInt32) :
    r'.ownResponse store ttl (q.ofClass code) =
      (r.ownResponse store ttl q).withQuestion (q.ofClass code) := by
  have hlocal : (r'.query (q.ofClass code)).findLocal store = (r.query q).findLocal store := by
    rw [Query.findLocal, query, hclient]
    rfl
  rw [ownResponse, ownResponse, hlocal]
  cases (r.query q).findLocal store with
  | none =>
    show r'.message.refused = _
    rw [hmessage]
    rfl
  | some answer =>
    show r'.respond ttl (q.ofClass code) (.ok (.found answer)) =
      (r.respond ttl q (.ok (.found answer))).withQuestion (q.ofClass code)
    by_cases hsendable : ∃ records, RecordValue.toRecords q.name ttl answer.values = .ok records
    · obtain ⟨records, hrecords⟩ := hsendable
      have hrecords' : RecordValue.toRecords (q.ofClass code).name ttl answer.values =
          .ok records := hrecords
      rw [respond_found hrecords, respond_found hrecords', hmessage]
      rfl
    · have hsendable' : ¬∃ records,
          RecordValue.toRecords (q.ofClass code).name ttl answer.values = .ok records := hsendable
      rw [respond_found_of_not hsendable, respond_found_of_not hsendable', hmessage]
      rfl

end

/-- **What is answered here is of the class of the Internet, whatever class was asked for.** So if a
request is not handed a reply of a server, the records that it gets have the class of its question
exactly if that is the Internet's, or if there are none. A record set that the store has for the
question is sent without a server being asked, and all of it if it can be sent. The question stands
in the response with its class; and a question that differs in its class alone gets a response that
differs in this question alone. -/
theorem class_handle_local {client : Address} {protocol : Protocol} {bytes : List UInt8}
    {r : Request} (hr : ofBytes client protocol bytes = some r) {q : Question}
    (hq : r.message.questions = [q]) {out : Outside Id} {store : Store}
    (hhanded : ¬r.IsHandedOn out store) (ttl : UInt32) :
    let response := (r.handle out store ttl).response
    response.questions = [q] ∧ response.authorities = [] ∧ response.additionals = [] ∧
      (∀ record ∈ response.answers, record.classCode = Message.internetClass) ∧
      ((∀ record ∈ response.answers, record.classCode = q.classCode) ↔
        q.classCode = Message.internetClass ∨ response.answers = []) ∧
      (∀ answer, (r.query q).findLocal store = some answer →
        (r.handle out store ttl).calls = [] ∧
          ((∀ v ∈ answer.values, v.IsSendable) →
            response.answers.length = answer.values.length)) ∧
      ∀ (code : UInt16) (bytes' : List UInt8) (r' : Request),
        ofBytes client protocol bytes' = some r' →
        r'.message = r.message.withQuestion (q.ofClass code) → ¬r'.IsHandedOn out store →
        (r'.handle out store ttl).response = response.withQuestion (q.ofClass code) := by
  intro response
  have hresponse : response = r.ownResponse store ttl q :=
    response_eq_ownResponse hr hq hhanded ttl
  obtain ⟨header, records, edns, hown, hclasses, hlength⟩ := exists_ownResponse store ttl r q
  rw [hq] at hown
  have hparts : response = ⟨header, [q], records, [], [], edns⟩ := hresponse.trans hown
  refine ⟨by rw [hparts], by rw [hparts], by rw [hparts], ?_, ?_, fun answer hlocal => ⟨?_, ?_⟩,
    fun code bytes' r' hr' hmessage hhanded' => ?_⟩
  · rw [hparts]
    exact hclasses
  · rw [hparts]
    exact forall_classCode_eq_iff hclasses
  · rw [handle_found hr hq hlocal out ttl]
  · rw [hparts]
    exact hlength answer hlocal
  · obtain ⟨hclient, -⟩ := ofBytes_eq_some_iff.mp hr
    obtain ⟨hclient', -⟩ := ofBytes_eq_some_iff.mp hr'
    have hq' : r'.message.questions = [q.ofClass code] := by
      rw [hmessage]
      rfl
    rw [response_eq_ownResponse hr' hq' hhanded' ttl, hresponse]
    exact ownResponse_ofClass (hclient'.trans hclient.symm) hmessage store ttl

/-- A request for the addresses of `a.b` of the class of chaos. -/
def chaotic : List UInt8 :=
  [0x12, 0x34, 0x01, 0, 0, 1, 0, 0, 0, 0, 0, 0, 1, 0x61, 1, 0x62, 0, 0, 1, 0, 3]

/-- The same request for the class of the Internet. -/
def internetOnly : List UInt8 :=
  [0x12, 0x34, 0x01, 0, 0, 1, 0, 0, 0, 0, 0, 0, 1, 0x61, 1, 0x62, 0, 0, 1, 0, 1]

/-- Both requests are answered with one address, and it is of the class of the Internet. -/
theorem class_handle_local_chaotic :
    ∃ store r r', Store.build oneAddress = .ok store ∧
      ofBytes (.v4 0x0a000001) .udp internetOnly = some r ∧
      ofBytes (.v4 0x0a000001) .udp chaotic = some r' ∧
      (r.handle refusers store 60).response.answers.length = 1 ∧
      (∀ record ∈ (r.handle refusers store 60).response.answers, record.classCode = 1) ∧
      (r'.handle refusers store 60).response =
        (r.handle refusers store 60).response.withQuestion ⟨⟨[[0x61], [0x62]], true⟩, 1, 3⟩ := by
  have hfacts : (Store.build oneAddress).toOption.any (fun store =>
      (ofBytes (.v4 0x0a000001) .udp internetOnly).any fun r =>
        (ofBytes (.v4 0x0a000001) .udp chaotic).any fun r' =>
          r.message.questions = [⟨⟨[[0x61], [0x62]], true⟩, 1, 1⟩] ∧
          r'.message = r.message.withQuestion ⟨⟨[[0x61], [0x62]], true⟩, 1, 3⟩ ∧
          (r.query ⟨⟨[[0x61], [0x62]], true⟩, 1, 1⟩).findLocal store =
            some ⟨[.a 0x0a000009], .default⟩ ∧
          (r'.query ⟨⟨[[0x61], [0x62]], true⟩, 1, 3⟩).findLocal store =
            some ⟨[.a 0x0a000009], .default⟩) = true := by
    decide +kernel
  obtain ⟨store, hbuild, hfacts⟩ := (Option.any_eq_true _ _).mp hfacts
  obtain ⟨r, hr, hfacts⟩ := (Option.any_eq_true _ _).mp hfacts
  obtain ⟨r', hr', hfacts⟩ := (Option.any_eq_true _ _).mp hfacts
  obtain ⟨hq, hmessage, hlocal, hlocal'⟩ := of_decide_eq_true hfacts
  have hsendable : ∀ v ∈ [RecordValue.a 0x0a000009], v.IsSendable := by
    intro v hv name hname
    obtain rfl := List.mem_singleton.mp hv
    cases hname
  have hq' : r'.message.questions = [⟨⟨[[0x61], [0x62]], true⟩, 1, 3⟩] := by
    rw [hmessage]
    rfl
  have hhanded : ¬r.IsHandedOn refusers store :=
    IsAnswered.not_isHandedOn ⟨_, _, hq, hlocal, hsendable⟩ refusers
  have hhanded' : ¬r'.IsHandedOn refusers store :=
    IsAnswered.not_isHandedOn ⟨_, _, hq', hlocal', hsendable⟩ refusers
  obtain ⟨-, -, -, hclasses, -, hanswer, hother⟩ := class_handle_local hr hq hhanded 60
  exact ⟨store, r, r', toOption_eq_some_iff.mp hbuild, hr, hr', (hanswer _ hlocal).2 hsendable,
    hclasses, hother 3 chaotic r' hr' hmessage hhanded'⟩

/-- A question of the class of chaos is answered with a record of the class of the Internet. -/
theorem handle_chaos :
    ∃ store r q response record, Store.build oneAddress = .ok store ∧
      ofBytes (.v4 0x0a000001) .udp chaotic = some r ∧ r.message.questions = [q] ∧
      q.classCode = 3 ∧ r.handle refusers store 60 = ⟨[], response⟩ ∧
      record ∈ response.answers ∧ record.classCode = 1 := by
  have hfacts : (Store.build oneAddress).toOption.any (fun store =>
      (ofBytes (.v4 0x0a000001) .udp chaotic).any fun r =>
        r.message.questions = [⟨⟨[[0x61], [0x62]], true⟩, 1, 3⟩] ∧
        (r.handle refusers store 60).calls = [] ∧
        (r.handle refusers store 60).response.answers =
          [⟨⟨[[0x61], [0x62]], true⟩, 1, 1, 60, .a 0x0a000009⟩]) = true := by
    decide +kernel
  obtain ⟨store, hbuild, hfacts⟩ := (Option.any_eq_true _ _).mp hfacts
  obtain ⟨r, hr, hfacts⟩ := (Option.any_eq_true _ _).mp hfacts
  obtain ⟨hq, hcalls, hanswers⟩ := of_decide_eq_true hfacts
  have hhandle : r.handle refusers store 60 = ⟨[], (r.handle refusers store 60).response⟩ :=
    congrArg (Handled.mk · _) hcalls
  exact ⟨store, r, _, _, _, toOption_eq_some_iff.mp hbuild, hr, hq, rfl, hhandle,
    hanswers ▸ List.mem_singleton_self _, rfl⟩

end Request

end SplitHorizon
