import SplitHorizon.Proofs.Server.LocalAnswers
/-!
# Messages that are responses

A message says of itself whether it is a query or a response. The messages that are made here, a
local answer or a refusal, are responses whatever the request was. A reply that is handed back keeps
what it says of itself, and nothing on its way asks for that: the walk looks at its size and its
number. So a client is sent a response exactly if what a server sent is one (`response_handle_iff`),
and a server that sends queries back as they came has the client handed its own query
(`handle_reflected`).
-/

namespace SplitHorizon

namespace Message

theorem response_answered (request : Message) (records : List ResourceRecord) :
    (request.answered records).header.response = true := rfl

theorem response_refused (request : Message) : request.refused.header.response = true := rfl

/-- A relayed reply is a response if the reply says so. -/
theorem response_relayed (request reply : Message) :
    (request.relayed reply).header.response = reply.header.response := rfl

end Message

namespace Request

/-- A record set is answered or refused. -/
theorem response_respond_found (r : Request) (q : Question) (ttl : UInt32) (answer : LocalAnswer) :
    (r.respond ttl q (.ok (.found answer))).header.response = true := by
  by_cases hrecords : ∃ records, RecordValue.toRecords q.name ttl answer.values = .ok records
  · obtain ⟨records, hrecords⟩ := hrecords
    rw [respond_found hrecords, Message.response_answered]
  · rw [respond_found_of_not hrecords, Message.response_refused]

/-- A reply that is handed back is a response if it is one. Where there is no reply, or one that is
no message, the request is refused. -/
theorem response_respond_relayed_iff {r : Request} {q : Question} {ttl : UInt32}
    {result : Except Failure Reply} :
    (r.respond ttl q (result.map .relayed)).header.response = true ↔
      ∀ reply m, result = .ok reply → Message.decode reply.message = some m →
        m.header.response = true := by
  cases result with
  | error why =>
    refine iff_of_true (Message.response_refused r.message) fun _ _ h => ?_
    cases h
  | ok reply =>
    show (r.respond ttl q (.ok (.relayed reply))).header.response = true ↔ _
    cases hm : Message.decode reply.message with
    | none =>
      have hrefused : r.respond ttl q (.ok (.relayed reply)) = r.message.refused := by
        rw [respond, hm]
      rw [hrefused]
      refine iff_of_true (Message.response_refused r.message) fun _ m heq hm' => ?_
      cases heq
      rw [hm] at hm'
      cases hm'
    | some m =>
      rw [respond_relayed hm, Message.response_relayed]
      constructor
      · intro h _ m' heq hm'
        cases heq
        rw [hm] at hm'
        cases hm'
        exact h
      · intro h
        exact h reply m rfl hm

/-- **A client is sent a response exactly if what it is handed back of a server is one.** A request
that is answered here or refused gets a response whatever it says of itself, and so does one whose
reply is a response. -/
theorem response_handle_iff {client : Address} {protocol : Protocol} {bytes : List UInt8}
    {r : Request} (hr : ofBytes client protocol bytes = some r) (out : Outside Id) (store : Store)
    (ttl : UInt32) :
    (r.handle out store ttl).response.header.response = true ↔
      ∀ q wire reply m, r.message.questions = [q] → (r.query q).findLocal store = none →
        r.message.forwarded.encode = some wire →
        (Recursion.walk out protocol wire (store.targets client)).result = .ok reply →
        Message.decode reply.message = some m → m.header.response = true := by
  obtain ⟨rfl, rfl, hdecode, _⟩ := ofBytes_eq_some_iff.mp hr
  by_cases hlength : r.message.questions.length = 1
  · obtain ⟨q, hq⟩ := List.length_eq_one_iff.mp hlength
    obtain ⟨wire, hwire⟩ :=
      Message.exists_encode_forwarded (Message.lasts_of_decode hdecode) hq
    cases hlocal : (r.query q).findLocal store with
    | some answer =>
      rw [handle_of_findLocal hq hwire hlocal out ttl]
      refine iff_of_true (response_respond_found r q ttl answer) fun q' _ _ _ hq' hlocal' => ?_
      obtain rfl := List.singleton_inj.mp (hq.symm.trans hq')
      rw [hlocal] at hlocal'
      cases hlocal'
    | none =>
      rw [handle_eq hq hwire hlocal out ttl]
      refine response_respond_relayed_iff.trans ⟨fun h q' wire' reply m _ _ hwire' => ?_, ?_⟩
      · obtain rfl := Option.some.inj (hwire.symm.trans hwire')
        exact h reply m
      · intro h reply m
        exact h q wire reply m hq hlocal hwire
  · rw [handle_of_length_ne_one hlength out store ttl]
    refine iff_of_true (Message.response_refused r.message) fun q _ _ _ hq => ?_
    rw [hq] at hlength
    exact absurd rfl hlength

/-- A refusal of a server is a response, and so is what the client gets. -/
theorem response_handle_refusers :
    ∃ r, ofBytes (.v4 0x0a000001) .udp extended = some r ∧
      (r.handle refusers serverOnly 60).response.header.response = true := by
  have hfacts : (ofBytes (.v4 0x0a000001) .udp extended).any (fun r =>
      r.message.forwarded.encode = some extended) = true := by
    decide +kernel
  obtain ⟨r, hr, hextended⟩ := (Option.any_eq_true _ _).mp hfacts
  have hextended := of_decide_eq_true hextended
  refine ⟨r, hr, (response_handle_iff hr refusers serverOnly 60).mpr ?_⟩
  intro q wire reply m _ _ hwire hreply hm
  obtain rfl := Option.some.inj (hextended.symm.trans hwire)
  have hwalk : (Recursion.walk refusers .udp extended
      (serverOnly.targets (.v4 0x0a000001))).result = .ok ⟨.v4 0xc0000201 53, refusal⟩ :=
    toOption_eq_some_iff.mp (by decide +kernel)
  obtain rfl := Except.ok.inj (hwalk.symm.trans hreply)
  have hresponse : (Message.decode refusal).all (·.header.response) = true := by decide +kernel
  rw [hm, Option.all_some] at hresponse
  exact hresponse

/-- An outside where every server sends back what it is sent. -/
def reflectors : Outside Id where
  lookUp _ _ := .overdue
  exchange call := .ok call.message

/-- A query that a server sends back as it came is relayed, and the client gets it back as it came:
a message that is no response. -/
theorem handle_reflected :
    ∃ r, ofBytes (.v4 0x0a000001) .udp extended = some r ∧
      (r.handle reflectors serverOnly 60).response = r.message ∧
      (r.handle reflectors serverOnly 60).response.header.response = false := by
  have hfacts : (ofBytes (.v4 0x0a000001) .udp extended).any (fun r =>
      (r.handle reflectors serverOnly 60).response = r.message ∧
        r.message.header.response = false) = true := by
    decide +kernel
  obtain ⟨r, hr, hreflected⟩ := (Option.any_eq_true _ _).mp hfacts
  obtain ⟨hresponse, hquery⟩ := of_decide_eq_true hreflected
  exact ⟨r, hr, hresponse, hresponse ▸ hquery⟩

end Request

end SplitHorizon
