import SplitHorizon.Proofs.Server.LocalAnswers
/-!
# What the server's own messages take of a request's header

A local answer has a header that is made anew: of the request's it takes the number, the kind of
query and the two flags that a client sets for itself, and nothing else. A refusal has the request's
header with some fields put in place of others, so what is not replaced stays there: a client that
sends a query which calls itself authoritative, truncated or authentic is told the same of its
refusal (`handle_flagged`). The two agree on everything but the code and whether the message is
authoritative exactly if the request sets none of these three flags (`header_handle`).
-/

namespace SplitHorizon

namespace Header

/-- A header that answers another one: it is a response with its number, its kind of query and its
wishes, and offers recursion. -/
structure IsResponseTo (sent request : Header) : Prop where
  id : sent.id = request.id
  response : sent.response = true
  opcode : sent.opcode = request.opcode
  recursionDesired : sent.recursionDesired = request.recursionDesired
  recursionAvailable : sent.recursionAvailable = true
  checkingDisabled : sent.checkingDisabled = request.checkingDisabled

variable (request : Header)

/-- The header of an answer is that of a response to the request. -/
theorem isResponseTo_answering : request.answering.IsResponseTo request :=
  ⟨rfl, rfl, rfl, rfl, rfl, rfl⟩

/-- The header of a refusal is that of a response to the request. -/
theorem isResponseTo_refusing : request.refusing.IsResponseTo request :=
  ⟨rfl, rfl, rfl, rfl, rfl, rfl⟩

/-- The header of a refusal is made like that of an answer exactly if the request has none of the
flags that speak of an answer. -/
theorem refusing_eq_iff :
    request.refusing =
        { request.answering with authoritative := false, code := serverFailure } ↔
      request.authoritative = false ∧ request.truncated = false ∧
        request.authenticData = false := by
  rw [Header.mk.injEq]
  constructor
  · rintro ⟨-, -, -, hauthoritative, htruncated, -, -, hauthentic, -, -⟩
    exact ⟨hauthoritative, htruncated, hauthentic⟩
  · rintro ⟨hauthoritative, htruncated, hauthentic⟩
    exact ⟨rfl, rfl, rfl, hauthoritative, htruncated, rfl, rfl, hauthentic, rfl, rfl⟩

end Header

namespace Request

/-- Whether a request is answered from a store: the store has a record set for its one question, and
the set can be sent. -/
def IsAnswered (store : Store) (r : Request) : Prop :=
  ∃ q answer, r.message.questions = [q] ∧ (r.query q).findLocal store = some answer ∧
    ∀ v ∈ answer.values, v.IsSendable

/-- Whether a request is handed a reply of a server: it has no local answer, the walk ends with a
reply, and the reply is a message. -/
def IsHandedOn (out : Outside Id) (store : Store) (r : Request) : Prop :=
  ∃ q wire reply m, r.message.questions = [q] ∧ (r.query q).findLocal store = none ∧
    r.message.forwarded.encode = some wire ∧
    (Recursion.walk out r.protocol wire (store.targets r.client)).result = .ok reply ∧
    Message.decode reply.message = some m

section

variable {client : Address} {protocol : Protocol} {bytes : List UInt8} {r : Request} {store : Store}

/-- A request that can be answered locally is responded to with an answer. -/
theorem response_of_isAnswered (hr : ofBytes client protocol bytes = some r)
    (hanswered : r.IsAnswered store) (out : Outside Id) (ttl : UInt32) :
    ∃ records, (r.handle out store ttl).response = r.message.answered records := by
  obtain ⟨q, answer, hq, hlocal, hsendable⟩ := hanswered
  obtain ⟨_, _, hdecode, _⟩ := ofBytes_eq_some_iff.mp hr
  obtain ⟨wire, hwire⟩ := Message.exists_encode_forwarded (Message.lasts_of_decode hdecode) hq
  obtain ⟨records, hrecords⟩ : ∃ records,
      RecordValue.toRecords q.name ttl answer.values = .ok records :=
    RecordValue.exists_toRecords_iff.mpr hsendable
  refine ⟨records, ?_⟩
  rw [handle_of_findLocal hq hwire hlocal out ttl]
  exact respond_found hrecords

/-- What a walk comes to without a message is refused. -/
theorem respond_relayed_of_not {q : Question} {ttl : UInt32} {result : Except Failure Reply}
    (h : ∀ reply m, result = .ok reply → Message.decode reply.message ≠ some m) :
    r.respond ttl q (result.map .relayed) = r.message.refused := by
  cases result with
  | error why => rfl
  | ok reply =>
    have hm : Message.decode reply.message = none :=
      Option.eq_none_iff_forall_ne_some.mpr fun m => h reply m rfl
    show r.respond ttl q (.ok (.relayed reply)) = _
    rw [respond, hm]

/-- A request is refused that is neither answered nor handed a reply, whatever the reason. -/
theorem response_of_not_isAnswered (hr : ofBytes client protocol bytes = some r)
    {out : Outside Id} (hanswered : ¬r.IsAnswered store) (hhanded : ¬r.IsHandedOn out store)
    (ttl : UInt32) :
    (r.handle out store ttl).response = r.message.refused := by
  obtain ⟨_, _, hdecode, _⟩ := ofBytes_eq_some_iff.mp hr
  by_cases hlength : r.message.questions.length = 1
  · obtain ⟨q, hq⟩ := List.length_eq_one_iff.mp hlength
    obtain ⟨wire, hwire⟩ := Message.exists_encode_forwarded (Message.lasts_of_decode hdecode) hq
    cases hlocal : (r.query q).findLocal store with
    | some answer =>
      rw [handle_of_findLocal hq hwire hlocal out ttl]
      apply respond_found_of_not
      intro hrecords
      have hsendable := RecordValue.exists_toRecords_iff.mp hrecords
      exact hanswered ⟨q, answer, hq, hlocal, hsendable⟩
    | none =>
      rw [handle_eq hq hwire hlocal out ttl]
      apply respond_relayed_of_not
      intro reply m hresult hm
      exact hhanded ⟨q, wire, reply, m, hq, hlocal, hwire, hresult, hm⟩
  · rw [handle_of_length_ne_one hlength out store ttl]
    rfl

/-- Nothing is answered from a store that is empty. -/
theorem not_isAnswered_empty : ¬r.IsAnswered Store.empty := by
  rintro ⟨q, answer, -, hlocal, -⟩
  obtain ⟨kind, -, hanswer⟩ := Option.bind_eq_some_iff.mp hlocal
  cases hanswer

/-- There are no servers in a store that is empty, so nothing is handed on. -/
theorem not_isHandedOn_empty (out : Outside Id) : ¬r.IsHandedOn out Store.empty := by
  rintro ⟨q, wire, reply, m, -, -, -, hresult, -⟩
  cases hresult

/-- A request that is answered is handed nothing. -/
theorem IsAnswered.not_isHandedOn (hanswered : r.IsAnswered store) (out : Outside Id) :
    ¬r.IsHandedOn out store := by
  rintro ⟨q, wire, reply, m, hq, hlocal, -⟩
  obtain ⟨q', answer, hq', hlocal', -⟩ := hanswered
  obtain rfl := List.singleton_inj.mp (hq.symm.trans hq')
  rw [hlocal] at hlocal'
  cases hlocal'

end

/-- **What a message of the server's own takes of a request's header.** Unless it is handed a reply,
a request gets a response with its number, its kind of query and its wishes.

If it is answered, nothing else of its header counts. If it is not, it is refused, and the three
flags that speak of an answer are the request's; so the refusal has the header that an answer
would have, but for its code and without authority, exactly if the request sets none of them. -/
theorem header_handle {client : Address} {protocol : Protocol} {bytes : List UInt8} {r : Request}
    (hr : ofBytes client protocol bytes = some r) {out : Outside Id} {store : Store}
    (hhanded : ¬r.IsHandedOn out store) (ttl : UInt32) :
    let request := r.message.header
    let sent := (r.handle out store ttl).response.header
    sent.IsResponseTo request ∧
      (r.IsAnswered store → sent.code = 0 ∧ sent.authoritative = true ∧ sent.truncated = false ∧
        sent.authenticData = false) ∧
      (¬r.IsAnswered store → sent.code = Header.serverFailure ∧
        sent.authoritative = request.authoritative ∧ sent.truncated = request.truncated ∧
        sent.authenticData = request.authenticData ∧
        (sent = { request.answering with authoritative := false, code := Header.serverFailure } ↔
          request.authoritative = false ∧ request.truncated = false ∧
            request.authenticData = false)) := by
  intro request sent
  by_cases hanswered : r.IsAnswered store
  · obtain ⟨records, hresponse⟩ := response_of_isAnswered hr hanswered out ttl
    have hsent : sent = request.answering := congrArg Message.header hresponse
    rw [hsent]
    exact ⟨request.isResponseTo_answering, fun _ => ⟨rfl, rfl, rfl, rfl⟩, absurd hanswered⟩
  · have hsent : sent = request.refusing :=
      congrArg Message.header (response_of_not_isAnswered hr hanswered hhanded ttl)
    rw [hsent]
    exact ⟨request.isResponseTo_refusing, fun h => absurd h hanswered,
      fun _ => ⟨rfl, rfl, rfl, rfl, request.refusing_eq_iff⟩⟩

/-- One address of `a.b` for everyone. -/
def oneAddress : String :=
  "\x7b\"default\":\x7b\"a.b\":\x7b\"A\":[\"10.0.0.9\"]\x7d\x7d\x7d"

/-- A request for the addresses of `a.b` that calls itself authoritative, truncated and
authentic. -/
def flagged : List UInt8 :=
  [0x12, 0x34, 0x07, 0x30, 0, 1, 0, 0, 0, 0, 0, 0, 1, 0x61, 1, 0x62, 0, 0, 1, 0, 1]

/-- That request as it is read: its number, its flags and its question. -/
theorem ofBytes_flagged :
    ∃ r, ofBytes (.v4 0x0a000001) .udp flagged = some r ∧
      r.message.header = ⟨0x1234, false, 0, true, true, true, false, true, true, 0⟩ ∧
      r.message.questions = [⟨⟨[[0x61], [0x62]], true⟩, 1, 1⟩] := by
  have hfacts : (ofBytes (.v4 0x0a000001) .udp flagged).any (fun r =>
      r.message.header = ⟨0x1234, false, 0, true, true, true, false, true, true, 0⟩ ∧
        r.message.questions = [⟨⟨[[0x61], [0x62]], true⟩, 1, 1⟩]) = true := by
    decide +kernel
  obtain ⟨r, hr, hflagged⟩ := (Option.any_eq_true _ _).mp hfacts
  exact ⟨r, hr, of_decide_eq_true hflagged⟩

/-- From a store with the address the request is answered under a header without the flags. From one
with nothing it is refused, and then they stand in the refusal. -/
theorem header_handle_flagged :
    ∃ store r, Store.build oneAddress = .ok store ∧
      ofBytes (.v4 0x0a000001) .udp flagged = some r ∧
      ((r.handle refusers store 60).response.header.code = 0 ∧
        (r.handle refusers store 60).response.header.truncated = false ∧
        (r.handle refusers store 60).response.header.authenticData = false) ∧
      ((r.handle refusers Store.empty 60).response.header.code = 2 ∧
        (r.handle refusers Store.empty 60).response.header.truncated = true ∧
        (r.handle refusers Store.empty 60).response.header.authenticData = true) := by
  have hstore : (Store.build oneAddress).toOption.any (fun store =>
      store.resolve (.v4 0x0a000001) (DomainName.question ⟨[[0x61], [0x62]], true⟩) .a =
        some ⟨[.a 0x0a000009], .default⟩) = true := by
    decide +kernel
  obtain ⟨store, hbuild, hresolve⟩ := (Option.any_eq_true _ _).mp hstore
  obtain ⟨r, hr, hheader, hq⟩ := ofBytes_flagged
  have hanswered : r.IsAnswered store := by
    obtain ⟨hclient, -⟩ := ofBytes_eq_some_iff.mp hr
    refine ⟨_, ⟨[.a 0x0a000009], .default⟩, hq, ?_, fun v hv name hname => ?_⟩
    · rw [findLocal_query (show (1 : UInt16) = RecordKind.a.code from rfl), hclient]
      exact of_decide_eq_true hresolve
    · obtain rfl := List.mem_singleton.mp hv
      cases hname
  obtain ⟨_, hanswer, _⟩ := header_handle hr (hanswered.not_isHandedOn refusers) 60
  obtain ⟨_, _, hrefusal⟩ := header_handle hr (not_isHandedOn_empty refusers) 60
  obtain ⟨hcode, _, htruncated, hauthentic⟩ := hanswer hanswered
  obtain ⟨hcode', _, htruncated', hauthentic', _⟩ := hrefusal not_isAnswered_empty
  rw [hheader] at htruncated' hauthentic'
  exact ⟨store, r, toOption_eq_some_iff.mp hbuild, hr, ⟨hcode, htruncated, hauthentic⟩,
    hcode', htruncated', hauthentic'⟩

/-- A refusal has the flags of the request, where an answer would have none of them. -/
theorem handle_flagged :
    ∃ r, ofBytes (.v4 0x0a000001) .udp flagged = some r ∧
      (r.handle refusers Store.empty 60).response.header =
        ⟨0x1234, true, 0, true, true, true, true, true, true, 2⟩ ∧
      r.message.header.answering = ⟨0x1234, true, 0, true, false, true, true, false, true, 0⟩ := by
  have hfacts : (ofBytes (.v4 0x0a000001) .udp flagged).any (fun r =>
      (r.handle refusers Store.empty 60).response.header =
          ⟨0x1234, true, 0, true, true, true, true, true, true, 2⟩ ∧
        r.message.header.answering =
          ⟨0x1234, true, 0, true, false, true, true, false, true, 0⟩) = true := by
    decide +kernel
  obtain ⟨r, hr, hflagged⟩ := (Option.any_eq_true _ _).mp hfacts
  exact ⟨r, hr, of_decide_eq_true hflagged⟩

end Request

end SplitHorizon
