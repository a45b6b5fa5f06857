import SplitHorizon.Proofs.Except
import SplitHorizon.Proofs.Message.Query
import SplitHorizon.Proofs.Recursion.Walk
import SplitHorizon.Server.Handler
/-!
# Queries passed on, replies handed back

A request with one question that has no local answer goes to the servers, and a reply comes back.
Neither way loses anything. What the servers are sent is read as the request's header, question and
extension record, and nothing else; and what the client is handed is the reply's message under the
request's number and question (`handle_forwarded`).
-/

namespace SplitHorizon.Request

/-- A request is made of bytes exactly if they decode, with the client, the protocol, the message
and the bytes of its questions. -/
theorem ofBytes_eq_some_iff {client : Address} {protocol : Protocol} {bytes : List UInt8}
    {r : Request} : ofBytes client protocol bytes = some r ↔
      r.client = client ∧ r.protocol = protocol ∧ Message.decode bytes = some r.message ∧
        Message.questionBytes bytes = some r.questions := by
  obtain ⟨client', protocol', message, questions⟩ := r
  constructor
  · intro h
    obtain ⟨m, hm, h⟩ := Option.bind_eq_some_iff.mp h
    obtain ⟨qs, hqs, h⟩ := Option.bind_eq_some_iff.mp h
    cases h
    exact ⟨rfl, rfl, hm, hqs⟩
  · intro hparts
    obtain ⟨rfl, rfl, hm, hqs⟩ := hparts
    exact Option.bind_eq_some_iff.mpr ⟨_, hm, Option.bind_eq_some_iff.mpr ⟨_, hqs, rfl⟩⟩

/-- A reply that decodes is relayed. -/
theorem respond_relayed {r : Request} {q : Question} {ttl : UInt32} {reply : Reply} {m : Message}
    (hm : Message.decode reply.message = some m) :
    r.respond ttl q (.ok (.relayed reply)) = r.message.relayed m := by
  rw [respond, hm]

/-- A request without a local answer comes to what the walk comes to. -/
theorem handle_eq {r : Request} {q : Question} {wire : List UInt8} (hq : r.message.questions = [q])
    (hwire : r.message.forwarded.encode = some wire) {store : Store}
    (hlocal : (r.query q).findLocal store = none) (out : Outside Id) (ttl : UInt32) :
    r.handle out store ttl =
      let walked := Recursion.walk out r.protocol wire (store.targets r.client)
      ⟨walked.calls, r.respond ttl q (walked.result.map .relayed)⟩ := by
  unfold handle
  rw [hq]
  simp only [hwire, Query.resolve, hlocal]
  rfl

/-- A request that leads to a call has one question and no local answer to it, and its query is
what is sent. -/
theorem exists_of_mem_calls {r : Request} {out : Outside Id} {store : Store} {ttl : UInt32}
    {c : Call} (hc : c ∈ (r.handle out store ttl).calls) :
    ∃ q wire server, r.message.questions = [q] ∧ (r.query q).findLocal store = none ∧
      r.message.forwarded.encode = some wire ∧ c = ⟨server, r.protocol, wire⟩ := by
  unfold handle at hc
  split at hc
  · rename_i q hq
    split at hc
    · cases hc
    · rename_i wire hwire
      cases hlocal : (r.query q).findLocal store with
      | some answer =>
        rw [Query.resolve, hlocal] at hc
        cases hc
      | none =>
        rw [Query.resolve, hlocal] at hc
        obtain ⟨server, hserver⟩ := Recursion.exists_of_mem_walk hc
        exact ⟨q, wire, server, hq, hlocal, hwire, hserver⟩
  · cases hc

/-- **A request without a local answer is passed on and its reply handed back, and nothing is lost
on either way.** The servers are sent one query, which is read as the header, the question and the
extension record of the request, if it fits into a message; and it takes ten bytes more than the
request at most. The client is handed what a server's reply is read as, under the number and the
question of the request. -/
theorem handle_forwarded {client : Address} {protocol : Protocol} {bytes : List UInt8} {r : Request}
    {q : Question} (hr : ofBytes client protocol bytes = some r) (hq : r.message.questions = [q])
    {store : Store} (hlocal : (r.query q).findLocal store = none) (out : Outside Id)
    (ttl : UInt32) :
    ∃ wire, r.message.forwarded.encode = some wire ∧
      r.message.querySize ≤ bytes.length + 10 ∧
      (r.message.querySize ≤ Message.maxSize →
        Message.decode wire = some ⟨r.message.header, [q], [], [], [], r.message.edns⟩) ∧
      (∀ call ∈ (r.handle out store ttl).calls, call.message = wire) ∧
      ∀ reply m, (Recursion.walk out protocol wire (store.targets client)).result = .ok reply →
        Message.decode reply.message = some m →
        (r.handle out store ttl).response =
          ⟨{ m.header with id := r.message.header.id }, [q], m.answers, m.authorities,
            m.additionals, m.edns⟩ := by
  obtain ⟨rfl, rfl, hdecode, _⟩ := ofBytes_eq_some_iff.mp hr
  have hlasts := Message.lasts_of_decode hdecode
  obtain ⟨wire, hwire⟩ := Message.exists_encode_forwarded hlasts hq
  have hforwarded : r.message.forwarded = ⟨r.message.header, [q], [], [], [], r.message.edns⟩ := by
    rw [Message.forwarded, hq]
  rw [handle_eq hq hwire hlocal]
  refine ⟨wire, hwire, Message.querySize_le_of_decode hdecode hq, fun hsize => ?_,
    fun call hcall => Recursion.message_of_mem_walk hcall, fun reply m hreply hm => ?_⟩
  · rw [← hforwarded]
    exact Message.decode_encode_forwarded hlasts hq hsize hwire
  · show r.respond ttl q ((Recursion.walk out r.protocol wire (store.targets r.client)).result.map
      .relayed) = _
    rw [hreply, ← hq]
    exact respond_relayed hm

/-- A request for the addresses of `aB`, with an extension record and an option. -/
def extended : List UInt8 :=
  [0x12, 0x34, 0x01, 0x10, 0, 1, 0, 0, 0, 0, 0, 1, 2, 0x61, 0x42, 0, 0, 1, 0, 1,
    0, 0, 41, 0x04, 0xd0, 0, 0, 0x80, 0, 0, 6, 0, 10, 0, 2, 7, 8]

/-- A refusal with a code of more than four bits, and without a question. -/
def refusal : List UInt8 :=
  [0x12, 0x34, 0x81, 0x85, 0, 0, 0, 0, 0, 0, 0, 1, 0, 0, 41, 0x04, 0xd0, 1, 0, 0, 0, 0, 0]

/-- A server for everyone, and no answers. -/
def serverOnly : Store := ⟨[], ⟨[], [.endpoint (.v4 0xc0000201 53)]⟩⟩

/-- An outside where every server refuses. -/
def refusers : Outside Id where
  lookUp _ _ := .overdue
  exchange _ := .ok refusal

/-- A request with an extension, for a name with a capital letter, that every server refuses. The
query keeps its number, question and extension, and the refusal is relayed with the number and the
question. -/
theorem handle_forwarded_extended :
    ∃ r wire, ofBytes (.v4 0x0a000001) .udp extended = some r ∧
      Message.decode wire = some ⟨r.message.header, [⟨⟨[[0x61, 0x42]], true⟩, 1, 1⟩], [], [], [],
        some ⟨1232, 0, true, 0, [⟨10, [7, 8]⟩]⟩⟩ ∧
      (r.handle refusers serverOnly 60).response =
        ⟨⟨0x1234, true, 0, false, false, true, true, false, false, 0x015⟩,
          [⟨⟨[[0x61, 0x42]], true⟩, 1, 1⟩], [], [], [], some ⟨1232, 0, false, 0, []⟩⟩ := by
  have hsome : (ofBytes (.v4 0x0a000001) .udp extended).isSome = true := by decide +kernel
  obtain ⟨r, hr⟩ := Option.isSome_iff_exists.mp hsome
  have hfacts : (ofBytes (.v4 0x0a000001) .udp extended).all (fun r =>
      r.message.header.id = 0x1234 ∧ r.message.edns = some ⟨1232, 0, true, 0, [⟨10, [7, 8]⟩]⟩ ∧
      r.message.questions = [⟨⟨[[0x61, 0x42]], true⟩, 1, 1⟩] ∧
      (r.query ⟨⟨[[0x61, 0x42]], true⟩, 1, 1⟩).findLocal serverOnly = none ∧
      r.message.querySize ≤ Message.maxSize ∧
      r.message.forwarded.encode = some extended) = true := by
    decide +kernel
  rw [hr, Option.all_some, decide_eq_true_eq] at hfacts
  obtain ⟨hid, hedns, hq, hlocal, hsize, hextended⟩ := hfacts
  have hreply : Message.decode refusal = some
      ⟨⟨0x1234, true, 0, false, false, true, true, false, false, 0x015⟩, [], [], [], [],
        some ⟨1232, 0, false, 0, []⟩⟩ := by
    decide +kernel
  obtain ⟨wire, hwire, _, hdecode, _, hresponse⟩ := handle_forwarded hr hq hlocal refusers 60
  rw [hextended, Option.some.injEq] at hwire
  subst hwire
  refine ⟨r, extended, hr, hedns ▸ hdecode hsize, ?_⟩
  have hwalk : (Recursion.walk refusers .udp extended
      (serverOnly.targets (.v4 0x0a000001))).result = .ok ⟨.v4 0xc0000201 53, refusal⟩ :=
    toOption_eq_some_iff.mp (by decide +kernel)
  rw [hresponse _ _ hwalk hreply, hid]

end SplitHorizon.Request
