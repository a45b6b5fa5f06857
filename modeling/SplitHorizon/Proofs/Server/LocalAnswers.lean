import SplitHorizon.Proofs.Answers.Kinds
import SplitHorizon.Proofs.Record.Sendable
import SplitHorizon.Proofs.Server.Forwarding
/-!
# Requests that are answered here

The message that a request gets back without a server being asked: a refusal, if it has not exactly
one question, and otherwise the record set that the store holds for it.

Both are said of an outside in any monad. That the request is handled by a `pure` computation, whose
list of calls is empty, is what it means that nothing beyond the process is asked; and a refusal
that is the same for every store says that the store is not asked either.
-/

namespace SplitHorizon.Request

variable {m : Type → Type} [Monad m] [LawfulMonad m]

omit [LawfulMonad m] in
/-- A request that has not exactly one question is refused. -/
theorem handle_of_length_ne_one {r : Request} (hlength : r.message.questions.length ≠ 1)
    (out : Outside m) (store : Store) (ttl : UInt32) :
    r.handle out store ttl = pure ⟨[], r.message.refused⟩ := by
  unfold handle
  split
  · rename_i q hq
    rw [hq] at hlength
    exact absurd rfl hlength
  · rfl

/-- A request with a local answer comes to that answer. -/
theorem handle_of_findLocal {r : Request} {q : Question} {wire : List UInt8}
    (hq : r.message.questions = [q]) (hwire : r.message.forwarded.encode = some wire)
    {store : Store} {answer : LocalAnswer} (hlocal : (r.query q).findLocal store = some answer)
    (out : Outside m) (ttl : UInt32) :
    r.handle out store ttl = pure ⟨[], r.respond ttl q (.ok (.found answer))⟩ := by
  unfold handle
  rw [hq]
  simp only [hwire, Query.resolve, hlocal, pure_bind]

/-- A local answer is responded to with its records. -/
theorem respond_found {r : Request} {q : Question} {ttl : UInt32} {answer : LocalAnswer}
    {records : List ResourceRecord}
    (hrecords : RecordValue.toRecords q.name ttl answer.values = .ok records) :
    r.respond ttl q (.ok (.found answer)) = r.message.answered records := by
  rw [respond, hrecords]

/-- A record set that can not be sent is refused as a whole. -/
theorem respond_found_of_not {r : Request} {q : Question} {ttl : UInt32} {answer : LocalAnswer}
    (h : ¬∃ records, RecordValue.toRecords q.name ttl answer.values = .ok records) :
    r.respond ttl q (.ok (.found answer)) = r.message.refused := by
  cases hrecords : RecordValue.toRecords q.name ttl answer.values with
  | ok records => exact absurd ⟨records, hrecords⟩ h
  | error e => rw [respond, hrecords]

/-- A question of a kind that can be answered locally is looked up under its name. -/
theorem findLocal_query {r : Request} {q : Question} {kind : RecordKind}
    (hkind : q.typeCode = kind.code) (store : Store) :
    (r.query q).findLocal store = store.resolve r.client q.name.question kind := by
  have hcode : RecordKind.ofCode? kind.code = some kind := by
    cases kind <;> rfl
  rw [Query.findLocal, query, hkind, hcode, Option.bind_some]

/-- **What a request gets back without a server being asked.**

A request without a question, or with several ones, is refused: the response has the code of a
failure and no records, and an extension record only if the request has one. That is so whatever the
store and the outside are.

A request with one question, for which the store has a record set whose names can be sent, is
answered with it: one record for each value, in order, under the name as it was asked, of the type
that was asked for, with the time to live of the settings, and holding the value. -/
theorem handle_local {text : String} {store : Store} (hbuild : Store.build text = .ok store)
    {client : Address} {protocol : Protocol} {bytes : List UInt8} {r : Request}
    (hr : ofBytes client protocol bytes = some r) (out : Outside m) (ttl : UInt32) :
    (r.message.questions.length ≠ 1 → ∃ refusal, refusal.header.code = 2 ∧
      refusal.answers = [] ∧ refusal.authorities = [] ∧ refusal.additionals = [] ∧
      (refusal.edns.isSome → r.message.edns.isSome) ∧
      ∀ (out' : Outside m) (store' : Store), r.handle out' store' ttl = pure ⟨[], refusal⟩) ∧
    ∀ (q : Question) (kind : RecordKind) (answer : LocalAnswer),
      r.message.questions = [q] → q.typeCode = kind.code →
      store.resolve client q.name.question kind = some answer →
      (∀ v ∈ answer.values, v.IsSendable) →
      ∃ records,
        List.Forall₂ (fun v record => record.typeCode = q.typeCode ∧
          RecordValue.IsRecordOf q.name ttl v record) answer.values records ∧
        r.handle out store ttl = pure ⟨[],
          { header :=
              { id := r.message.header.id
                response := true
                opcode := r.message.header.opcode
                authoritative := true
                truncated := false
                recursionDesired := r.message.header.recursionDesired
                recursionAvailable := true
                authenticData := false
                checkingDisabled := r.message.header.checkingDisabled
                code := 0 }
            questions := [q]
            answers := records
            authorities := []
            additionals := []
            edns := r.message.edns.map fun e => ⟨max e.payload 512, e.version, false, 0, []⟩ }⟩ := by
  obtain ⟨rfl, rfl, hdecode, _⟩ := ofBytes_eq_some_iff.mp hr
  obtain ⟨entries, _, hstore⟩ := exists_of_build hbuild
  refine ⟨fun hlength => ?_, fun q kind answer hq hkind hanswer hsendable => ?_⟩
  · refine ⟨r.message.refused, rfl, rfl, rfl, rfl, fun hedns => ?_, fun out' store' => ?_⟩
    · exact Option.isSome_map.symm.trans hedns
    · exact handle_of_length_ne_one hlength out' store' ttl
  · obtain ⟨wire, hwire⟩ :=
      Message.exists_encode_forwarded (Message.lasts_of_decode hdecode) hq
    obtain ⟨records, hrecords⟩ := RecordValue.exists_toRecords_iff.mpr hsendable
    refine ⟨records, ?_, ?_⟩
    · have hkinds : ∀ v ∈ answer.values, v.kind = kind := fun v hv =>
        (isOfKind_of_resolve hstore hanswer v hv).kind_eq
      have hboth := (List.forall₂_and_left _ _).mpr
        ⟨hkinds, RecordValue.forall₂_of_toRecords hrecords⟩
      refine hboth.imp fun v record h => ⟨?_, h.2⟩
      rw [h.2.typeCode, h.1, hkind]
    · rw [handle_of_findLocal hq hwire ((findLocal_query hkind store).trans hanswer) out ttl,
        respond_found hrecords, ← hq]
      rfl

/-- Two servers of mail for everyone, one of them under a wildcard. -/
def mailServers : String :=
  "\x7b\"default\":\x7b\"a.b\":\x7b\"MX\":[\"10 mail.b\",\"20 *.b\"]\x7d\x7d\x7d"

/-- A request for the servers of mail of `A.b`, with an extension record and an option. -/
def mailRequest : List UInt8 :=
  [0x12, 0x34, 0x01, 0x10, 0, 1, 0, 0, 0, 0, 0, 1, 1, 0x41, 1, 0x62, 0, 0, 15, 0, 1,
    0, 0, 41, 0x04, 0xd0, 0, 0, 0x80, 0, 0, 6, 0, 10, 0, 2, 7, 8]

/-- The two servers of mail are answered without a server being asked, though there is none that
would reply. -/
theorem handle_local_mailServers :
    ∃ store r records, Store.build mailServers = .ok store ∧
      ofBytes (.v4 0x0a000001) .udp mailRequest = some r ∧
      List.Forall₂ (fun v record => record.typeCode = 15 ∧
        RecordValue.IsRecordOf ⟨[[0x41], [0x62]], true⟩ 60 v record)
        [.mx 10 "mail.b.", .mx 20 "*.b."] records ∧
      r.handle refusers store 60 = pure ⟨[],
        ⟨⟨0x1234, true, 0, true, false, true, true, false, true, 0⟩,
          [⟨⟨[[0x41], [0x62]], true⟩, 15, 1⟩], records, [], [],
          some ⟨1232, 0, false, 0, []⟩⟩⟩ := by
  have hstore : (Store.build mailServers).toOption.any (fun store =>
      store.resolve (.v4 0x0a000001) (DomainName.question ⟨[[0x41], [0x62]], true⟩) .mx =
        some ⟨[.mx 10 "mail.b.", .mx 20 "*.b."], .default⟩) = true := by
    decide +kernel
  have hrequest : (ofBytes (.v4 0x0a000001) .udp mailRequest).any (fun r =>
      r.message.questions = [⟨⟨[[0x41], [0x62]], true⟩, 15, 1⟩] ∧
      r.message.header = ⟨0x1234, false, 0, false, false, true, false, false, true, 0⟩ ∧
      r.message.edns = some ⟨1232, 0, true, 0, [⟨10, [7, 8]⟩]⟩) = true := by
    decide +kernel
  obtain ⟨store, hbuild, hanswer⟩ := (Option.any_eq_true _ _).mp hstore
  obtain ⟨r, hr, hfacts⟩ := (Option.any_eq_true _ _).mp hrequest
  obtain ⟨hq, hheader, hedns⟩ := of_decide_eq_true hfacts
  have hbuild := toOption_eq_some_iff.mp hbuild
  have hsendable : ∀ v ∈ [RecordValue.mx 10 "mail.b.", .mx 20 "*.b."], v.IsSendable := by
    have hnames : ∀ name ∈ ["mail.b.", "*.b."], (DomainName.ofText? name).isSome = true := by
      decide +kernel
    simp only [List.mem_cons, List.not_mem_nil, or_false, forall_eq_or_imp, forall_eq] at hnames ⊢
    exact ⟨fun _ h => by cases h; exact Option.isSome_iff_exists.mp hnames.1,
      fun _ h => by cases h; exact Option.isSome_iff_exists.mp hnames.2⟩
  obtain ⟨records, hrecords, hhandle⟩ := (handle_local hbuild hr refusers 60).2 _ .mx _ hq rfl
    (of_decide_eq_true hanswer) hsendable
  rw [hheader, hedns] at hhandle
  exact ⟨store, r, records, hbuild, hr, hrecords, hhandle⟩

/-! ## Record sets that can not be sent -/

/-- **A record set of a built store is answered or refused by its names.** If they have no escapes,
the response has the code of success if they are host names, and else that of a failure, and either
way no server is asked. -/
theorem code_handle_local {entries : List (String × Json)} {store : Store}
    (hstore : Store.ofEntries entries = .ok store) {client : Address} {protocol : Protocol}
    {bytes : List UInt8} {r : Request} (hr : ofBytes client protocol bytes = some r) {q : Question}
    {kind : RecordKind} {answer : LocalAnswer} (hq : r.message.questions = [q])
    (hkind : q.typeCode = kind.code)
    (hanswer : store.resolve client q.name.question kind = some answer)
    (hunescaped : ∀ v ∈ answer.values, v.IsUnescaped) (out : Outside m) (ttl : UInt32) :
    ∃ response, r.handle out store ttl = pure ⟨[], response⟩ ∧
      (response.header.code = 0 ∧ (∀ v ∈ answer.values, v.HasHostName) ∨
        response.header.code = Header.serverFailure ∧ ∃ v ∈ answer.values, ¬v.HasHostName) := by
  obtain ⟨rfl, rfl, hdecode, _⟩ := ofBytes_eq_some_iff.mp hr
  obtain ⟨wire, hwire⟩ := Message.exists_encode_forwarded (Message.lasts_of_decode hdecode) hq
  refine ⟨_, handle_of_findLocal hq hwire ((findLocal_query hkind store).trans hanswer) out ttl, ?_⟩
  have hhost := RecordValue.hasHostName_iff_of_isOfKind (isOfKind_of_resolve hstore hanswer) q.name
    ttl
  by_cases hall : ∀ v ∈ answer.values, v.HasHostName
  · obtain ⟨_, records, hrecords⟩ := hhost.mp hall
    rw [respond_found hrecords]
    exact .inl ⟨rfl, hall⟩
  · have hrecords : ¬∃ records, RecordValue.toRecords q.name ttl answer.values = .ok records :=
      fun h => hall (hhost.mpr ⟨hunescaped, h⟩)
    rw [respond_found_of_not hrecords]
    exact .inr ⟨rfl, by simpa using hall⟩

end SplitHorizon.Request
