import SplitHorizon.Proofs.Occurrences
import SplitHorizon.Proofs.Transport.Failures
/-!
# Walks over a network

A walk over the servers of its targets, with a network and a way to look up names that both may
remember what was done. What there is to come back is written down for the whole of the targets
(`visits`): the servers that they are found at, each once and in order, and what each of them sends
if it is asked behind those before it.

The walk comes to the first of them that sends a reply, and asks nobody behind it; and if there is
none, it has asked them all and says that they are exhausted (`walk_outside`). It comes to no other
end: a failure of a server never ends it, since each concerns that server alone.
-/

namespace SplitHorizon.Transport

open Recursion

variable {S δ σ : Type}

/-- A server that is asked, and what comes back of it. -/
structure Visit where
  server : Endpoint
  back : Except Failure (List UInt8)

/-- The reply of a visit to a query. -/
def Visit.reply? (query : List UInt8) (v : Visit) : Option Reply :=
  (Transport.reply? query v.back).map fun message => ⟨v.server, message⟩

/-- The visits to the servers of all targets but those in `asked`, each server once. -/
def visits (find : Target → StateM S (Option Endpoint))
    (ask : Endpoint → StateM S (Except Failure (List UInt8))) :
    (asked : List Endpoint) → List Target → S → List Visit
  | _, [], _ => []
  | asked, target :: targets, s =>
    match (find target).run s with
    | (none, s) => visits find ask asked targets s
    | (some server, s) =>
      if asked.contains server then visits find ask asked targets s
      else
        let (back, s) := (ask server).run s
        ⟨server, back⟩ :: visits find ask (server :: asked) targets s

/-! ## The servers that are visited -/

section

variable {find : Target → StateM S (Option Endpoint)}
  {ask : Endpoint → StateM S (Except Failure (List UInt8))}

/-- No server is visited that was asked before. -/
theorem server_not_mem_asked {asked : List Endpoint} {targets : List Target} {s : S} {v : Visit}
    (h : v ∈ visits find ask asked targets s) : v.server ∉ asked := by
  fun_induction visits find ask asked targets s with
  | case1 => cases h
  | case2 asked target targets s s' hfind ih => exact ih h
  | case3 asked target targets s server s' hfind hasked ih => exact ih h
  | case4 asked target targets s server s' hfind hasked back s'' hback ih =>
    rcases List.mem_cons.mp h with rfl | h
    · simpa using hasked
    · exact fun hmem => ih h (List.mem_cons_of_mem _ hmem)

/-- No server is visited twice. -/
theorem nodup_visits (asked : List Endpoint) (targets : List Target) (s : S) :
    ((visits find ask asked targets s).map (·.server)).Nodup := by
  fun_induction visits find ask asked targets s with
  | case1 => exact List.nodup_nil
  | case2 asked target targets s s' hfind ih => exact ih
  | case3 asked target targets s server s' hfind hasked ih => exact ih
  | case4 asked target targets s server s' hfind hasked back s'' hback ih =>
    refine List.nodup_cons.mpr ⟨fun hmem => ?_, ih⟩
    obtain ⟨v, hv, hserver⟩ := List.mem_map.mp hmem
    exact server_not_mem_asked hv (hserver ▸ List.mem_cons_self)

/-- If the targets are found at the same servers whenever they are looked for, those are visited,
each at its first occurrence. -/
theorem map_server_visits {server? : Target → Option Endpoint}
    (hfind : ∀ target s, ((find target).run s).1 = server? target) (asked : List Endpoint)
    (targets : List Target) (s : S) :
    (visits find ask asked targets s).map (·.server) =
      ((targets.filterMap server?).filter fun e => !asked.contains e).eraseDups := by
  fun_induction visits find ask asked targets s with
  | case1 => rfl
  | case2 asked target targets s s' hnone ih =>
    have hserver : server? target = none := by rw [← hfind target s, hnone]
    rw [List.filterMap_cons_none hserver, ih]
  | case3 asked target targets s server s' hsome hasked ih =>
    have hserver : server? target = some server := by rw [← hfind target s, hsome]
    rw [List.filterMap_cons_some hserver, ih, eraseDups_filter_not_contains_cons_of_mem hasked]
  | case4 asked target targets s server s' hsome hasked back s'' hback ih =>
    have hserver : server? target = some server := by rw [← hfind target s, hsome]
    rw [List.filterMap_cons_some hserver, eraseDups_filter_not_contains_cons hasked, List.map_cons,
      ih]

end

/-! ## The walk visits them -/

section

variable {net : Sockets δ σ (StateM S)}
  {lookUp : (host : String) → (port : UInt16) → StateM S Lookup}
  {protocol : Protocol} {query : List UInt8} {number : Nat}

/-- What the next target is found at is visited, in the state that looking for it has left. -/
theorem run_steps_cons {out : Outside (StateM S)} {tried : List Endpoint} {target : Target}
    {targets : List Target} {s s' : S} {found : Option Endpoint}
    (h : (locate out target).run s = (found, s')) :
    (steps out protocol query number tried (target :: targets)).run s =
      (visit out protocol query number tried
        (fun tried => steps out protocol query number tried targets) found).run s' := by
  rw [steps_cons, StateT.run_bind, h]
  rfl

/-- A server that has not been tried is asked, and the walk goes on in the state that this has
left. -/
theorem run_visit {out : Outside (StateM S)} {tried : List Endpoint}
    {rest : List Endpoint → StateM S (List Call × Option (Except Failure Reply))}
    {server : Endpoint} {s s' : S} {answer : Except Failure (List UInt8)}
    (htried : ¬ tried.contains server = true)
    (h : (out.exchange ⟨server, protocol, query⟩).run s = (answer, s')) :
    (visit out protocol query number tried rest (some server)).run s =
      (conclude ⟨server, protocol, query⟩ (rest (server :: tried))
        (answer.bind (check number))).run s' := by
  rw [visit_of_not_mem htried, StateT.run_bind, h]
  rfl

/-- The visits up to the first that brings a reply, and all of them if there is none. -/
def untilReply (query : List UInt8) (vs : List Visit) : List Visit :=
  vs.take (vs.findIdx (fun v => (v.reply? query).isSome) + 1)

/-- Nobody is visited behind the first reply. -/
theorem untilReply_cons_of_isSome {v : Visit} (h : (v.reply? query).isSome = true)
    (vs : List Visit) : untilReply query (v :: vs) = [v] := by
  simp [untilReply, List.findIdx_cons, h]

/-- Behind a visit without a reply the others are made. -/
theorem untilReply_cons_of_none {v : Visit} (h : v.reply? query = none) (vs : List Visit) :
    untilReply query (v :: vs) = v :: untilReply query vs := by
  simp [untilReply, List.findIdx_cons, h]

/-- All visits are made if none of them brings a reply. -/
theorem untilReply_eq_self {vs : List Visit} (h : vs.findSome? (·.reply? query) = none) :
    untilReply query vs = vs := by
  induction vs with
  | nil => rfl
  | cons v vs ih =>
    obtain ⟨hv, hvs⟩ := List.forall_mem_cons.mp (List.findSome?_eq_none_iff.mp h)
    rw [untilReply_cons_of_none hv, ih (List.findSome?_eq_none_iff.mpr hvs)]

/-- What comes back of a server and is checked is what the walk goes on with. -/
theorem run_exchange (c : Call) (s : S) :
    (exchange net c).run s =
      (((received net c).run s).1.bind (checkReply c.server), ((received net c).run s).2) := by
  rw [exchange_eq]
  rfl

/-- **The steps of a walk are the visits up to the first reply**, and they come to that reply. -/
theorem run_steps (hnumber : number? query = some number) (tried : List Endpoint)
    (targets : List Target) (s : S) {seen : List Visit}
    (hseen : seen = visits (locate (outside net lookUp))
      (fun server => received net ⟨server, protocol, query⟩) tried targets s) :
    ((steps (outside net lookUp) protocol query number tried targets).run s).1 =
      ((untilReply query seen).map fun v => ⟨v.server, protocol, query⟩,
        (seen.findSome? (·.reply? query)).map .ok) := by
  subst hseen
  fun_induction visits (locate (outside net lookUp))
    (fun server => received net ⟨server, protocol, query⟩) tried targets s with
  | case1 => rfl
  | case2 tried target targets s s' hfind ih => rw [run_steps_cons hfind, visit_none, ih]
  | case3 tried target targets s server s' hfind htried ih =>
    rw [run_steps_cons hfind, visit_of_mem htried, ih]
  | case4 tried target targets s server s' hfind htried back s'' hback ih =>
    have hask : ((outside net lookUp).exchange ⟨server, protocol, query⟩).run s' =
        (back.bind (checkReply server), s'') := by
      show (exchange net ⟨server, protocol, query⟩).run s' = _
      rw [run_exchange, hback]
    have halone : ∀ why, back = .error why → why.isTransport = true := by
      rintro why rfl
      exact isTransport_of_received (congrArg Prod.fst hback)
    rw [run_steps_cons hfind, run_visit htried hask]
    rcases bind_checkReply_cases hnumber server halone with
      ⟨reply, hreply, hcheck⟩ | ⟨hreply, why, hcheck, hwhy⟩
    · have hvisit : Visit.reply? query ⟨server, back⟩ = some ⟨server, reply⟩ := by
        simp [Visit.reply?, hreply]
      rw [hcheck, untilReply_cons_of_isSome (by simp [hvisit]), List.findSome?_cons, hvisit]
      rfl
    · have hvisit : Visit.reply? query ⟨server, back⟩ = none := by
        simp [Visit.reply?, hreply]
      rw [hcheck, untilReply_cons_of_none hvisit, List.findSome?_cons, hvisit]
      rw [conclude_of_isTransport hwhy, StateT.run_map]
      exact congrArg (fun walked => (_ :: walked.1, walked.2)) ih

end

/-- **A walk over a network comes to the first reply, or has asked every server.** Whatever the
network and the way to look up names do, the walk contacts the servers that its targets are found
at, each once and in order, up to the first that replies. The reply is a message with the number of
the query, and it is what the walk comes to. If no server replies, all have been contacted and the
targets are exhausted. The servers are the first occurrences of what the targets are found at, if a
name is found at the same addresses all along. -/
theorem walk_outside {targets : List Target} (htargets : targets ≠ []) {query : List UInt8}
    (hquery : Recursion.headerSize ≤ query.length) (net : Sockets δ σ (StateM S))
    (lookUp : (host : String) → (port : UInt16) → StateM S Lookup) (protocol : Protocol) (s : S) :
    let walked := ((walk (outside net lookUp) protocol query targets).run s).1
    let seen := visits (locate (outside net lookUp))
      (fun server => received net ⟨server, protocol, query⟩) [] targets s
    walked.calls = (untilReply query seen).map (fun v => ⟨v.server, protocol, query⟩) ∧
      walked.result = (seen.findSome? (·.reply? query)).elim
        (.error (.exhausted targets.length)) .ok ∧
      (seen.findSome? (·.reply? query) = none →
        walked.calls = seen.map fun v => ⟨v.server, protocol, query⟩) ∧
      (seen.map (·.server)).Nodup ∧
      ∀ server? : Target → Option Endpoint,
        (∀ target s, ((locate (outside net lookUp) target).run s).1 = server? target) →
        seen.map (·.server) = (targets.filterMap server?).eraseDups := by
  intro walked seen
  have hnumber := Recursion.number?_eq_some_iff.mpr ⟨hquery, rfl⟩
  have hsteps := run_steps hnumber [] targets s (rfl : seen = _)
  have hwalked : walked = ⟨(untilReply query seen).map fun v => ⟨v.server, protocol, query⟩,
      ((seen.findSome? (·.reply? query)).map .ok).getD (.error (.exhausted targets.length))⟩ := by
    show ((walk (outside net lookUp) protocol query targets).run s).1 = _
    rw [walk_of_number? htargets hnumber, StateT.run_map]
    exact congrArg (fun ended : List Call × Option (Except Failure Reply) =>
      Walked.mk ended.1 (ended.2.getD _)) hsteps
  have hcalls := congrArg Walked.calls hwalked
  refine ⟨hcalls, ?_, fun hnone => ?_, nodup_visits [] targets s, fun server? hfind => ?_⟩
  · refine (congrArg Walked.result hwalked).trans ?_
    cases seen.findSome? (·.reply? query) <;> rfl
  · rw [hcalls, untilReply_eq_self hnone]
  · refine (map_server_visits hfind [] targets s).trans ?_
    exact congrArg List.eraseDups (List.filter_eq_self.mpr fun _ _ => rfl)

/-- A network that loses the first datagram, cuts the second one short and then sends back what it
is sent. Its state is the number of datagrams, and it takes no connections. -/
def lossy : Sockets Endpoint Endpoint (StateM Nat) where
  bind server := pure (.done server)
  connect _ _ := pure (.done ())
  send _ _ := pure (.done ())
  receive _ _ := do
    let n ← get
    set (n + 1)
    pure (if n = 0 then .overdue else if n = 1 then .done [0] else .done (List.replicate 12 0))
  start _ := pure (.failed ⟨.refused, "Connection refused"⟩)
  hurry _ := pure (.done ())
  write _ _ := pure (.done ())
  read _ _ := pure .overdue

/-- Four servers, the first one twice, and a name. -/
def crossroads : List Target :=
  [.endpoint (.v4 0xc0000201 53), .endpoint (.v4 0xc0000201 53), .host "ns.test" 53,
    .endpoint (.v4 0xc0000202 53), .endpoint (.v4 0xc0000203 53), .endpoint (.v4 0xc0000204 53)]

/-- On such a network two servers fail, each in its way, and the third one replies. -/
theorem walk_outside_lossy :
    let walked := ((walk (outside lossy fun _ _ => pure .overdue) .udp (List.replicate 12 0)
      crossroads).run 0).1
    walked.calls = [.v4 0xc0000201 53, .v4 0xc0000202 53, .v4 0xc0000203 53].map
        (fun server => ⟨server, .udp, List.replicate 12 0⟩) ∧
      walked.result = .ok ⟨.v4 0xc0000203 53, List.replicate 12 0⟩ := by
  have hnonempty : crossroads ≠ [] := nofun
  have hlength : Recursion.headerSize ≤ (List.replicate 12 (0 : UInt8)).length := by decide
  obtain ⟨hcalls, hresult, _, _, _⟩ :=
    walk_outside hnonempty hlength lossy (fun _ _ => pure .overdue) .udp 0
  refine ⟨hcalls.trans ?_, hresult.trans ?_⟩
  · decide +kernel
  · have hreply : List.findSome? (·.reply? (List.replicate 12 0))
        (visits (locate (outside lossy fun _ _ => pure .overdue))
          (fun server => received lossy ⟨server, .udp, List.replicate 12 0⟩) [] crossroads 0) =
            some ⟨.v4 0xc0000203 53, List.replicate 12 0⟩ := by
      decide +kernel
    rw [hreply]
    rfl

end SplitHorizon.Transport
