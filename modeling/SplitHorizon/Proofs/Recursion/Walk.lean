import SplitHorizon.Proofs.Number.Places
import SplitHorizon.Proofs.Occurrences
import SplitHorizon.Recursion.Walk
/-!
# Which servers a walk contacts

With an outside whose answers depend on the call alone, a walk is a function of the targets: locate
them, leave out those that can not be found, keep the first occurrence of every server, and stop
behind the first server that ends the walk (`walk_calls`). The list of servers already tried is in
the statement about `steps`, where it says which servers are left out.
-/

namespace SplitHorizon.Recursion

/-! ## Numbers of messages -/

/-- A message has a number exactly if it is as long as a header, and then its first two bytes are
the number. -/
theorem number?_eq_some_iff {message : List UInt8} {n : Nat} :
    number? message = some n ↔
      headerSize ≤ message.length ∧ Places.ofBytes (message.take 2) = n := by
  have hlength : (message.take headerSize).length < headerSize ↔ ¬ headerSize ≤ message.length := by
    rw [List.length_take]
    omega
  unfold number?
  by_cases h : headerSize ≤ message.length
  · rw [if_neg (fun hlt => hlength.mp hlt h), Option.some.injEq]
    exact (and_iff_right h).symm
  · rw [if_pos (hlength.mpr h)]
    exact iff_of_false nofun fun hand => h hand.1

/-- Messages have one number exactly if their first two bytes are the same. -/
theorem number?_eq_iff {query reply : List UInt8} {n : Nat} (h : number? query = some n) :
    number? reply = some n ↔ headerSize ≤ reply.length ∧ reply.take 2 = query.take 2 := by
  obtain ⟨hquery, rfl⟩ := number?_eq_some_iff.mp h
  rw [number?_eq_some_iff]
  refine and_congr_right fun hreply => ⟨fun hn => ?_, fun hbytes => by rw [hbytes]⟩
  refine Places.ofBytes_injective ?_ hn
  rw [headerSize] at hquery hreply
  rw [List.length_take, List.length_take]
  omega

/-- A reply that has not the query's number fails for its server only. -/
theorem check_eq (number : Nat) (reply : List UInt8) :
    check number reply = .ok reply ∧ number? reply = some number ∨
      ∃ why, check number reply = .error why ∧ why.isTransport = true ∧
        number? reply ≠ some number := by
  unfold check
  cases number? reply with
  | none => exact .inr ⟨_, rfl, rfl, nofun⟩
  | some n =>
    by_cases hn : n = number
    · exact .inl ⟨if_pos hn, congrArg some hn⟩
    · exact .inr ⟨_, if_neg hn, rfl, fun h => hn (Option.some.inj h)⟩

/-! ## Steps of a walk -/

section

variable {m : Type → Type} [Monad m] {out : Outside m} {protocol : Protocol} {query : List UInt8}
  {number : Nat} {tried : List Endpoint}

/-- The next target is looked for, and what was found is visited. -/
theorem steps_cons (target : Target) (targets : List Target) :
    steps out protocol query number tried (target :: targets) =
      locate out target >>= visit out protocol query number tried
        fun tried => steps out protocol query number tried targets :=
  rfl

section

variable {rest : List Endpoint → m (List Call × Option (Except Failure Reply))}

/-- A target whose server is not found is passed over. -/
theorem visit_none : visit out protocol query number tried rest none = rest tried := rfl

/-- A target whose server has been tried is passed over. -/
theorem visit_of_mem {server : Endpoint} (htried : tried.contains server = true) :
    visit out protocol query number tried rest (some server) = rest tried :=
  if_pos htried

/-- Any other server is asked. -/
theorem visit_of_not_mem {server : Endpoint} (htried : ¬ tried.contains server = true) :
    visit out protocol query number tried rest (some server) =
      out.exchange ⟨server, protocol, query⟩ >>= fun answer =>
        conclude ⟨server, protocol, query⟩ (rest (server :: tried)) (answer.bind (check number)) :=
  if_neg htried

end

section

variable {call : Call} {rest : m (List Call × Option (Except Failure Reply))} {why : Failure}

/-- A walk goes on behind a failure that concerns one server only. -/
theorem conclude_of_isTransport [LawfulMonad m] (h : why.isTransport = true) :
    conclude call rest (.error why) = (fun walked => (call :: walked.1, walked.2)) <$> rest := by
  rw [conclude, if_pos h]
  exact bind_pure_comp _ _

/-- It ends with any other failure. -/
theorem conclude_of_not_isTransport (h : why.isTransport = false) :
    conclude call rest (.error why) = pure ([call], some (.error why)) :=
  if_neg (by rw [h]; exact Bool.false_ne_true)

end

section

variable {targets : List Target}

/-- A walk with a numbered query is its steps, and says that the targets are exhausted if nothing
comes of them. -/
theorem walk_of_number? [LawfulMonad m] (htargets : targets ≠ [])
    (hnumber : number? query = some number) :
    walk out protocol query targets =
      (fun ended => ⟨ended.1, ended.2.getD (.error (.exhausted targets.length))⟩) <$>
        steps out protocol query number [] targets := by
  rw [walk, hnumber]
  · exact bind_pure_comp _ _
  · exact htargets

/-- A query without a number is not passed on. -/
theorem walk_of_number?_eq_none (htargets : targets ≠ []) (hnumber : number? query = none) :
    walk out protocol query targets =
      pure ⟨[], .error (.malformedQuery "query shorter than a DNS header")⟩ := by
  rw [walk, hnumber]
  exact htargets

end

end

section

variable (out : Outside Id) (protocol : Protocol) (query : List UInt8)

/-- The server of a target: an address stands for itself, and a name for the first address that is
found for it. -/
def server? : Target → Option Endpoint
  | .endpoint e => some e
  | .host name port => Lookup.first? (out.lookUp name port)

/-- What a server replies to a query. -/
def replyOf (server : Endpoint) : Except Failure (List UInt8) :=
  out.exchange ⟨server, protocol, query⟩

/-- Whether a walk ends with a server: it replies with a message that has the query's number, or
fails for a reason that does not concern it alone. -/
def settles (server : Endpoint) : Bool :=
  match replyOf out protocol query server with
  | .ok reply => headerSize ≤ reply.length ∧ reply.take 2 = query.take 2
  | .error why => !why.isTransport

/-- The servers up to the first one that ends a walk, and all of them if there is none. -/
def contacted (servers : List Endpoint) : List Endpoint :=
  servers.take (servers.findIdx (settles out protocol query) + 1)

/-- What a walk comes to at the first server that ends it. -/
def outcome? (servers : List Endpoint) : Option (Except Failure Reply) :=
  (servers.find? (settles out protocol query)).map fun server =>
    (replyOf out protocol query server).map fun message => ⟨server, message⟩

variable {out protocol query}

/-- Nobody is contacted behind a server that ends the walk. -/
theorem contacted_cons_of_settles {server : Endpoint} {servers : List Endpoint}
    (h : settles out protocol query server = true) :
    contacted out protocol query (server :: servers) = [server] := by
  rw [contacted, List.findIdx_cons, h, cond_true]
  rfl

/-- Behind any other server the walk goes on. -/
theorem contacted_cons_of_not_settles {server : Endpoint} {servers : List Endpoint}
    (h : settles out protocol query server = false) :
    contacted out protocol query (server :: servers) =
      server :: contacted out protocol query servers := by
  rw [contacted, List.findIdx_cons, h, cond_false]
  rfl

/-- A server's reply, once it has been checked, either ends a walk or fails for that server only. -/
theorem replyOf_cases (out : Outside Id) (protocol : Protocol) {number : Nat}
    (hnumber : number? query = some number) (server : Endpoint) :
    settles out protocol query server = true ∧
        (replyOf out protocol query server).bind (check number) =
          replyOf out protocol query server ∧
        (∀ why, replyOf out protocol query server = .error why → why.isTransport = false) ∨
      settles out protocol query server = false ∧
        ∃ why, (replyOf out protocol query server).bind (check number) = .error why ∧
          why.isTransport = true := by
  unfold settles
  cases replyOf out protocol query server with
  | error why =>
    cases hwhy : why.isTransport with
    | false =>
      refine .inl ⟨congrArg not hwhy, rfl, fun why' h => ?_⟩
      cases h
      exact hwhy
    | true => exact .inr ⟨congrArg not hwhy, why, rfl, hwhy⟩
  | ok reply =>
    rcases check_eq number reply with ⟨hcheck, hreply⟩ | ⟨why, hcheck, hwhy, hreply⟩
    · exact .inl ⟨decide_eq_true ((number?_eq_iff hnumber).mp hreply), hcheck, nofun⟩
    · have hshort : ¬ (headerSize ≤ reply.length ∧ reply.take 2 = query.take 2) := fun h =>
        hreply ((number?_eq_iff hnumber).mpr h)
      exact .inr ⟨decide_eq_false hshort, why, hcheck, hwhy⟩

/-- With answers that depend on the call alone, a target is located at its server. -/
theorem locate_eq (target : Target) : locate out target = server? out target := by
  cases target <;> rfl

/-- With answers that depend on the call alone, the server of the next target is visited. -/
theorem steps_cons_eq {number : Nat} {tried : List Endpoint} (target : Target)
    (targets : List Target) :
    steps out protocol query number tried (target :: targets) =
      visit out protocol query number tried
        (fun tried => steps out protocol query number tried targets) (server? out target) := by
  rw [steps_cons, locate_eq]
  rfl

/-- A walk from servers already tried contacts the others, each once, up to the first that ends
it. -/
theorem steps_eq {number : Nat} (hnumber : number? query = some number) (tried : List Endpoint)
    (targets : List Target) {servers : List Endpoint}
    (hservers : servers =
      ((targets.filterMap (server? out)).filter fun e => !tried.contains e).eraseDups) :
    steps out protocol query number tried targets =
      ((contacted out protocol query servers).map fun server => ⟨server, protocol, query⟩,
        outcome? out protocol query servers) := by
  induction targets generalizing tried servers with
  | nil =>
    subst hservers
    rfl
  | cons target targets ih =>
    rw [steps_cons_eq]
    cases hserver : server? out target with
    | none =>
      rw [List.filterMap_cons_none hserver] at hservers
      rw [visit_none, ih tried hservers]
    | some server =>
      rw [List.filterMap_cons_some hserver] at hservers
      by_cases htried : tried.contains server = true
      · rw [eraseDups_filter_not_contains_cons_of_mem htried] at hservers
        rw [visit_of_mem htried, ih tried hservers]
      · rw [eraseDups_filter_not_contains_cons htried] at hservers
        rw [visit_of_not_mem htried, hservers]
        show conclude _ _ ((replyOf out protocol query server).bind (check number)) = _
        rcases replyOf_cases out protocol hnumber server with
          ⟨hsettles, hcheck, herror⟩ | ⟨hsettles, why, hcheck, hwhy⟩
        · rw [hcheck, contacted_cons_of_settles hsettles, outcome?, List.find?_cons_of_pos hsettles]
          cases hreply : replyOf out protocol query server with
          | ok message =>
            rw [Option.map_some, hreply]
            rfl
          | error why =>
            rw [Option.map_some, hreply, conclude_of_not_isTransport (herror why hreply)]
            rfl
        · rw [hcheck, contacted_cons_of_not_settles hsettles, outcome?,
            List.find?_cons_of_neg (by rw [hsettles]; exact Bool.false_ne_true),
            conclude_of_isTransport hwhy, ih (server :: tried) rfl]
          rfl

/-- A walk with a query that has a number comes to the outcome at the servers of its targets, if
there is one. -/
theorem walk_eq {number : Nat} (hnumber : number? query = some number) {targets : List Target}
    (htargets : targets ≠ []) {servers : List Endpoint}
    (hservers : servers = (targets.filterMap (server? out)).eraseDups) :
    walk out protocol query targets =
      ⟨(contacted out protocol query servers).map fun server => ⟨server, protocol, query⟩,
        (outcome? out protocol query servers).getD (.error (.exhausted targets.length))⟩ := by
  have hall : (targets.filterMap (server? out)).filter
      (fun e => !([] : List Endpoint).contains e) = targets.filterMap (server? out) :=
    List.filter_eq_self.mpr fun _ _ => rfl
  have hsteps : steps out protocol query number [] targets =
      ((contacted out protocol query servers).map fun server => ⟨server, protocol, query⟩,
        outcome? out protocol query servers) :=
    steps_eq hnumber [] targets (hservers.trans (congrArg List.eraseDups hall.symm))
  rw [walk_of_number? htargets hnumber, hsteps]
  rfl

/-- **A walk contacts the servers of its targets in their order, each once, up to the first that
ends it.** -/
theorem walk_calls {number : Nat} (hnumber : number? query = some number) (targets : List Target) :
    (walk out protocol query targets).calls =
      (contacted out protocol query (targets.filterMap (server? out)).eraseDups).map
        fun server => ⟨server, protocol, query⟩ := by
  cases targets with
  | nil => rfl
  | cons target targets => rw [walk_eq hnumber (List.cons_ne_nil target targets) rfl]

/-- Every server is sent the query, by the one protocol. -/
theorem exists_of_mem_walk {targets : List Target} {call : Call}
    (h : call ∈ (walk out protocol query targets).calls) :
    ∃ server, call = ⟨server, protocol, query⟩ := by
  cases hnumber : number? query with
  | some number =>
    rw [walk_calls hnumber] at h
    obtain ⟨server, _, rfl⟩ := List.mem_map.mp h
    exact ⟨server, rfl⟩
  | none =>
    cases targets with
    | nil => cases h
    | cons target targets =>
      rw [walk_of_number?_eq_none (List.cons_ne_nil target targets) hnumber] at h
      cases h

/-- What is sent is the query. -/
theorem message_of_mem_walk {targets : List Target} {call : Call}
    (h : call ∈ (walk out protocol query targets).calls) : call.message = query := by
  obtain ⟨server, rfl⟩ := exists_of_mem_walk h
  rfl

end

end SplitHorizon.Recursion
