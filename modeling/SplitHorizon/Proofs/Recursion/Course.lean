import Mathlib.Data.List.TakeWhile
import SplitHorizon.Proofs.Recursion.Walk
/-!
# The course of a walk

The walk goes from target to target, passes over some of them and remembers whom it has asked. What
it does can be said without any of that (`course`): list the servers that the targets are found at,
leave out repetitions, ask them up to the first one that ends the walk, and take what that one says.
The walk is this for any targets, any query, and any outside whose answers depend on the call alone
(`walk_eq_course`).
-/

namespace SplitHorizon.Recursion

section

variable (out : Outside Id) (protocol : Protocol) (query : List UInt8)

/-- The servers of targets, each at its first occurrence. A target that is not found has none. -/
def serversOf (targets : List Target) : List Endpoint := (targets.filterMap (server? out)).eraseDups

/-- The calls to servers up to the first one that ends a walk, and what it comes to there. If none
of them ends it, all are called, and `attempted` targets are exhausted. -/
def courseOver (attempted : Nat) (servers : List Endpoint) : Walked Reply :=
  let settles := settles out protocol query
  let call := fun server => (⟨server, protocol, query⟩ : Call)
  match servers.find? settles with
  | some server =>
    ⟨(servers.takeWhile (!settles ·)).map call ++ [call server],
      (out.exchange (call server)).map (Reply.mk server)⟩
  | none => ⟨servers.map call, .error (.exhausted attempted)⟩

/-- What becomes of a query that is passed on to targets. -/
def course (targets : List Target) : Walked Reply :=
  if targets.isEmpty then ⟨[], .error .noTargets⟩
  else if query.length < headerSize then
    ⟨[], .error (.malformedQuery "query shorter than a DNS header")⟩
  else courseOver out protocol query targets.length (serversOf out targets)

variable {out protocol query}

/-- The servers that are contacted are those in front of the first that ends a walk, and it. -/
theorem contacted_eq (servers : List Endpoint) :
    contacted out protocol query servers =
      servers.takeWhile (fun server => !settles out protocol query server) ++
        (servers.find? (settles out protocol query)).toList := by
  induction servers with
  | nil => rfl
  | cons server servers ih =>
    cases h : settles out protocol query server with
    | true =>
      rw [contacted_cons_of_settles h, List.find?_cons_of_pos h,
        List.takeWhile_cons_of_neg (by rw [h]; exact Bool.false_ne_true)]
      rfl
    | false =>
      rw [contacted_cons_of_not_settles h,
        List.find?_cons_of_neg (by rw [h]; exact Bool.false_ne_true),
        List.takeWhile_cons_of_pos (by rw [h]; rfl), ih, List.cons_append]

/-- What a walk over servers comes to is its course over them. -/
theorem courseOver_eq (attempted : Nat) (servers : List Endpoint) :
    courseOver out protocol query attempted servers =
      ⟨(contacted out protocol query servers).map fun server => ⟨server, protocol, query⟩,
        (outcome? out protocol query servers).getD (.error (.exhausted attempted))⟩ := by
  rw [contacted_eq, outcome?, courseOver]
  cases hfind : servers.find? (settles out protocol query) with
  | some server =>
    rw [List.map_append]
    rfl
  | none =>
    have hall : servers.takeWhile (fun server => !settles out protocol query server) = servers := by
      refine List.takeWhile_eq_self_iff.mpr fun server hserver => ?_
      rw [Bool.not_eq_true', ← Bool.not_eq_true]
      exact List.find?_eq_none.mp hfind server hserver
    rw [hall, Option.toList_none, List.append_nil]
    rfl

end

/-- **A walk takes its course**, whatever the outside, the query and the targets are: it makes the
same calls in the same order, and comes to the same end. -/
theorem walk_eq_course (out : Outside Id) (protocol : Protocol) (query : List UInt8)
    (targets : List Target) :
    walk out protocol query targets = course out protocol query targets := by
  cases targets with
  | nil => rfl
  | cons target targets =>
    have htargets : target :: targets ≠ [] := List.cons_ne_nil target targets
    show _ = if query.length < headerSize then _ else _
    by_cases hquery : query.length < headerSize
    · have hnumber : number? query = none := by
        rw [Option.eq_none_iff_forall_ne_some]
        intro n hn
        exact Nat.not_le_of_lt hquery (number?_eq_some_iff.mp hn).1
      rw [if_pos hquery, walk_of_number?_eq_none htargets hnumber]
      rfl
    · have hnumber := number?_eq_some_iff.mpr ⟨Nat.le_of_not_lt hquery, rfl⟩
      rw [if_neg hquery, courseOver_eq]
      exact walk_eq hnumber htargets rfl

end SplitHorizon.Recursion
