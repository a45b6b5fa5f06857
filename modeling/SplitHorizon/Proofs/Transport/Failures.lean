import SplitHorizon.Proofs.Message.Decoded
import SplitHorizon.Proofs.Recursion.Walk
import SplitHorizon.Transport.Exchange
/-!
# How an exchange fails

Whatever happens on a network, an exchange with a server fails for a reason that concerns that
server only. It is shown of the actions on sockets first, then of the sequences that exchanges are
(`FailsAlone.bind`): no step of a sequence brings in a failure of its own, except for a message too
long for a stream, and that one counts among the failures of a server too.

The network runs in a state, of any type. So it may remember all that was done on it, and two equal
actions may come to different ends.

What comes back of a server is looked at twice, by the exchange and by the walk. Together they take
it for a reply exactly if it decodes as a message and has the number of the query (`reply?`), and
all else is a failure of that server (`bind_checkReply_cases`).
-/

namespace SplitHorizon

/-- What decodes as a message has all of a header. -/
theorem Message.headerSize_le_of_decode {bytes : List UInt8} (h : (decode bytes).isSome = true) :
    Recursion.headerSize ≤ bytes.length := by
  rw [decode, Option.isSome_map] at h
  obtain ⟨⟨m, c⟩, hread⟩ := Option.isSome_iff_exists.mp h
  rw [StateT.run, read, Wire.Reader.bind_apply] at hread
  obtain ⟨⟨p, c₁⟩, hheader, _⟩ := Option.bind_eq_some_iff.mp hread
  obtain ⟨n, _, hlength, rfl, _⟩ := Header.ensures_read bytes p c₁ hheader
  rw [Recursion.headerSize]
  omega

/-- A fault of a socket concerns its server alone. -/
theorem SocketFault.isTransport_toFailure (f : SocketFault) (server : Endpoint) (action : String) :
    (f.toFailure server action).isTransport = true := by
  unfold toFailure
  cases f.kind <;> rfl

/-- An action fails for reasons only that concern its server. -/
theorem Outcome.isTransport_of_toResult {α : Type} {o : Outcome α} {server : Endpoint}
    {action : String} {why : Failure} (h : o.toResult server action = .error why) :
    why.isTransport = true := by
  cases o with
  | done value => cases h
  | failed f =>
    cases h
    exact f.isTransport_toFailure server action
  | overdue =>
    cases h
    rfl

namespace Transport

variable {S α β δ σ : Type}

/-! ## Sequences of actions -/

/-- Whether a computation on a network fails for reasons only that concern one server. -/
def FailsAlone (x : ExceptT Failure (StateM S) α) : Prop :=
  ∀ s why, (x.run.run s).1 = .error why → why.isTransport = true

/-- One action fails for reasons only that concern its server. -/
theorem failsAlone_act (server : Endpoint) (action : String) (x : StateM S (Outcome α)) :
    FailsAlone (act server action x) := by
  intro s why h
  exact Outcome.isTransport_of_toResult h

theorem failsAlone_throw {why : Failure} (h : why.isTransport = true) :
    FailsAlone (throw why : ExceptT Failure (StateM S) α) := by
  intro s why' hwhy
  cases hwhy
  exact h

/-- Computations one after the other fail alone if each of them does. -/
theorem FailsAlone.bind {x : ExceptT Failure (StateM S) α} {f : α → ExceptT Failure (StateM S) β}
    (hx : FailsAlone x) (hf : ∀ a, FailsAlone (f a)) : FailsAlone (x >>= f) := by
  intro s why h
  rw [ExceptT.run_bind, StateT.run_bind] at h
  have hxs := hx s
  generalize x.run.run s = ended at h hxs
  obtain ⟨result, s'⟩ := ended
  cases result with
  | ok a => exact hf a s' why h
  | error why' =>
    cases h
    exact hxs why rfl

variable (net : Sockets δ σ (StateM S))

theorem failsAlone_byDatagram (server : Endpoint) (message : List UInt8) :
    FailsAlone (byDatagram net server message) := by
  refine (failsAlone_act server _ _).bind fun socket => ?_
  refine (failsAlone_act server _ _).bind fun _ => ?_
  refine (failsAlone_act server _ _).bind fun _ => ?_
  exact failsAlone_act server _ _

/-- Sending a message over a stream fails alone, also if it is too long for one. -/
theorem failsAlone_sendFramed (server : Endpoint) (stream : σ) (message : List UInt8) :
    FailsAlone (sendFramed net server stream message) := by
  unfold sendFramed
  cases Frame.put message with
  | none =>
    -- a message too long for a stream fails like a socket would
    exact failsAlone_throw (SocketFault.isTransport_toFailure _ _ _)
  | some bytes => exact failsAlone_act server _ _

theorem failsAlone_receiveFramed (server : Endpoint) (stream : σ) :
    FailsAlone (receiveFramed net server stream) :=
  (failsAlone_act server _ _).bind fun _ => failsAlone_act server _ _

/-- An exchange over a stream fails alone. -/
theorem failsAlone_byStream (server : Endpoint) (message : List UInt8) :
    FailsAlone (byStream net server message) := by
  refine (failsAlone_act server _ _).bind fun stream => ?_
  refine (failsAlone_act server _ _).bind fun _ => ?_
  refine (failsAlone_sendFramed net server stream message).bind fun _ => ?_
  exact failsAlone_receiveFramed net server stream

/-! ## Replies -/

section

variable {m : Type → Type} [Monad m]

/-- What comes back of a server, before it is looked at. -/
def received (net : Sockets δ σ m) (c : Call) : m (Except Failure (List UInt8)) :=
  match c.protocol with
  | .udp => (byDatagram net c.server c.message).run
  | .tcp => (byStream net c.server c.message).run

/-- An exchange is what comes back, looked at. -/
theorem exchange_eq [LawfulMonad m] (net : Sockets δ σ m) (c : Call) :
    exchange net c = (fun reply => reply.bind (checkReply c.server)) <$> received net c := by
  unfold exchange received
  cases c.protocol <;> exact bind_pure_comp _ _

end

/-- Whatever the network does, what goes wrong concerns the server only. -/
theorem isTransport_of_received {net : Sockets δ σ (StateM S)} {c : Call} {s : S} {why : Failure}
    (h : ((received net c).run s).1 = .error why) : why.isTransport = true := by
  unfold received at h
  cases hprotocol : c.protocol with
  | udp =>
    rw [hprotocol] at h
    exact failsAlone_byDatagram net c.server c.message s why h
  | tcp =>
    rw [hprotocol] at h
    exact failsAlone_byStream net c.server c.message s why h

/-- The reply to a query among what came back of a server: a message with the query's number. -/
def reply? (query : List UInt8) : Except Failure (List UInt8) → Option (List UInt8)
  | .ok reply =>
    if (Message.decode reply).isSome && reply.take 2 == query.take 2 then some reply else none
  | .error _ => none

/-- What came back is a reply, or it fails for its server only. -/
theorem bind_checkReply_cases {query : List UInt8} {number : Nat}
    (hnumber : Recursion.number? query = some number) (server : Endpoint)
    {back : Except Failure (List UInt8)}
    (hback : ∀ why, back = .error why → why.isTransport = true) :
    (∃ reply, reply? query back = some reply ∧
        (back.bind (checkReply server)).bind (Recursion.check number) = .ok reply) ∨
      reply? query back = none ∧
        ∃ why, (back.bind (checkReply server)).bind (Recursion.check number) = .error why ∧
          why.isTransport = true := by
  cases back with
  | error why => exact .inr ⟨rfl, why, rfl, hback why rfl⟩
  | ok reply =>
    by_cases hdecode : (Message.decode reply).isSome = true
    · have hcheck : (Except.ok reply).bind (checkReply server) = .ok reply := if_pos hdecode
      rw [hcheck]
      have hlength := Message.headerSize_le_of_decode hdecode
      have hsame : Recursion.number? reply = some number ↔
          Recursion.headerSize ≤ reply.length ∧ reply.take 2 = query.take 2 :=
        Recursion.number?_eq_iff hnumber
      rcases Recursion.check_eq number reply with ⟨hok, hreply⟩ | ⟨why, herror, hwhy, hreply⟩
      · refine .inl ⟨reply, ?_, hok⟩
        simp [reply?, hdecode, (hsame.mp hreply).2]
      · refine .inr ⟨?_, why, herror, hwhy⟩
        have hdiffers : reply.take 2 ≠ query.take 2 := fun htake =>
          hreply (hsame.mpr ⟨hlength, htake⟩)
        simp [reply?, hdiffers]
    · have hcheck : (Except.ok reply).bind (checkReply server) = .error _ := if_neg hdecode
      rw [hcheck]
      refine .inr ⟨?_, _, rfl, rfl⟩
      simp [reply?, hdecode]

end Transport

end SplitHorizon
