import SplitHorizon.Message.Codec
import SplitHorizon.Name.Presentation
import SplitHorizon.Server.Answer
import SplitHorizon.Server.Query
import SplitHorizon.Server.Response
/-!
# Handling a request

A request with exactly one question is resolved; any other is refused. Whatever goes wrong on the
way, a query that can not be written, a record set that can not be sent, no server that replies, a
reply that is no message, ends in the refusal, so every request gets a message back.
-/

namespace SplitHorizon

/-- A message that came in, and the bytes of its questions. -/
structure Request where
  client : Address
  protocol : Protocol
  message : Message
  questions : List UInt8

/-- The calls that a request led to, and the message that it gets back. -/
structure Handled where
  calls : List Call
  response : Message

namespace Request

/-- The request that bytes of a client are. -/
def ofBytes (client : Address) (protocol : Protocol) (bytes : List UInt8) : Option Request := do
  let message ← Message.decode bytes
  let questions ← Message.questionBytes bytes
  some ⟨client, protocol, message, questions⟩

/-- The query that a question makes. The name is looked up as its text in small letters. -/
def query (r : Request) (q : Question) : Query :=
  ⟨r.client, q.name.question, RecordKind.ofCode? q.typeCode, r.protocol⟩

/-- The message for a resolved question. -/
def respond (ttl : UInt32) (r : Request) (q : Question) : Except Failure Resolution → Message
  | .ok (.found answer) =>
    match RecordValue.toRecords q.name ttl answer.values with
    | .ok records => r.message.answered records
    | .error _ => r.message.refused
  | .ok (.relayed reply) =>
    match Message.decode reply.message with
    | some m => r.message.relayed m
    | none => r.message.refused
  | .error _ => r.message.refused

/-- Handles a request. -/
def handle {m : Type → Type} [Monad m] (out : Outside m) (store : Store) (ttl : UInt32)
    (r : Request) : m Handled :=
  match r.message.questions with
  | [q] =>
    match r.message.forwarded.encode with
    | none => pure ⟨[], r.message.refused⟩
    | some wire => do
      let walked ← (r.query q).resolve out store wire
      pure ⟨walked.calls, r.respond ttl q walked.result⟩
  | _ => pure ⟨[], r.message.refused⟩

/-- The bytes of the message that a request gets back. The questions stand there as they came, byte
by byte, so a pointer among them leads to a place of the new message. -/
def reply (r : Request) (limit : Nat) (response : Message) : Option (List UInt8) :=
  response.write limit (.bytes r.questions)

end Request

end SplitHorizon
