import SplitHorizon.Message.Basic
import SplitHorizon.Recursion.Outside
/-!
# Messages made from a request

The messages that the server makes are all made from the client's request: the query that is passed
on, the local answer, the reply of a server under the client's number and question, and the refusal.
A message of the server's own has an extension record if the request has one, and then it repeats
the size and the version of the client's and nothing else.
-/

namespace SplitHorizon

namespace Header

/-- The response code of a server that can not answer. -/
def serverFailure : BitVec 12 := 2

/-- The header of a local answer to a request. -/
def answering (request : Header) : Header where
  id := request.id
  response := true
  opcode := request.opcode
  authoritative := true
  truncated := false
  recursionDesired := request.recursionDesired
  recursionAvailable := true
  authenticData := false
  checkingDisabled := request.checkingDisabled
  code := 0

/-- The header of a refusal. The flags that the request came with stay. -/
def refusing (request : Header) : Header :=
  { request with response := true, recursionAvailable := true, code := serverFailure }

end Header

/-- The extension record of the server's own messages to a client. -/
def Edns.own (client : Edns) : Edns where
  payload := max client.payload Message.minPayload
  version := client.version
  dnssecOk := false
  reserved := 0
  options := []

namespace Message

/-- The query that is passed on: the header, the questions and the extension record. -/
def forwarded (request : Message) : Message :=
  ⟨request.header, request.questions, [], [], [], request.edns⟩

def answered (request : Message) (records : List ResourceRecord) : Message :=
  ⟨request.header.answering, request.questions, records, [], [], request.edns.map Edns.own⟩

def refused (request : Message) : Message :=
  ⟨request.header.refusing, request.questions, [], [], [], request.edns.map Edns.own⟩

/-- A server's reply as the client is given it. -/
def relayed (request reply : Message) : Message :=
  { reply with
    header := { reply.header with id := request.header.id }
    questions := request.questions }

/-- The size of a datagram that a client takes if its message does not say so. -/
def plainDatagram : Nat := 4096

/-- The most bytes of a message that is sent to a client. -/
def replyLimit (response : Message) : Protocol → Nat
  | .udp => response.edns.elim plainDatagram (·.payload.toNat)
  | .tcp => maxSize

end Message

end SplitHorizon
