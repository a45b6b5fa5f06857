import SplitHorizon.Machine.Network
import SplitHorizon.Server.Handler
/-!
# Listening

Clients send their requests as datagrams or over connections, to one endpoint. Every request is
handled by itself, with the store that is in place when it arrives, so that a slow server holds up
nobody else. Over one connection the requests are handled one after the other, until the client is
idle for too long or closes it.

Bytes that are no message get no answer, and neither does a request whose response can not be
written.
-/

namespace SplitHorizon.Machine

open Std.Async
open Std.Net (SocketAddress)

/-- What requests are handled with. -/
structure Service where
  store : IO.Ref Store
  ttl : UInt32
  outside : Outside Async

namespace Service

/-- The bytes of the answer to bytes of a client. -/
def answer (s : Service) (protocol : Protocol) (client : Address) (bytes : List UInt8) :
    Async (Option (List UInt8)) := do
  match Request.ofBytes client protocol bytes with
  | none => pure none
  | some request =>
    let store ← s.store.get
    let handled ← request.handle s.outside store s.ttl
    pure (request.reply (handled.response.replyLimit protocol) handled.response)

def answerDatagram (s : Service) (socket : UDP.Socket) (sender : SocketAddress)
    (bytes : List UInt8) : Async Unit := do
  match ← s.answer .udp (addressOf sender) bytes with
  | none => pure ()
  | some reply => socket.send reply.toByteArray sender

def serveDatagrams (s : Service) (socket : UDP.Socket) : Async Unit := do
  while true do
    match ← socket.recv Message.maxSize.toUInt64 with
    | (_, none) => pure ()
    | (bytes, some sender) => background (s.answerDatagram socket sender bytes.toList)

/-- Answers the next request of a connection. Nothing comes of it if the connection is over. -/
def answerNext (s : Service) (idle : Nat) (client : Address) (stream : TCP.Socket.Client) :
    Async Bool := do
  let .done length ← readExactly idle stream Frame.lengthSize | return false
  let .done bytes ← readExactly idle stream (Places.ofBytes length) | return false
  match (← s.answer .tcp client bytes).bind Frame.put with
  | none => pure ()
  | some framed => stream.send framed.toByteArray
  return true

/-- Answers the requests of a connection that may be idle for some milliseconds. -/
def serveConnection (s : Service) (idle : Nat) (stream : TCP.Socket.Client) : Async Unit := do
  let client := addressOf (← stream.getPeerName)
  let mut isOpen := true
  while isOpen do
    isOpen ← s.answerNext idle client stream

/-- Answers the connections that clients make. -/
def serveConnections (s : Service) (idle : Nat) (server : TCP.Socket.Server) : Async Unit := do
  while true do
    let stream ← server.accept
    background (s.serveConnection idle stream)

end Service

/-- The sockets of an endpoint, which is the same one for datagrams and connections. -/
def listen (e : Endpoint) : IO (UDP.Socket × TCP.Socket.Server) := do
  let socket ← UDP.Socket.mk
  socket.bind (ofEndpoint e)
  let server ← TCP.Socket.Server.mk
  server.bind (ofEndpoint e)
  server.listen 1024
  pure (socket, server)

end SplitHorizon.Machine
