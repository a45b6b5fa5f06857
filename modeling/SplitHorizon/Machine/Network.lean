import Std.Async.DNS
import Std.Async.TCP
import Std.Async.Timer
import Std.Async.UDP
import SplitHorizon.Machine.Fault
import SplitHorizon.Transport.Exchange
/-!
# The network of the machine

The sockets of the machine that the process runs on, and its way to look up host names. An action
that would take longer than the time allowed for it is left to itself, and its outcome is that it is
overdue. The scope of an endpoint is not passed on.
-/

namespace SplitHorizon.Machine

open Std.Async
open Std.Net (IPAddr IPv4Addr IPv6Addr SocketAddress)

/-! ## Addresses -/

/-- An address of 32 bits as the machine takes it. -/
def ofV4 (bits : BitVec 32) : IPv4Addr :=
  ⟨Vector.ofFn fun i => UInt8.ofNat (bits.toNat >>> (8 * (3 - i.val)))⟩

def ofV6 (bits : BitVec 128) : IPv6Addr :=
  ⟨Vector.ofFn fun i => UInt16.ofNat (bits.toNat >>> (16 * (7 - i.val)))⟩

def ofEndpoint : Endpoint → SocketAddress
  | .v4 bits port => .v4 ⟨ofV4 bits, port⟩
  | .v6 bits _ port => .v6 ⟨ofV6 bits, port⟩

def toAddress : IPAddr → Address
  | .v4 a => .v4 (Address.ofOctets (a.octets.toList.map UInt8.toNat))
  | .v6 a => .v6 (Address.ofGroups (a.segments.toList.map UInt16.toNat))

def addressOf : SocketAddress → Address
  | .v4 e => toAddress (.v4 e.addr)
  | .v6 e => toAddress (.v6 e.addr)

/-- Any local address of a server's family, with any port. -/
def anyAddress : Endpoint → SocketAddress
  | .v4 _ _ => .v4 ⟨ofV4 0, 0⟩
  | .v6 _ _ _ => .v6 ⟨ofV6 0, 0⟩

/-! ## Outcomes -/

/-- The fault of a socket that a failure of the machine is. -/
def Fault.toSocketFault (f : Fault) : SocketFault :=
  let kind :=
    match f.number with
    | 103 => .aborted
    | 104 => .reset
    | 110 => .timedOut
    | 111 => .refused
    | _ => .other
  ⟨kind, f.text⟩

instance {α : Type} : Inhabited (Outcome α) := ⟨.overdue⟩

/-- An action with its failure as an outcome. -/
def outcome {α : Type} (x : Async (Outcome α)) : Async (Outcome α) := do
  try x catch e => pure (.failed (Fault.ofError e).toSocketFault)

/-- Does an action that may take some milliseconds. -/
def within {α : Type} (limit : Nat) (x : Async α) : Async (Outcome α) :=
  outcome (Async.race (Outcome.done <$> x) do
    sleep (.ofNat limit)
    pure .overdue)

/-- Waits some milliseconds for something to arrive. If nothing does, the wait is called off. -/
def arrival {α : Type} (limit : Nat) (arrives : Async α) (callOff : Async Unit) :
    Async (Outcome α) := do
  match ← within limit arrives with
  | .overdue =>
    callOff
    pure .overdue
  | arrived => pure arrived

/-! ## Sockets -/

/-- Takes exactly the next `count` bytes of a stream, if they come before a point in time. -/
partial def readUntil (deadline : Nat) (stream : TCP.Socket.Client) (count : Nat)
    (taken : List UInt8) : Async (Outcome (List UInt8)) := do
  if count = 0 then return .done taken
  let now ← IO.monoMsNow
  let size := count.toUInt64
  match ← arrival (deadline - now) (stream.recv? size) (stream.recvSelector size).unregisterFn with
  | .overdue => return .overdue
  | .failed why => return .failed why
  | .done none => return .failed ⟨.other, "early eof"⟩
  | .done (some bytes) =>
    readUntil deadline stream (count - bytes.size) (taken ++ bytes.toList)

/-- Takes exactly the next `count` bytes of a stream, for which it waits some milliseconds. -/
def readExactly (limit : Nat) (stream : TCP.Socket.Client) (count : Nat) :
    Async (Outcome (List UInt8)) := do
  let now ← IO.monoMsNow
  readUntil (now + limit) stream count []

/-- The sockets of the machine, with the milliseconds that each action on them may take. -/
def sockets (limit : Nat) : Sockets UDP.Socket TCP.Socket.Client Async where
  bind server := outcome do
    let socket ← UDP.Socket.mk
    socket.bind (anyAddress server)
    pure (.done socket)
  connect socket server := outcome do
    socket.connect (ofEndpoint server)
    pure (.done ())
  send socket bytes := within limit (socket.send bytes.toByteArray)
  receive socket size := do
    let size := size.toUInt64
    match ← arrival limit (socket.recv size) (socket.recvSelector size).unregisterFn with
    | .done (bytes, _) => pure (.done bytes.toList)
    | .failed why => pure (.failed why)
    | .overdue => pure .overdue
  start server := within limit do
    let stream ← TCP.Socket.Client.mk
    stream.connect (ofEndpoint server)
    pure stream
  hurry stream := outcome do
    stream.noDelay
    pure (.done ())
  write stream bytes := within limit (stream.send bytes.toByteArray)
  read stream count := readExactly limit stream count

/-- Looks a host name up, which may take some milliseconds. -/
def lookUp (limit : Nat) (host : String) (port : UInt16) : Async Lookup := do
  match ← within limit (DNS.getAddrInfo host (Decimal.render port.toNat)) with
  | .done found => pure (.found (found.toList.map fun a => .ofAddress (toAddress a) port))
  | .failed why =>
    pure (.failed (.invalidTarget ("Failed to resolve " ++ host ++ ": " ++ why.reason)))
  | .overdue => pure .overdue

/-- What is outside the process, with the milliseconds allowed for one server. -/
def outside (limit : Nat) : Outside Async := Transport.outside (sockets limit) (lookUp limit)

end SplitHorizon.Machine
