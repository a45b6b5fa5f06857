import SplitHorizon.Address.Endpoint
import SplitHorizon.Text.Blank
/-!
# Targets

A server that queries are passed on to, as the answers document writes it: an endpoint, an address
(on the port of the service, 53), or a host name with or without a port.
-/

namespace SplitHorizon

/-- A server by its endpoint, or by a name that has to be looked up. -/
inductive Target
  | endpoint (e : Endpoint)
  | host (name : String) (port : UInt16)
  deriving DecidableEq, Repr

namespace Target

def servicePort : UInt16 := 53

/-- Why a text is no target. The text itself is kept for the wording. -/
inductive Fault
  | badBracket (text : String)
  | badPort (text : String) (why : Decimal.Fault)
  | noHost (text : String)
  | badHost (name text : String)
  deriving DecidableEq, Repr

def Fault.message : Fault → String
  | .badBracket text => "Invalid IPv6 address in '" ++ text ++ "': invalid IP address syntax"
  | .badPort text why => "Invalid port in '" ++ text ++ "': " ++ why.message
  | .noHost text => "Missing host in '" ++ text ++ "'"
  | .badHost name text => "Invalid host '" ++ name ++ "' in '" ++ text ++ "'"

/-! ## Reading -/

/-- The text between one pair of brackets around it. -/
def bracketed? : List Char → Option (List Char)
  | '[' :: cs => if cs.getLast? = some ']' then some cs.dropLast else none
  | _ => none

/-- Whether a character can not be part of a host name. -/
def isForeign (c : Char) : Bool :=
  Text.isBlank c || ['/', '[', ']', ':'].contains c

/-- Reads a host name. -/
def readHost (text name : List Char) (port : UInt16) : Except Fault Target :=
  if name.isEmpty then .error (.noHost (String.ofList text))
  else if name.any isForeign then .error (.badHost (String.ofList name) (String.ofList text))
  else .ok (.host (String.ofList name) port)

/-- Reads a target; blanks around it do not count. A faulty port is reported before a faulty
host. -/
def read (cs : List Char) : Except Fault Target :=
  let cs := Text.trim cs
  match Endpoint.read cs with
  | some e => .ok (endpoint e)
  | none =>
    match Address.read cs with
    | some a => .ok (endpoint (.ofAddress a servicePort))
    | none =>
      match bracketed? cs with
      | some inner =>
        match Address.read inner with
        | some a => .ok (endpoint (.ofAddress a servicePort))
        | none => .error (.badBracket (String.ofList cs))
      | none =>
        match Text.cutLast ':' cs with
        | none => readHost cs cs servicePort
        | some (name, port) =>
          match Decimal.read16 port with
          | .error why => .error (.badPort (String.ofList cs) why)
          | .ok port => readHost cs name port

def ofText (s : String) : Except Fault Target := read s.toList

/-! ## Writing -/

def toText : Target → String
  | endpoint e => e.toText
  | host name port => name ++ ":" ++ Decimal.render port.toNat

end Target

end SplitHorizon
