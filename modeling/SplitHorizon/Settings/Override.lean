import SplitHorizon.Settings.Basic
/-!
# Overriding settings

What the command line says takes the place of what the configuration text says. The address to
listen on comes as one text, `host:port`, in which the host may be missing; a host of 128 bits has
brackets around it, and they are taken off.
-/

namespace SplitHorizon

/-- What the command line says of settings. -/
structure Overrides where
  port : Option UInt16
  address : Option String
  answersPath : Option String
  ttl : Option UInt32
  logFile : Option String
  logLevel : Option String
  pidFile : Option String
  debug : Bool
  deriving DecidableEq, Repr

namespace Overrides

def empty : Overrides :=
  ⟨none, none, none, none, none, none, none, false⟩

def debugLevel : String := "debug"

/-- Settings with what is said of them taken over. -/
def apply (o : Overrides) (s : Settings) : Settings where
  listen :=
    { s.listen with
      port := o.port.getD s.listen.port
      address := o.address.getD s.listen.address }
  answers :=
    { s.answers with
      path := o.answersPath.getD s.answers.path
      ttl := o.ttl.getD s.answers.ttl }
  targets := s.targets
  log :=
    { s.log with
      level := if o.debug then debugLevel else o.logLevel.getD s.log.level
      file := o.logFile.or s.log.file }
  pidFile := o.pidFile.or s.pidFile

end Overrides

/-- The address to listen on as the command line gives it. -/
structure ListenAddress where
  host : Option String
  port : UInt16
  deriving DecidableEq, Repr

namespace ListenAddress

/-- The text without the brackets around it. -/
def bare (host : List Char) : List Char :=
  ((host.dropWhile (· == '[')).reverse.dropWhile (· == ']')).reverse

/-- Reads `host:port`; the last colon divides the two. -/
def ofText (text : String) : Except SettingFault ListenAddress :=
  match Text.cutLast ':' text.toList with
  | none => .error (.listenNoPort text)
  | some (host, port) =>
    match Decimal.read16 port with
    | .error why => .error (.listenPort text why)
    | .ok port =>
      let host := bare host
      .ok ⟨if host.isEmpty then none else some (String.ofList host), port⟩

end ListenAddress

end SplitHorizon
