import SplitHorizon.Address.Endpoint
import SplitHorizon.Answers.Fault
/-!
# Settings

What the process is told about itself: where it listens, where its answers are, how long it waits
for one server, and what it logs. Settings can be read that make no sense together or alone;
`Settings.check` names the first thing that is wrong with them.
-/

namespace SplitHorizon

/-- Where the process listens, and how long a connection may be idle. -/
structure ListenSettings where
  port : UInt16
  address : String
  idleSeconds : UInt64
  deriving DecidableEq, Repr

/-- Where the answers document is, and the time to live of local answers. -/
structure AnswerSettings where
  path : String
  ttl : UInt32
  deriving DecidableEq, Repr

/-- The time that is allowed for one server. -/
structure TargetSettings where
  milliseconds : UInt64
  deriving DecidableEq, Repr

/-- What is logged, and the file it goes to, if it goes to one. -/
structure LogSettings where
  level : String
  file : Option String
  deriving DecidableEq, Repr

structure Settings where
  listen : ListenSettings
  answers : AnswerSettings
  targets : TargetSettings
  log : LogSettings
  pidFile : Option String
  deriving DecidableEq, Repr

namespace Settings

/-- The settings of a process that is told nothing. -/
def standard : Settings where
  listen := ⟨53, "0.0.0.0", 10⟩
  answers := ⟨"./answers.json", 600⟩
  targets := ⟨2000⟩
  log := ⟨"info", none⟩
  pidFile := none

/-- The endpoint that the process listens on. -/
def endpoint (s : Settings) : Except SettingFault Endpoint :=
  match Address.ofText? s.listen.address with
  | some a => .ok (.ofAddress a s.listen.port)
  | none => .error (.bindAddress s.listen.address)

/-- The time allowed for one server in whole seconds. -/
def targetSeconds (s : Settings) : Nat := s.targets.milliseconds.toNat / 1000

/-- The largest time to live that a record may have. -/
def maxTtl : UInt32 := 2147483647

/-- The first thing that is wrong with settings. -/
def check (s : Settings) : Except SettingFault Unit := do
  if s.listen.port = 0 then throw .zeroPort
  let _ ← s.endpoint
  if (Text.trim s.answers.path.toList).isEmpty then throw .emptyPath
  if maxTtl < s.answers.ttl then throw (.longTtl s.answers.ttl)
  if s.listen.idleSeconds = 0 then throw .zeroIdleTime
  if s.targets.milliseconds = 0 then throw .zeroTargetTime

end Settings

end SplitHorizon
