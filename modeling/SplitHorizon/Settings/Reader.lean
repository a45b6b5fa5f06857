import SplitHorizon.Settings.Basic
import SplitHorizon.Toml.Reader
/-!
# Reading settings

Settings are read from a configuration text: a section for each group of them, in which whatever is
missing has its standard value and whatever is not known is passed over. A section may also be
written as an array of its values, in their order, and what follows them there is not looked at. A
point in time has no values of these names, so a section that is one is empty. Values have to be of
the right type and in range, and numbers under names that are not known have to be numbers all the
same.
-/

namespace SplitHorizon.Settings

/-- The entries of a section whose values have names, as they are looked at. -/
def namedEntries (names : List String) : Option Toml → Option Toml.Entries
  | none => some []
  | some (.table _ entries) => some entries
  | some (.array items) => some (names.zip items)
  | some (.tables items) => some (names.zip (items.map (.table .header)))
  | some (.moment _) => some []
  | some _ => none

/-- The entries of a section, if all numbers that are looked at are in range. -/
def sectionEntries (names : List String) (v : Option Toml) : Option Toml.Entries :=
  (namedEntries names v).filter Toml.entriesBounded

/-- The text under a name. -/
def textAt (es : Toml.Entries) (name standard : String) : Option String :=
  match es.lookUp? name with
  | none => some standard
  | some (.string s) => some s
  | some _ => none

/-- The text under a name that may be missing. -/
def textAt? (es : Toml.Entries) (name : String) : Option (Option String) :=
  match es.lookUp? name with
  | none => some none
  | some (.string s) => some (some s)
  | some _ => none

/-- The number of at most `limit` under a name. -/
def numberAt (es : Toml.Entries) (name : String) (limit standard : Nat) : Option Nat :=
  match es.lookUp? name with
  | none => some standard
  | some (.integer n) => if 0 ≤ n && n ≤ limit then some n.toNat else none
  | some _ => none

def readListen (v : Option Toml) : Option ListenSettings := do
  let es ← sectionEntries ["dns_port", "bind_address", "tcp_timeout_secs"] v
  let port ← numberAt es "dns_port" 65535 standard.listen.port.toNat
  let address ← textAt es "bind_address" standard.listen.address
  let idle ← numberAt es "tcp_timeout_secs" (UInt64.size - 1) standard.listen.idleSeconds.toNat
  some ⟨UInt16.ofNat port, address, UInt64.ofNat idle⟩

def readAnswers (v : Option Toml) : Option AnswerSettings := do
  let es ← sectionEntries ["path", "ttl"] v
  let path ← textAt es "path" standard.answers.path
  let ttl ← numberAt es "ttl" (UInt32.size - 1) standard.answers.ttl.toNat
  some ⟨path, UInt32.ofNat ttl⟩

def readTargets (v : Option Toml) : Option TargetSettings := do
  let es ← sectionEntries ["timeout_ms"] v
  let time ← numberAt es "timeout_ms" (UInt64.size - 1) standard.targets.milliseconds.toNat
  some ⟨UInt64.ofNat time⟩

def readLog (v : Option Toml) : Option LogSettings := do
  let es ← sectionEntries ["level", "file"] v
  let level ← textAt es "level" standard.log.level
  let file ← textAt? es "file"
  some ⟨level, file⟩

def sections : List String := ["server", "answers", "upstream", "logging"]

/-- The settings of the top table. -/
def ofEntries (es : Toml.Entries) : Option Settings := do
  guard (Toml.entriesBounded (es.filter fun e => !sections.contains e.1))
  let listen ← readListen (es.lookUp? "server")
  let answers ← readAnswers (es.lookUp? "answers")
  let targets ← readTargets (es.lookUp? "upstream")
  let log ← readLog (es.lookUp? "logging")
  let pidFile ← textAt? es "pid_file"
  some ⟨listen, answers, targets, log, pidFile⟩

def ofText (text : String) : Except ConfigFault Settings :=
  match (Toml.read text).bind ofEntries with
  | some s => .ok s
  | none => .error .malformed

end SplitHorizon.Settings
