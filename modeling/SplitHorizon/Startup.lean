import SplitHorizon.Files.Access
import SplitHorizon.Log.Filter
import SplitHorizon.Settings.Basic
/-!
# Starting

What the process does with its settings before it listens: it checks what is to be logged, opens the
log file, and writes its number to a file. A failure of any of these ends it.
-/

namespace SplitHorizon

/-- Why a process does not start. -/
inductive StartFault
  | logLevel (text : String)
  /-- A part of the log level would begin or end inside a character. -/
  | logLevelCut (text : String)
  | logFile (path : String)
  | pidFile (path : String)
  deriving DecidableEq, Repr

def StartFault.message : StartFault → String
  | logLevel text => "Invalid log level '" ++ text ++ "'"
  | logLevelCut text => "Log level '" ++ text ++ "' can not be cut inside a character"
  | logFile path => "Failed to open log file " ++ path
  | pidFile path => "Failed to write pid file " ++ path

namespace Startup

section

variable {m : Type → Type} [Monad m]

/-- Checks what is to be logged, and opens the file it goes to by adding nothing to it. -/
def openLog (disk : Disk m) (log : LogSettings) : m (Except StartFault Unit) :=
  match Log.check log.level with
  | .error .malformed => pure (.error (.logLevel log.level))
  | .error .cutCharacter => pure (.error (.logLevelCut log.level))
  | .ok () =>
    match log.file with
    | none => pure (.ok ())
    | some path => do
      let opened ← disk.append path []
      pure (opened.mapError fun _ => .logFile path)

/-- What a file with the number of a process holds. -/
def pidText (pid : Nat) : String := Decimal.render pid ++ "\n"

/-- Writes the number of the process to a file. -/
def writePid (disk : Disk m) (pid : Nat) (path : String) : m (Except StartFault Unit) := do
  let written ← disk.write path (Text.utf8 (pidText pid).toList)
  pure (written.mapError fun _ => .pidFile path)

end

end Startup

end SplitHorizon
