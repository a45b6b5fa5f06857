import SplitHorizon.Files.Loading
import SplitHorizon.Settings.Override
import SplitHorizon.Settings.Reader
/-!
# Loading settings

The configuration text is the file that the command line names, or else the first one that there is
of two standard places. Without a file the standard settings hold. What the command line says is
taken over last, and then the settings are checked.
-/

namespace SplitHorizon.Settings

/-- The places where a configuration text is looked for. -/
def places : List String := ["answer-dns.toml", "/etc/answer-dns/config.toml"]

section

variable {m : Type → Type} [Monad m]

/-- The first of some paths under which there is something. -/
def firstHeld (disk : Disk m) : List String → m (Option String)
  | [] => pure none
  | path :: paths => do
    if ← disk.holds path then pure (some path) else firstHeld disk paths

/-- The settings of a file. -/
def ofFile (disk : Disk m) (path : String) : m (Except ConfigFault Settings) := do
  let text ← disk.load path
  pure (text.bind ofText)

/-- The settings of the configuration text, before the command line. -/
def written (disk : Disk m) (path : Option String) : m (Except ConfigFault Settings) := do
  let place ←
    match path with
    | some path => pure (some path)
    | none => firstHeld disk places
  match place with
  | some path => ofFile disk path
  | none => pure (.ok standard)

/-- The checked settings. -/
def load (disk : Disk m) (path : Option String) (o : Overrides) :
    m (Except ConfigFault Settings) := do
  let s ← written disk path
  pure (s.bind fun s =>
    let s := o.apply s
    (s.check.mapError .setting).map fun _ => s)

end

end SplitHorizon.Settings
