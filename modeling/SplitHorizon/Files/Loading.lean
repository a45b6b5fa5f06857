import SplitHorizon.Answers.Fault
import SplitHorizon.Files.Access
/-!
# Loading texts

The configuration text and the answers document are files. One that can not be read is a fault of
the configuration, which names the path.
-/

namespace SplitHorizon

/-- What loading a text comes to. -/
abbrev Loaded := Except ConfigFault String

namespace Disk

def load {m : Type → Type} [Monad m] (disk : Disk m) (path : String) : m Loaded := do
  let text ← disk.readText path
  pure (text.mapError fun why => .unreadable path why.message)

end Disk

end SplitHorizon
