import SplitHorizon.Answers.Load
import SplitHorizon.Files.Loading
/-!
# Reloading

The store that answers come from is built anew whenever the document is loaded again. A document
that can not be read or that is faulty leaves the store that is in place.
-/

namespace SplitHorizon.Store

/-- The store of what has been loaded. -/
def ofLoaded (loaded : Loaded) : Except ConfigFault Store := loaded.bind build

/-- The store in place after an attempt to build another one. -/
def replacedBy (installed : Store) : Except ConfigFault Store → Store
  | .ok built => built
  | .error _ => installed

/-- The store in place after a load. -/
def reload (installed : Store) (loaded : Loaded) : Store := installed.replacedBy (ofLoaded loaded)

end SplitHorizon.Store
