import SplitHorizon.Log.Filter
/-!
# Levels

How much a line of the log matters, and which lines a filter lets through. The process logs for
itself as a whole, so only those directives count that are a level and nothing else; the last of
them holds. Without directives only errors are logged.
-/

namespace SplitHorizon.Log

inductive Level
  | error
  | warn
  | info
  deriving DecidableEq, Repr

def Level.text : Level → String
  | error => "ERROR"
  | warn => "WARN"
  | info => "INFO"

/-- The rank of a level: a line is let through up to the rank of the filter. -/
def Level.rank : Level → Nat
  | error => 1
  | warn => 2
  | info => 3

/-- The rank that a word or a number stands for. -/
def rank? (cs : List Char) : Option Nat :=
  match Decimal.read 5 cs with
  | .ok n => some n
  | .error _ => levels.findIdx? fun l => Text.sameLetters l.toList cs

/-- The highest rank that a filter lets through. -/
def ceiling (text : String) : Nat :=
  match directives text with
  | [] => Level.error.rank
  | ds => ((ds.filterMap fun d => rank? (Text.trim d)).getLast?).getD 0

/-- Whether a filter lets lines of a level through. -/
def allows (text : String) (level : Level) : Bool := level.rank ≤ ceiling text

end SplitHorizon.Log
