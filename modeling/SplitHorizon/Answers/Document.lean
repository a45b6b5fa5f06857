import SplitHorizon.Json.Reader
import SplitHorizon.Json.Writer
/-!
# The answers document

The document as it is written: the entries of its top-level object, in order, a repeated key twice.
The order and the repetitions matter, because the store is built entry by entry and a key that is
declared twice is refused.
-/

namespace SplitHorizon

/-- The entries of the document, in the order of the text. -/
structure Document where
  entries : List (String × Json)

namespace Document

def read (text : String) : Option Document :=
  (Json.readEntries text.toList).map Document.mk

/-- The text of a document: its entries as the members of one object, in order. -/
def render (d : Document) : String :=
  String.ofList ('{' :: Json.renderMembers d.entries ++ ['}'])

end Document

end SplitHorizon
