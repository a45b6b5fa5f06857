import SplitHorizon.Toml.Quoted
import SplitHorizon.Toml.Scalar
/-!
# Reading TOML

A text is a sequence of lines: keys with values, headers of tables, comments. Values between
brackets and braces may go over several lines, with a comma behind the last item and comments;
between braces, lines may also end around an equals sign. Values may be nested up to `maxDepth`
levels. The text may start with a byte order mark.
-/

namespace SplitHorizon.Toml

def maxDepth : Nat := 80

/-! ## Blanks and comments -/

def skipBlanks (cs : List Char) : List Char := cs.dropWhile fun c => c == ' ' || c == '\t'

/-- Skips a comment up to the end of its line, if there is one. -/
def skipComment : List Char → Option (List Char)
  | '#' :: cs =>
    let rest := cs.dropWhile isTextChar
    if rest.isEmpty || (lineEnd? rest).isSome then some rest else none
  | cs => some cs

/-- Skips blanks, comments and line ends. -/
def skipLines : (fuel : Nat) → List Char → Option (List Char)
  | 0, _ => none
  | fuel + 1, cs => do
    let rest ← skipComment (skipBlanks cs)
    match lineEnd? rest with
    | some rest => skipLines fuel rest
    | none => some rest

def skipAll (cs : List Char) : Option (List Char) := skipLines (cs.length + 1) cs

/-! ## Keys -/

/-- Whether a character may stand in a key without marks. -/
def isKeyChar (c : Char) : Bool := c.isAlphanum || c == '_' || c == '-'

/-- Reads one part of a key. -/
def readPart (cs : List Char) : Option (String × List Char) :=
  match readLine cs with
  | some p => some p
  | none =>
    let (front, rest) := cs.span isKeyChar
    if front.isEmpty then none else some (String.ofList front, rest)

/-- Reads a key: parts with dots between them, and blanks around those. -/
def readKey : (fuel : Nat) → List Char → Option (List String × List Char)
  | 0, _ => none
  | fuel + 1, cs => do
    let (part, rest) ← readPart (skipBlanks cs)
    match skipBlanks rest with
    | '.' :: rest => (readKey fuel rest).map fun p => (part :: p.1, p.2)
    | rest => some ([part], rest)

/-- Reads a key with the blanks around it. -/
def key (cs : List Char) : Option (List String × List Char) := readKey (cs.length + 1) cs

/-! ## Values -/

/-- Reads a value that opens no level. -/
def readPlain (cs : List Char) : Option (Toml × List Char) :=
  match cs with
  | '"' :: _ | '\'' :: _ => (readString cs).map fun p => (.string p.1, p.2)
  | _ =>
    let (front, rest) := spanScalar cs
    (readScalar front).map fun v => (v, rest)

/-- Reads items between commas up to a closing character. -/
def readItems {α : Type} (item : List Char → Option (α × List Char)) (close : Char) :
    (fuel : Nat) → List Char → Option (List α × List Char)
  | 0, _ => none
  | fuel + 1, cs => do
    match ← skipAll cs with
    | [] => none
    | c :: rest =>
      if c == close then some ([], rest)
      else
        let (a, rest) ← item (c :: rest)
        match ← skipAll rest with
        | [] => none
        | d :: rest =>
          if d == close then some ([a], rest)
          else if d == ',' then (readItems item close fuel rest).map fun p => (a :: p.1, p.2)
          else none

/-- Reads a key, an equals sign and a value, with what `skip` skips around the sign. -/
def readEntry (skip : List Char → Option (List Char))
    (value : List Char → Option (Toml × List Char)) (cs : List Char) :
    Option ((List String × Toml) × List Char) := do
  let (path, rest) ← key cs
  match ← skip rest with
  | '=' :: rest =>
    let rest ← skip rest
    let (v, rest) ← value rest
    some ((path, v), rest)
  | _ => none

/-- Adds a value under the path of its key. -/
def addEntry (es : Entries) (e : List String × Toml) : Option Entries :=
  match e.1.getLast? with
  | some last => Entries.addDotted last e.2 e.1.dropLast es
  | none => none

/-- Reads a value off a text that starts with it; `depth` more levels may be opened. -/
def readValue : (depth : Nat) → List Char → Option (Toml × List Char)
  | 0, cs =>
    match cs with
    | '[' :: _ | '{' :: _ => none
    | _ => readPlain cs
  | depth + 1, cs =>
    match cs with
    | '[' :: rest =>
      (readItems (readValue depth) ']' (rest.length + 1) rest).map fun p => (.array p.1, p.2)
    | '{' :: rest => do
      let entry := readEntry skipAll (readValue depth)
      let (entries, rest) ← readItems entry '}' (rest.length + 1) rest
      let es ← entries.foldlM addEntry []
      some (.table .braces es, rest)
    | _ => readPlain cs

/-! ## Lines -/

/-- The text read so far: the entries of the top table, and the path of the open header. -/
structure Parsed where
  entries : Entries
  header : List String

/-- Opens a header. -/
def Parsed.openHeader (d : Parsed) (change : String → Entries → Option Entries)
    (path : List String) : Option Parsed := do
  let last ← path.getLast?
  let entries ← d.entries.descend (change last) path.dropLast
  some ⟨entries, path⟩

/-- Adds a value to the open table. -/
def Parsed.add (d : Parsed) (e : List String × Toml) : Option Parsed := do
  let entries ← d.entries.descend (addEntry · e) d.header
  some { d with entries }

/-- Reads what a line says, up to the blanks and the comment at its end. -/
def Parsed.readStatement (d : Parsed) (cs : List Char) : Option (Parsed × List Char) :=
  match cs with
  | [] => some (d, [])
  | '#' :: _ | '\n' :: _ | '\r' :: _ => some (d, cs)
  | '[' :: '[' :: rest => do
    let (path, rest) ← key rest
    match rest with
    | ']' :: ']' :: rest => (d.openHeader Entries.openNext path).map fun d => (d, rest)
    | _ => none
  | '[' :: rest => do
    let (path, rest) ← key rest
    match rest with
    | ']' :: rest => (d.openHeader Entries.openTable path).map fun d => (d, rest)
    | _ => none
  | _ => do
    let (e, rest) ← readEntry (fun cs => some (skipBlanks cs)) (readValue maxDepth) cs
    (d.add e).map fun d => (d, rest)

/-- Reads lines up to the end of the text. -/
def Parsed.readLines : (fuel : Nat) → Parsed → List Char → Option Parsed
  | 0, _, _ => none
  | fuel + 1, d, cs => do
    let (d, rest) ← d.readStatement (skipBlanks cs)
    let rest ← skipComment (skipBlanks rest)
    if rest.isEmpty then some d
    else do
      let rest ← lineEnd? rest
      readLines fuel d rest

/-- Reads a whole text as the entries of its top table. -/
def read (text : String) : Option Entries :=
  let cs :=
    match text.toList with
    | '\uFEFF' :: cs => cs
    | cs => cs
  (Parsed.readLines (cs.length + 1) ⟨[], []⟩ cs).map (·.entries)

end SplitHorizon.Toml
