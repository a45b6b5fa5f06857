import SplitHorizon.Log.Pattern.Basic
import SplitHorizon.Number.Places
import SplitHorizon.Text.Blank
import SplitHorizon.Text.Letter
/-!
# Reading patterns

A pattern comes out of a filter, where it ends at the first comma, equals sign or closing brace. So
nothing that is written with a pair of braces can be part of it: an opening one that is neither
escaped nor between brackets makes it malformed.

A flag makes the pattern pass over blanks, and over comments from a `#` to the end of the line, up
to the end of the group that the flag stands in.
-/

namespace SplitHorizon.Log.Pattern

/-! ## Blanks -/

/-- The text without the blanks and the comments it starts with. -/
def dropBlanks : (inComment : Bool) → List Char → List Char
  | _, [] => []
  | true, c :: cs => dropBlanks (c != '\n') cs
  | false, c :: cs =>
    if Text.isBlank c then dropBlanks false cs
    else if c == '#' then dropBlanks true cs
    else c :: cs

def skip (ignore : Bool) (cs : List Char) : List Char :=
  if ignore then dropBlanks false cs else cs

/-- The text behind blanks, if there is any. -/
def skipTo (ignore : Bool) (cs : List Char) : Option (List Char) :=
  match skip ignore cs with
  | [] => none
  | rest => some rest

/-! ## Escapes -/

/-- What one escape or one character without a meaning of its own stands for. -/
inductive Atom
  | literal (l : Literal)
  | dot
  | place (word : Bool)
  | shorthand (negated : Bool)
  | property
  deriving DecidableEq, Repr

def plain (c : Char) : Literal := ⟨c, false⟩

/-- Reads hexadecimal digits, `n` of them, onto the value read so far. Blanks may stand between
them. -/
def readHex (ignore : Bool) : (n value : Nat) → List Char → Option (Nat × List Char)
  | 0, value, cs => some (value, cs)
  | n + 1, value, cs => do
    match ← skipTo ignore cs with
    | [] => none
    | c :: rest =>
      let d ← Places.hexDigit? c
      readHex ignore n (value * 16 + d) rest

/-- Reads the character with a code of `n` hexadecimal digits. -/
def readCode (ignore : Bool) (n : Nat) (cs : List Char) : Option (Atom × List Char) := do
  let (code, rest) ← readHex ignore n 0 cs
  if code.isValidChar then some (.literal ⟨Char.ofNat code, n == 2⟩, rest) else none

def control? : Char → Option Char
  | 'a' => some '\x07'
  | 'f' => some '\x0c'
  | 't' => some '\t'
  | 'n' => some '\n'
  | 'r' => some '\r'
  | 'v' => some '\x0b'
  | _ => none

/-- Whether a character stands for itself behind a backslash. -/
def isEscapable (c : Char) : Bool := c.toNat < 128 && !c.isAlphanum && c != '<' && c != '>'

/-- Reads an escape behind its backslash. There are no references to groups. -/
def readEscape (ignore : Bool) : List Char → Option (Atom × List Char)
  | [] => none
  | 'x' :: rest => readCode ignore 2 rest
  | 'u' :: rest => readCode ignore 4 rest
  | 'U' :: rest => readCode ignore 8 rest
  | c :: rest =>
    if ['d', 's', 'w'].contains c then some (.shorthand false, rest)
    else if ['D', 'S', 'W'].contains c then some (.shorthand true, rest)
    else if ['p', 'P'].contains c then (skipTo ignore rest).map fun r => (.property, r.drop 1)
    else if ['b', 'B', '<', '>'].contains c then some (.place true, rest)
    else if ['A', 'z'].contains c then some (.place false, rest)
    else
      match control? c with
      | some l => some (.literal (plain l), rest)
      | none => if isEscapable c then some (.literal (plain c), rest) else none

/-- Reads what is neither a group, a class nor an operator. -/
def readAtom (ignore : Bool) : List Char → Option (Atom × List Char)
  | [] => none
  | '\\' :: rest => readEscape ignore rest
  | '.' :: rest => some (.dot, rest)
  | '^' :: rest | '$' :: rest => some (.place false, rest)
  | c :: rest => some (.literal (plain c), rest)

/-! ## Classes -/

/-- The names of classes of ASCII characters. -/
def classNames : List String :=
  ["alnum", "alpha", "ascii", "blank", "cntrl", "digit", "graph", "lower", "print", "punct",
   "space", "upper", "word", "xdigit"]

/-- Reads a class with a name behind its bracket, and whether it is negated. -/
def readNamed : List Char → Option (Bool × List Char)
  | ':' :: cs =>
    let negated := cs.head? == some '^'
    let (name, rest) := (if negated then cs.drop 1 else cs).span (· != ':')
    match rest with
    | ':' :: ']' :: rest =>
      if classNames.contains (String.ofList name) then some (negated, rest) else none
    | _ => none
  | _ => none

/-- Reads hyphens that stand for themselves at the front of a class. -/
def readHyphens (ignore : Bool) : (fuel : Nat) → List Char → Option (List ClassItem × List Char)
  | 0, _ => none
  | fuel + 1, '-' :: rest => do
    let rest ← skipTo ignore rest
    let (items, rest) ← readHyphens ignore fuel rest
    some (.literal (plain '-') :: items, rest)
  | _ + 1, cs => some ([], cs)

/-- Reads the front of a class behind its bracket: whether it is negated, and the hyphens, or the
one closing bracket, that stand for themselves there. -/
def openClass (ignore : Bool) (cs : List Char) : Option (Bool × List ClassItem × List Char) := do
  let cs ← skipTo ignore cs
  let negated := cs.head? == some '^'
  let cs ← if negated then skipTo ignore (cs.drop 1) else some cs
  match ← readHyphens ignore (cs.length + 1) cs with
  | ([], ']' :: rest) =>
    let rest ← skipTo ignore rest
    some (negated, [.literal (plain ']')], rest)
  | (items, rest) => some (negated, items, rest)

/-- The next character that counts, as far as it is looked for: blanks and the sign of one comment
are passed over, the comment itself is not. -/
def peek (ignore : Bool) (cs : List Char) : Option Char :=
  if !ignore then cs.head?
  else
    let rest := cs.dropWhile Text.isBlank
    let rest := if rest.head? == some '#' then (rest.drop 1).dropWhile Text.isBlank else rest
    rest.head?.or cs.head?

/-- Reads a character of a class or an escape. -/
def readMember (ignore : Bool) : List Char → Option (Atom × List Char)
  | [] => none
  | '\\' :: rest => readEscape ignore rest
  | c :: rest => some (.literal (plain c), rest)

/-- The item that an atom is, if it can stand between brackets. -/
def Atom.toItem : Atom → Option ClassItem
  | literal l => some (.literal l)
  | shorthand negated => some (.shorthand negated)
  | property => some .property
  | dot => none
  | place _ => none

/-- The range between two atoms, if they are characters in ascending order. -/
def Atom.upTo : Atom → Atom → Option ClassItem
  | literal a, literal b => if a.char.toNat ≤ b.char.toNat then some (.range a b) else none
  | _, _ => none

/-- Reads a range or a single item. -/
def readItem (ignore : Bool) (cs : List Char) : Option (ClassItem × List Char) := do
  let (first, rest) ← readMember ignore cs
  match ← skipTo ignore rest with
  | '-' :: more =>
    if peek ignore more == some ']' || peek ignore more == some '-' then
      (first.toItem).map fun i => (i, '-' :: more)
    else
      let more ← skipTo ignore more
      let (last, more) ← readMember ignore more
      (first.upTo last).map fun i => (i, more)
  | rest => (first.toItem).map fun i => (i, rest)

/-- The set of items that were read in reverse order, behind an operator if there is one. -/
def ClassSet.close (left : Option ClassSet) (items : List ClassItem) : ClassSet :=
  match left with
  | none => .union items.reverse
  | some left => .combined left (.union items.reverse)

/-- Reads a set up to its closing bracket. `left` is what stands before the last operator, and the
items behind it are given in reverse order. -/
def readSet (ignore : Bool) :
    (fuel : Nat) → (left : Option ClassSet) → List ClassItem → List Char →
      Option (ClassSet × List Char)
  | 0, _, _, _ => none
  | fuel + 1, left, items, cs => do
    match ← skipTo ignore cs with
    | ']' :: rest => some (.close left items, rest)
    | '&' :: '&' :: rest | '-' :: '-' :: rest | '~' :: '~' :: rest =>
      readSet ignore fuel (some (.close left items)) [] rest
    | '[' :: rest =>
      match readNamed rest with
      | some (negated, rest) => readSet ignore fuel left (.named negated :: items) rest
      | none =>
        let (negated, front, rest) ← openClass ignore rest
        let (set, rest) ← readSet ignore fuel none front.reverse rest
        readSet ignore fuel left (.bracketed negated set :: items) rest
    | rest =>
      let (item, rest) ← readItem ignore rest
      readSet ignore fuel left (item :: items) rest

def readClass (ignore : Bool) (cs : List Char) : Option (Pattern × List Char) := do
  let (negated, front, rest) ← openClass ignore cs
  let (set, rest) ← readSet ignore (rest.length + 1) none front.reverse rest
  some (.bracketed negated set, rest)

/-! ## Groups -/

def flag? : Char → Option Flag
  | 'i' => some .ignoreCase
  | 'm' => some .manyLines
  | 's' => some .dotTakesLines
  | 'U' => some .lazy
  | 'u' => some .unicode
  | 'R' => some .carriageReturns
  | 'x' => some .ignoreBlanks
  | _ => none

/-- The flags of letters, each of which stands there once. -/
def flagList (cs : List Char) : Option (List Flag) := do
  let fs ← cs.mapM flag?
  if fs.eraseDups.length = fs.length then some fs else none

/-- The flags of a text: those to be set, and behind a hyphen those to be taken back. -/
def flagsOf (cs : List Char) : Option Flags := do
  let (on, off) := (Text.cutFirst '-' cs).getD (cs, [])
  if cs.contains '-' && off.isEmpty then none
  else
    let fs ← flagList (on ++ off)
    some ⟨fs.take on.length, fs.drop on.length⟩

def isGroupName : List Char → Bool
  | [] => false
  | c :: cs =>
    (c == '_' || Text.isLetter c) &&
      cs.all fun d => ['_', '.', '[', ']'].contains d || Text.isLetterOrDigit d

/-- What an opening parenthesis begins: a group, or flags for the rest of the group around it. -/
inductive Opening
  | group (name : Option String) (fs : Flags)
  | flags (fs : Flags)

def readName (cs : List Char) : Option (Opening × List Char) :=
  let (name, rest) := cs.span (· != '>')
  match rest with
  | '>' :: rest =>
    if isGroupName name then some (.group (some (String.ofList name)) ⟨[], []⟩, rest) else none
  | _ => none

/-- Reads flags, and what they are for. -/
def readFlags (cs : List Char) : Option (Opening × List Char) :=
  let (letters, rest) := cs.span fun c => c != ':' && c != ')'
  match rest with
  | ':' :: rest => (flagsOf letters).map fun fs => (.group none fs, rest)
  | ')' :: rest =>
    if letters.isEmpty then none else (flagsOf letters).map fun fs => (.flags fs, rest)
  | _ => none

/-- Reads what stands behind an opening parenthesis. -/
def readOpening (ignore : Bool) (cs : List Char) : Option (Opening × List Char) :=
  match skip ignore cs with
  | '?' :: 'P' :: '<' :: rest => readName rest
  | '?' :: '<' :: rest => readName rest
  | '?' :: rest => readFlags rest
  | rest => some (.group none ⟨[], []⟩, rest)

/-! ## Patterns -/

def Atom.toPattern : Atom → Pattern
  | literal l => .literal l
  | dot => .dot
  | place word => .place word
  | shorthand negated => .shorthand negated
  | property => .property

/-- Patterns in reverse order as one; a single one stands for itself. -/
def sequenceOf : List Pattern → Pattern
  | [p] => p
  | ps => .sequence ps.reverse

/-- Branches in reverse order as one pattern; a single one stands for itself. -/
def choiceOf : List Pattern → Pattern
  | [p] => p
  | ps => .choice ps.reverse

/-- Whether a pattern may be repeated. -/
def isRepeatable : Pattern → Bool
  | .flags _ => false
  | _ => true

/-- The text behind the mark that makes a repetition lazy, if it is there. -/
def dropLazy : List Char → List Char
  | '?' :: cs => cs
  | cs => cs

/-- Reads up to a closing parenthesis or the end. The branches before the last bar and the patterns
behind it are given in reverse order. -/
def readBranches :
    (fuel : Nat) → (ignore : Bool) → (branches patterns : List Pattern) → List Char →
      Option (Pattern × List Char)
  | 0, _, _, _, _ => none
  | fuel + 1, ignore, branches, patterns, cs =>
    match skip ignore cs with
    | [] => some (choiceOf (sequenceOf patterns :: branches), [])
    | ')' :: rest => some (choiceOf (sequenceOf patterns :: branches), ')' :: rest)
    | '|' :: rest => readBranches fuel ignore (sequenceOf patterns :: branches) [] rest
    | '{' :: _ => none
    | '(' :: rest => do
      match ← readOpening ignore rest with
      | (.flags fs, rest) =>
        readBranches fuel ((fs.state? .ignoreBlanks).getD ignore) branches (.flags fs :: patterns)
          rest
      | (.group name fs, rest) =>
        match ← readBranches fuel ((fs.state? .ignoreBlanks).getD ignore) [] [] rest with
        | (p, ')' :: rest) => readBranches fuel ignore branches (.group name fs p :: patterns) rest
        | _ => none
    | '[' :: rest => do
      let (p, rest) ← readClass ignore rest
      readBranches fuel ignore branches (p :: patterns) rest
    | '?' :: rest | '*' :: rest | '+' :: rest =>
      match patterns with
      | [] => none
      | p :: patterns =>
        if isRepeatable p then
          readBranches fuel ignore branches (.repeated p :: patterns) (dropLazy rest)
        else none
    | rest => do
      let (a, rest) ← readAtom ignore rest
      readBranches fuel ignore branches (a.toPattern :: patterns) rest

def read (cs : List Char) : Option Pattern :=
  match readBranches (cs.length + 1) false [] [] cs with
  | some (p, []) => some p
  | _ => none

end SplitHorizon.Log.Pattern
