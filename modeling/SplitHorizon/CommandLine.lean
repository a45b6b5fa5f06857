import SplitHorizon.Settings.Override
/-!
# The command line

Options have a long name, most of them a letter, and most of them take a value. A value may be
attached (`--ttl=5`, `-t5`, `-t=5`) or be the next argument, if that does not look like an option
itself. Letters may be joined, the last of them with its value. No option may come twice, and
nothing else may stand on the line.

The arguments are taken from the left. An option that takes its value from the next argument is
settled only when another option follows, or at the end: that its value is missing, that it came
before, or that its value is no number is found then. An argument that is not known is found at
once, even in front of an option that is not settled.
-/

namespace SplitHorizon

/-- The options of the command line. -/
inductive CommandOption
  | config
  | listen
  | answers
  | ttl
  | log
  | pidFile
  | logLevel
  | debug
  | help
  | version
  deriving DecidableEq, Repr

namespace CommandOption

def all : List CommandOption :=
  [config, listen, answers, ttl, log, pidFile, logLevel, debug, help, version]

def long : CommandOption → String
  | config => "config"
  | listen => "listen"
  | answers => "answers"
  | ttl => "ttl"
  | log => "log"
  | pidFile => "pid-file"
  | logLevel => "log-level"
  | debug => "debug"
  | help => "help"
  | version => "version"

def letter? : CommandOption → Option Char
  | config => some 'c'
  | listen => some 'l'
  | answers => some 'a'
  | ttl => some 't'
  | log => none
  | pidFile => none
  | logLevel => none
  | debug => some 'd'
  | help => some 'h'
  | version => some 'V'

def takesValue : CommandOption → Bool
  | debug | help | version => false
  | _ => true

def ofLong? (name : List Char) : Option CommandOption := all.find? fun o => o.long.toList == name

def ofLetter? (c : Char) : Option CommandOption := all.find? fun o => o.letter? == some c

end CommandOption

/-- Why a command line gives no settings. The first two are asked for. -/
inductive UsageFault
  | help
  | version
  | unknown
  | repeated
  | noValue
  | badValue
  | extraValue
  deriving DecidableEq, Repr

/-- What a command line says. -/
structure CommandLine where
  config : Option String
  listen : Option String
  answers : Option String
  ttl : Option UInt32
  log : Option String
  pidFile : Option String
  logLevel : Option String
  debug : Bool
  deriving DecidableEq, Repr

namespace CommandLine

/-- Reads a number of 32 bits. A sign may stand in front of it; behind a minus sign there can only
be zero. -/
def readTtl (value : String) : Option UInt32 :=
  match value.toList with
  | '-' :: c :: cs => if (c :: cs).all (· == '0') then some 0 else none
  | cs => (Decimal.read32 cs).toOption

/-- The options taken so far with their values, and the last option if it is not settled: it takes
its value from the next argument, or has done so. -/
structure State where
  taken : List (CommandOption × String)
  pending : Option (CommandOption × Option String)

namespace State

/-- Takes an option with a value. -/
def add (s : State) (o : CommandOption) (value : String) : Except UsageFault State :=
  if s.taken.any fun p => p.1 == o then .error .repeated
  else if o == .ttl && (readTtl value).isNone then .error .badValue
  else .ok { s with taken := s.taken ++ [(o, value)] }

/-- Settles the last option. -/
def settle (s : State) : Except UsageFault State :=
  match s.pending with
  | none => .ok s
  | some (_, none) => .error .noValue
  | some (o, some value) => add { s with pending := none } o value

/-- Takes an option that takes no value. -/
def raise (s : State) (o : CommandOption) : Except UsageFault State := do
  let s ← s.settle
  match o with
  | .help => .error .help
  | .version => .error .version
  | o => s.add o ""

/-- Takes an option that takes a value, which may be attached to it. -/
def await (s : State) (o : CommandOption) (attached : Option (List Char)) :
    Except UsageFault State := do
  let s ← s.settle
  match attached with
  | some value => s.add o (String.ofList value)
  | none => .ok { s with pending := some (o, none) }

/-- Takes a long option, without the two dashes. -/
def takeLong (s : State) (body : List Char) : Except UsageFault State :=
  let (name, attached) :=
    match Text.cutFirst '=' body with
    | some (name, value) => (name, some value)
    | none => (body, none)
  match CommandOption.ofLong? name with
  | none => .error .unknown
  | some o =>
    if o.takesValue then s.await o attached
    else if attached.isSome then .error .extraValue
    else s.raise o

/-- The value attached to a letter. -/
def attachedTo : List Char → Option (List Char)
  | [] => none
  | '=' :: value => some value
  | value => some value

/-- Takes joined letters, without the dash. -/
def takeLetters (s : State) : List Char → Except UsageFault State
  | [] => .ok s
  | c :: cs =>
    match CommandOption.ofLetter? c with
    | none => .error .unknown
    | some o =>
      if o.takesValue then s.await o (attachedTo cs)
      else do
        let s ← s.raise o
        s.takeLetters cs

def takeValue (s : State) (value : String) : Except UsageFault State :=
  match s.pending with
  | some (o, none) => .ok { s with pending := some (o, some value) }
  | _ => .error .unknown

/-- Takes one argument. -/
def take (s : State) (argument : String) : Except UsageFault State :=
  match argument.toList with
  | '-' :: '-' :: body => s.takeLong body
  | '-' :: c :: cs => s.takeLetters (c :: cs)
  | _ => s.takeValue argument

/-- Takes all arguments. Behind two dashes there is nothing that could be taken. -/
def takeAll (s : State) : List String → Except UsageFault State
  | [] => s.settle
  | "--" :: rest => if rest.isEmpty then s.settle else .error .unknown
  | argument :: rest => do
    let s ← s.take argument
    s.takeAll rest

def value? (s : State) (o : CommandOption) : Option String :=
  (s.taken.find? fun p => p.1 == o).map (·.2)

/-- What the taken options say. -/
def result (s : State) : CommandLine where
  config := s.value? .config
  listen := s.value? .listen
  answers := s.value? .answers
  ttl := (s.value? .ttl).bind readTtl
  log := s.value? .log
  pidFile := s.value? .pidFile
  logLevel := s.value? .logLevel
  debug := (s.value? .debug).isSome

end State

def read (arguments : List String) : Except UsageFault CommandLine :=
  (State.takeAll ⟨[], none⟩ arguments).map (·.result)

/-- What a command line says of settings. -/
def overrides (c : CommandLine) : Except SettingFault Overrides := do
  let listen ← c.listen.mapM ListenAddress.ofText
  pure {
    port := listen.map (·.port)
    address := listen.bind (·.host)
    answersPath := c.answers
    ttl := c.ttl
    logFile := c.log
    logLevel := c.logLevel
    pidFile := c.pidFile
    debug := c.debug }

end CommandLine

end SplitHorizon
