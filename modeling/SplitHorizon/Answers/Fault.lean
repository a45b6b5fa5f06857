import SplitHorizon.Selector
import SplitHorizon.Answers.Zone
/-!
# Faults of the configuration

Why an answers document or the settings are refused. A fault of the document says where it stands:
under which selector, and for a record set under which name and type, as they are written there.
-/

namespace SplitHorizon

/-- What is wrong with an entry of the document as a whole. -/
inductive EntryFault
  | selector (fault : Selector.Fault)
  | repeated
  | notObject
  deriving DecidableEq, Repr

def EntryFault.message : EntryFault → String
  | .selector fault => fault.message
  | .repeated => "declared more than once"
  | .notObject => "zone must be an object keyed by domain name"

/-- What is wrong with the answers for one name. -/
inductive AnswerFault
  | name (fault : Name.Fault)
  | notObject
  | unknownKind (text : String)
  | repeated
  | notArray
  /-- An answer that is no string, as JSON text. -/
  | notString (found : String)
  | value (fault : RecordValue.Fault)
  deriving DecidableEq, Repr

def AnswerFault.message : AnswerFault → String
  | .name fault => (Failure.invalidName fault.message).message
  | .notObject => "expected an object keyed by record type"
  | .unknownKind text => "Unsupported record type: " ++ text
  | .repeated => "declared more than once"
  | .notArray => "expected an array of answer strings"
  | .notString found => "expected a string, found " ++ found
  | .value fault => fault.message

/-- What is wrong with a server in a list of them. -/
inductive ListFault
  | notArray
  | notString
  | target (fault : Target.Fault)
  deriving DecidableEq, Repr

def ListFault.message : ListFault → String
  | .notArray => "expected an array of host[:port]"
  | .notString => "expected a string"
  | .target fault => fault.message

/-- What is wrong with the settings. -/
inductive SettingFault
  | zeroPort
  | bindAddress (text : String)
  | emptyPath
  | longTtl (ttl : UInt32)
  | zeroIdleTime
  | zeroTargetTime
  | listenNoPort (text : String)
  | listenPort (text : String) (why : Decimal.Fault)
  deriving DecidableEq, Repr

def SettingFault.message : SettingFault → String
  | .zeroPort => "DNS port cannot be 0"
  | .bindAddress text => "Invalid bind address '" ++ text ++ "': invalid IP address syntax"
  | .emptyPath => "Answers file path cannot be empty"
  | .longTtl ttl => "TTL " ++ Decimal.render ttl.toNat ++ " exceeds maximum of 2147483647"
  | .zeroIdleTime => "TCP timeout cannot be 0"
  | .zeroTargetTime => "Upstream timeout cannot be 0"
  | .listenNoPort text => "Listen address '" ++ text ++ "' has no port"
  | .listenPort text why => "Invalid port in listen address '" ++ text ++ "': " ++ why.message

/-- Why a document or the settings are refused. -/
inductive ConfigFault
  /-- A file can not be read. -/
  | unreadable (path reason : String)
  /-- A text does not follow its grammar, or holds a value of the wrong type. -/
  | malformed
  | setting (why : SettingFault)
  | entry (selector : String) (why : EntryFault)
  | answer (selector name kind : String) (why : AnswerFault)
  | server (selector text : String) (why : ListFault)
  deriving DecidableEq, Repr

/-- The wording of a fault. A malformed text is reported in the words of its reader, which are not
kept. -/
def ConfigFault.message : ConfigFault → String
  | .unreadable path reason => "Failed to read config file " ++ path ++ ": " ++ reason
  | .malformed => "Failed to parse config"
  | .setting why => "Configuration validation error: " ++ why.message
  | .entry selector why => "Invalid client selector '" ++ selector ++ "': " ++ why.message
  | .answer selector name kind why =>
    "Invalid answer for " ++ name ++ " " ++ kind ++ " in '" ++ selector ++ "': " ++ why.message
  | .server selector text why =>
    "Invalid recurse target '" ++ text ++ "' in '" ++ selector ++ "': " ++ why.message

end SplitHorizon
