import SplitHorizon.Name.Labels
/-!
# Messages

A message of the name service: a header, questions, three sections of resource records, and the
extension record, if there is one. The extension record travels among the additional records; here
it stands apart, and the upper bits of the response code, which it carries, are joined with those of
the header.
-/

namespace SplitHorizon

/-- The fixed part of a message. -/
structure Header where
  id : UInt16
  response : Bool
  opcode : BitVec 4
  authoritative : Bool
  truncated : Bool
  recursionDesired : Bool
  recursionAvailable : Bool
  authenticData : Bool
  checkingDisabled : Bool
  code : BitVec 12
  deriving DecidableEq, Repr

/-- What is asked: the records of a type and a class under a name. -/
structure Question where
  name : DomainName
  typeCode : UInt16
  classCode : UInt16
  deriving DecidableEq, Repr

/-- An option of the extension record. -/
structure EdnsOption where
  code : UInt16
  value : List UInt8
  deriving DecidableEq, Repr

/-- A parameter of a service, under the number of its key. -/
structure ServiceParameter where
  key : UInt16
  value : List UInt8
  deriving DecidableEq, Repr

/-- What a resource record holds. Types that are not told apart are kept as bytes, and so is an
empty body of any type. -/
inductive RecordBody
  | a (bits : BitVec 32)
  | aaaa (bits : BitVec 128)
  | cname (name : DomainName)
  | ns (name : DomainName)
  | ptr (name : DomainName)
  | mx (preference : UInt16) (exchange : DomainName)
  | txt (strings : List (List UInt8))
  | srv (priority weight port : UInt16) (target : DomainName)
  | soa (primary mailbox : DomainName) (serial refresh retry expire minimum : UInt32)
  /-- A rule that rewrites names. -/
  | naptr (order preference : UInt16) (flags services pattern : List UInt8)
      (replacement : DomainName)
  /-- Where a service is, and what else is known of it. -/
  | service (priority : UInt16) (target : DomainName) (parameters : List ServiceParameter)
  /-- The name that has the addresses of a name. -/
  | aname (name : DomainName)
  | options (list : List EdnsOption)
  | raw (bytes : List UInt8)
  deriving DecidableEq, Repr

structure ResourceRecord where
  name : DomainName
  typeCode : UInt16
  classCode : UInt16
  ttl : UInt32
  body : RecordBody
  deriving DecidableEq, Repr

/-- The extension record: the size of reply that its sender takes, a version, flags and options. -/
structure Edns where
  payload : UInt16
  version : UInt8
  dnssecOk : Bool
  reserved : BitVec 15
  options : List EdnsOption
  deriving DecidableEq, Repr

structure Message where
  header : Header
  questions : List Question
  answers : List ResourceRecord
  authorities : List ResourceRecord
  additionals : List ResourceRecord
  edns : Option Edns
  deriving DecidableEq, Repr

namespace Message

/-- The type of the extension record. -/
def ednsType : UInt16 := 41

def internetClass : UInt16 := 1

/-- The smallest size of reply that can be asked for; a smaller one counts as this. -/
def minPayload : UInt16 := 512

/-- The largest number of bytes of a message. -/
def maxSize : Nat := 65535

end Message

end SplitHorizon
