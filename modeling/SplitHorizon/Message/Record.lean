import SplitHorizon.Message.Options
import SplitHorizon.Message.Service
import SplitHorizon.Record.Kind
import SplitHorizon.Wire.Name
/-!
# Resource records as bytes

A record is a name, a type, a class, a time to live and a body, with the length of the body in front
of it. The body of a type that is told apart has to fill that length exactly; other bodies are kept
as bytes, and for a few of their types the bytes have to have the type's layout.

The names in the bodies of older types may be shortened by pointers; those of a located service, of
a rewriting rule and of a name for addresses are written whole, and the first and the last of these
in small letters.

The class of an extension record is the size of reply that its sender takes, so it is at least the
smallest such size; and its name is the root.
-/

namespace SplitHorizon

namespace RecordBody

open Wire (Reader Writer put16 put32 putString readName writeName writeWhole)

/-- The type of the record at the top of a zone. -/
def soaType : UInt16 := 6

/-- The type of the rules that rewrite names. -/
def naptrType : UInt16 := 35

/-- The types of the records that tell where a service is; the second one is that of the web. -/
def serviceTypes : List UInt16 := [64, 65]

/-- The type of a name that has the addresses of another one. -/
def anameType : UInt16 := 65305

/-- The type of the records that tell who may issue certificates. -/
def issuerType : UInt16 := 257

/-! ## Bodies that are kept as bytes -/

/-- Whether bytes are two strings, each with its length in front. -/
def isTwoStrings (bytes : List UInt8) : Bool :=
  let strings : Reader Unit := do
    let _ ← Reader.string
    let _ ← Reader.string
  ((Reader.within bytes.length strings).run ⟨0, bytes⟩).isSome

def isAlphanumeric (b : UInt8) : Bool :=
  (48 ≤ b && b ≤ 57) || (65 ≤ b && b ≤ 90) || (97 ≤ b && b ≤ 122)

/-- Whether bytes are flags, a tag of 1 to 15 letters and digits with its length in front, and a
value. -/
def isTagged : List UInt8 → Bool
  | _ :: n :: rest =>
    match Wire.splitExactly n.toNat rest with
    | some (tag, _) => !tag.isEmpty && tag.length ≤ 15 && tag.all isAlphanumeric
    | none => false
  | _ => false

def knownTags : List (List UInt8) :=
  ["issue", "issuewild", "iodef"].map fun t => Text.utf8 t.toList

/-- Flags, a tag and a value, with the tag in small letters if it is a known one. -/
def withKnownTag : List UInt8 → List UInt8
  | flags :: n :: rest =>
    let tag := (rest.take n.toNat).map DomainName.smallByte
    if knownTags.contains tag then flags :: n :: tag ++ rest.drop n.toNat else flags :: n :: rest
  | bytes => bytes

/-- The most bytes in which a window has types. -/
def maxWindow : Nat := 32

/-- Whether bytes are windows of types: the number of a window, a length, and that many bytes. The
last window may be cut short anywhere, and only the last one may be empty. -/
def areWindows (bytes : List UInt8) : Bool :=
  match bytes with
  | [] | [_] => true
  | _ :: n :: rest =>
    if n = 0 then rest.isEmpty
    else ((rest.take n.toNat).drop maxWindow).all (· == 0) && areWindows (rest.drop n.toNat)
termination_by bytes.length
decreasing_by
  simp only [List.length_drop, List.length_cons]
  omega

/-- Whether bytes are the number of a zone's state, flags of which the lower byte has no more than
two, and windows of types. -/
def isChildSync : List UInt8 → Bool
  | _ :: _ :: _ :: _ :: _ :: flags :: windows => flags < 4 && areWindows windows
  | _ => false

/-- Whether bytes can be the body of a type that is kept as bytes. The types 251, 252 and 255 stand
in questions only. -/
def isBodyOf (typeCode : UInt16) (bytes : List UInt8) : Bool :=
  match typeCode.toNat with
  | 13 => isTwoStrings bytes
  | 37 => 5 < bytes.length
  | 44 => 2 ≤ bytes.length
  | 52 => 3 ≤ bytes.length
  | 62 => isChildSync bytes
  | 257 => isTagged bytes
  | 0 | 251 | 252 | 255 => false
  | _ => true

/-! ## Reading -/

/-- Reads the body of a kind that can be answered locally. -/
def readKind (message : List UInt8) : RecordKind → Reader RecordBody
  | .a => do
    let n ← Reader.number 4
    pure (a (BitVec.ofNat 32 n))
  | .aaaa => do
    let n ← Reader.number 16
    pure (aaaa (BitVec.ofNat 128 n))
  | .cname => do
    let name ← readName message
    pure (cname name)
  | .ns => do
    let name ← readName message
    pure (ns name)
  | .ptr => do
    let name ← readName message
    pure (ptr name)
  | .mx => do
    let preference ← Reader.number16
    let exchange ← readName message
    pure (mx preference exchange)
  | .txt => do
    let c ← get
    let strings ← Reader.many Reader.string c.rest.length
    pure (txt strings)
  | .srv => do
    let priority ← Reader.number16
    let weight ← Reader.number16
    let port ← Reader.number16
    let target ← readName message
    pure (srv priority weight port target)

/-- Reads the body of the record at the top of a zone. -/
def readSoa (message : List UInt8) : Reader RecordBody := do
  let primary ← readName message
  let mailbox ← readName message
  let serial ← Reader.number32
  let refresh ← Reader.number32
  let retry ← Reader.number32
  let expire ← Reader.number32
  let minimum ← Reader.number32
  pure (soa primary mailbox serial refresh retry expire minimum)

/-- Reads a rule that rewrites names. Its flags are letters and digits. -/
def readNaptr (message : List UInt8) : Reader RecordBody := do
  let order ← Reader.number16
  let preference ← Reader.number16
  let flags ← Reader.string
  let services ← Reader.string
  let pattern ← Reader.string
  let replacement ← readName message
  if flags.all isAlphanumeric then
    pure (naptr order preference flags services pattern replacement)
  else Reader.fail

/-- Reads where a service is. -/
def readService (message : List UInt8) : Reader RecordBody := do
  let priority ← Reader.number16
  let target ← readName message
  let parameters ← ServiceParameter.readAll
  pure (service priority target parameters)

/-- Reads the body of an extension record, which is all of the bytes ahead. -/
def readOptions : Reader RecordBody := do
  let c ← get
  let bytes ← Reader.take c.rest.length
  match EdnsOption.readBody bytes with
  | some list => pure (options list)
  | none => Reader.fail

/-- Reads all of the bytes ahead as the body of a type that is kept as bytes. -/
def readRaw (typeCode : UInt16) : Reader RecordBody := do
  let c ← get
  let bytes ← Reader.take c.rest.length
  if isBodyOf typeCode bytes then
    pure (raw (if typeCode = issuerType then withKnownTag bytes else bytes))
  else Reader.fail

def read (message : List UInt8) (typeCode : UInt16) : Reader RecordBody :=
  match RecordKind.ofCode? typeCode with
  | some kind => readKind message kind
  | none =>
    if typeCode = soaType then readSoa message
    else if typeCode = naptrType then readNaptr message
    else if serviceTypes.contains typeCode then readService message
    else if typeCode = anameType then aname <$> readName message
    else if typeCode = Message.ednsType then readOptions
    else readRaw typeCode

/-! ## Writing -/

def write : RecordBody → Writer
  | a bits => .bytes (Places.bytes 4 bits.toNat)
  | aaaa bits => .bytes (Places.bytes 16 bits.toNat)
  | cname name => writeName name
  | ns name => writeName name
  | ptr name => writeName name
  | mx preference exchange => .all [.bytes (put16 preference), writeName exchange]
  | txt strings => .bytes (strings.flatMap putString)
  | srv priority weight port target =>
    .all [.bytes (put16 priority ++ put16 weight ++ put16 port), writeWhole target.small]
  | soa primary mailbox serial refresh retry expire minimum =>
    .all [writeName primary, writeName mailbox,
      .bytes (put32 serial ++ put32 refresh ++ put32 retry ++ put32 expire ++ put32 minimum)]
  | naptr order preference flags services pattern replacement =>
    .all [.bytes (put16 order ++ put16 preference), .bytes (putString flags),
      .bytes (putString services), .bytes (putString pattern), writeWhole replacement]
  | service priority target parameters =>
    .all [.bytes (put16 priority), writeName target,
      .bytes (parameters.flatMap ServiceParameter.put)]
  | aname name => writeWhole name.small
  | options list => .bytes (list.flatMap EdnsOption.put)
  | raw bytes => .bytes bytes

end RecordBody

namespace ResourceRecord

open Wire (Reader Writer put16 put32 readName writeName)

def read (message : List UInt8) : Reader ResourceRecord := do
  let name ← readName message
  let typeCode ← Reader.number16
  let isEdns := typeCode == Message.ednsType
  if isEdns && !name.labels.isEmpty then Reader.fail
  else do
    let classCode ← Reader.number16
    let classCode := if isEdns then max classCode Message.minPayload else classCode
    let ttl ← Reader.number32
    let length ← Reader.number 2
    let body ←
      if length = 0 then pure (RecordBody.raw [])
      else Reader.within length (RecordBody.read message typeCode)
    pure ⟨name, typeCode, classCode, ttl, body⟩

def write (r : ResourceRecord) : Writer :=
  .all [writeName r.name, .bytes (put16 r.typeCode ++ put16 r.classCode ++ put32 r.ttl),
    .sized r.body.write]

end ResourceRecord

end SplitHorizon
