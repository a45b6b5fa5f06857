import SplitHorizon.Record.Kind
import SplitHorizon.Name.Canonical
import SplitHorizon.Address.Grouped
import SplitHorizon.Failure
/-!
# Record values

One answer of the document, read from its text by the kind it is filed under: addresses, names,
names with numbers in front, and free text. Blanks around a value do not count, except in free text,
which is kept as it stands. `render` writes a value as it can be read again.
-/

namespace SplitHorizon

/-- A parsed answer. Names are canonical. -/
inductive RecordValue
  | a (bits : BitVec 32)
  | aaaa (bits : BitVec 128)
  | cname (name : String)
  | ns (name : String)
  | ptr (name : String)
  | mx (preference : UInt16) (exchange : String)
  | txt (text : String)
  | srv (priority weight port : UInt16) (target : String)
  deriving DecidableEq, Repr

namespace RecordValue

def kind : RecordValue → RecordKind
  | a _ => .a
  | aaaa _ => .aaaa
  | cname _ => .cname
  | ns _ => .ns
  | ptr _ => .ptr
  | mx _ _ => .mx
  | txt _ => .txt
  | srv _ _ _ _ => .srv

/-! ## Reading -/

/-- Why a text is no value of its kind. -/
inductive Fault
  | address (text : String)
  | name (fault : Name.Fault)
  /-- The number of fields is wrong. -/
  | layout (text expected : String)
  /-- A field is not a number of 16 bits. -/
  | number (what field : String)
  deriving DecidableEq, Repr

/-- The failure that a fault is reported as. -/
def Fault.toFailure : Fault → Failure
  | .address text => .invalidAddress text
  | .name fault => .invalidName fault.message
  | .layout text expected => .invalidRecord ("'" ++ text ++ "' does not match " ++ expected)
  | .number what field => .invalidRecord ("invalid " ++ what ++ " '" ++ field ++ "'")

def Fault.message (fault : Fault) : String := fault.toFailure.message

def readName (cs : List Char) : Except Fault String :=
  (Name.canonical (String.ofList cs)).mapError .name

def readNumber (what : String) (cs : List Char) : Except Fault UInt16 :=
  (Decimal.read16 cs).mapError fun _ => .number what (String.ofList cs)

/-- Reads a text as a value of a kind. -/
def read (kind : RecordKind) (raw : String) : Except Fault RecordValue :=
  let value := Text.trim raw.toList
  match kind with
  | .a =>
    match Address.Dotted.read value with
    | some bits => .ok (a bits)
    | none => .error (.address (String.ofList value))
  | .aaaa =>
    match Address.Grouped.read value with
    | some bits => .ok (aaaa bits)
    | none => .error (.address (String.ofList value))
  | .cname => (readName value).map cname
  | .ns => (readName value).map ns
  | .ptr => (readName value).map ptr
  | .txt => .ok (txt raw)
  | .mx =>
    match Text.fields value with
    | [p, x] => do
      let p ← readNumber "preference" p
      let x ← readName x
      .ok (mx p x)
    | _ => .error (.layout (String.ofList value) "<preference> <exchange>")
  | .srv =>
    match Text.fields value with
    | [p, w, s, t] => do
      let p ← readNumber "priority" p
      let w ← readNumber "weight" w
      let s ← readNumber "port" s
      let t ← readName t
      .ok (srv p w s t)
    | _ => .error (.layout (String.ofList value) "<priority> <weight> <port> <target>")

/-! ## Writing -/

def number (n : UInt16) : String := Decimal.render n.toNat

def render : RecordValue → String
  | a bits => String.ofList (Address.Dotted.render bits)
  | aaaa bits => String.ofList (Address.Grouped.render bits)
  | cname name => name
  | ns name => name
  | ptr name => name
  | mx p x => number p ++ " " ++ x
  | txt text => text
  | srv p w s t => number p ++ " " ++ number w ++ " " ++ number s ++ " " ++ t

end RecordValue

end SplitHorizon
