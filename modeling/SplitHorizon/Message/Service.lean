import SplitHorizon.Message.Basic
import SplitHorizon.Wire.Reader
/-!
# Parameters of a service

A record that tells where a service is ends with parameters: the number of a key, a length, and that
many bytes of value. The keys ascend. The values of the keys that are known have a layout, and of a
port only the two bytes that make it are kept.
-/

namespace SplitHorizon.ServiceParameter

open Wire (Reader put16)

/-! ## Values -/

/-- Whether bytes are texts in UTF-8, at least one of them, each with its length in front. -/
def areTexts (value : List UInt8) : Bool :=
  match (Reader.many Reader.string value.length).run ⟨0, value⟩ with
  | some (texts, _) => !texts.isEmpty && texts.all fun t => t.toByteArray.validateUTF8
  | none => false

/-- Whether bytes are items of `size` bytes each. -/
def areItems (size : Nat) (value : List UInt8) : Bool := value.length % size == 0

/-- The part of a value that counts under a key, if the value has the layout of the key. -/
def checked? (key : UInt16) (value : List UInt8) : Option (List UInt8) :=
  match key.toNat with
  | 0 => if areItems 2 value && !value.isEmpty then some value else none
  | 1 => if areTexts value then some value else none
  | 2 => if value.isEmpty then some value else none
  | 3 => (Wire.splitExactly 2 value).map (·.1)
  | 4 => if areItems 4 value then some value else none
  | 6 => if areItems 16 value then some value else none
  | _ => some value

/-! ## Lists -/

/-- Reads parameters up to the end of the bytes. Their keys are at least `least` and ascend. Each of
them takes at least one byte, so `fuel` is more than the number of bytes ahead. -/
def readFrom : (fuel least : Nat) → Reader (List ServiceParameter)
  | 0, _ => Reader.fail
  | fuel + 1, least => do
    let c ← get
    if c.rest.isEmpty then pure []
    else do
      let key ← Reader.number16
      let length ← Reader.number 2
      let value ← Reader.take length
      match checked? key value with
      | none => Reader.fail
      | some value =>
        if key.toNat < least then Reader.fail
        else do
          let more ← readFrom fuel (key.toNat + 1)
          pure (⟨key, value⟩ :: more)

/-- Reads parameters up to the end of the bytes. -/
def readAll : Reader (List ServiceParameter) := do
  let c ← get
  readFrom (c.rest.length + 1) 0

def put (p : ServiceParameter) : List UInt8 :=
  put16 p.key ++ put16 (UInt16.ofNat p.value.length) ++ p.value

end SplitHorizon.ServiceParameter
