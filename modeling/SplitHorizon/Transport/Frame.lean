import SplitHorizon.Message.Basic
import SplitHorizon.Wire.Reader
/-!
# Messages on a stream

On a stream each message has its length in front, as a number of 16 bits. A message that is too long
for that is not sent at all, and a stream that ends before a message does holds no message there.
-/

namespace SplitHorizon.Frame

def put (message : List UInt8) : Option (List UInt8) :=
  if message.length ≤ Message.maxSize then
    some (Wire.put16 (UInt16.ofNat message.length) ++ message)
  else none

def lengthSize : Nat := 2

/-- Takes the first message off a stream. -/
def read (stream : List UInt8) : Option (List UInt8 × List UInt8) := do
  let (length, rest) ← Wire.splitExactly lengthSize stream
  Wire.splitExactly (Places.ofBytes length) rest

end SplitHorizon.Frame
