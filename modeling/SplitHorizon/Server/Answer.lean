import SplitHorizon.Message.Basic
import SplitHorizon.Name.Presentation
import SplitHorizon.Record.Value
/-!
# Records of a local answer

The values of a record set as resource records: one for each value, in order, all under the name
that was asked for. A text becomes strings of at most 255 bytes, cut between characters and as long
as they can be.

The names inside values were accepted when the document was read, by rules that are laxer than those
for the text of a name in a message. Such a name may be refused here, and then the whole record set
is.
-/

namespace SplitHorizon

namespace RecordValue

/-! ## Text -/

/-- The most bytes that one string of a text record holds. -/
def maxString : Nat := 255

/-- The longest front of a text that takes at most `room` bytes, and the rest. -/
def cut : (room : Nat) → List Char → List Char × List Char
  | _, [] => ([], [])
  | room, c :: cs =>
    if c.utf8Size ≤ room then
      let p := cut (room - c.utf8Size) cs
      (c :: p.1, p.2)
    else ([], c :: cs)

theorem cut_length (room : Nat) (cs : List Char) : (cut room cs).2.length ≤ cs.length := by
  induction cs generalizing room with
  | nil => simp [cut]
  | cons c cs ih =>
    simp only [cut]
    split
    · exact Nat.le_trans (ih _) (Nat.le_succ _)
    · exact Nat.le_refl _

/-- The strings of a text that is not empty. A character takes at most four bytes, so the first one
always fits. -/
def strings : List Char → List (List Char)
  | [] => []
  | c :: cs =>
    let p := cut (maxString - c.utf8Size) cs
    (c :: p.1) :: strings p.2
termination_by cs => cs.length
decreasing_by
  have := cut_length (maxString - c.utf8Size) cs
  simp only [List.length_cons]
  omega

/-- The strings of a text; the empty text is one empty string. -/
def chunks (text : String) : List String :=
  if text.isEmpty then [""] else (strings text.toList).map String.ofList

/-! ## Bodies -/

/-- A name of the document as a name of a message. -/
def wireName (name : String) : Except Failure DomainName :=
  match DomainName.ofText? name with
  | some n => .ok n
  | none => .error (.invalidName name)

/-- A value as the body of a resource record. -/
def toBody : RecordValue → Except Failure RecordBody
  | a bits => .ok (.a bits)
  | aaaa bits => .ok (.aaaa bits)
  | cname name => (wireName name).map .cname
  | ns name => (wireName name).map .ns
  | ptr name => (wireName name).map .ptr
  | mx preference exchange => (wireName exchange).map (.mx preference)
  | txt text => .ok (.txt ((chunks text).map fun s => Text.utf8 s.toList))
  | srv priority weight port target => (wireName target).map (.srv priority weight port)

/-- A value as a resource record. -/
def toRecord (owner : DomainName) (ttl : UInt32) (v : RecordValue) :
    Except Failure ResourceRecord := do
  let body ← v.toBody
  pure ⟨owner, v.kind.code, Message.internetClass, ttl, body⟩

/-- The values of a record set as resource records. -/
def toRecords (owner : DomainName) (ttl : UInt32) (values : List RecordValue) :
    Except Failure (List ResourceRecord) :=
  values.mapM (toRecord owner ttl)

end RecordValue

end SplitHorizon
