/-!
# Failures of the machine

What the machine says when it can not do something: a number and a wording. The numbers come in two
forms, positive ones and, from the network, negative ones in 32 bits; both stand for the same
failures.
-/

namespace SplitHorizon.Machine

/-- A failure of the machine. -/
structure Fault where
  number : Nat
  wording : String
  deriving DecidableEq, Repr

namespace Fault

/-- The number of a failure, whichever form it comes in. -/
def plainNumber (code : UInt32) : Nat := code.toInt32.toInt.natAbs

def ofError : IO.Error → Fault
  | .alreadyExists _ code wording | .invalidArgument _ code wording
  | .permissionDenied _ code wording | .resourceExhausted _ code wording
  | .inappropriateType _ code wording | .noSuchThing _ code wording =>
    ⟨plainNumber code, wording⟩
  | .interrupted _ code wording | .noFileOrDirectory _ code wording => ⟨plainNumber code, wording⟩
  | .otherError code wording | .resourceBusy code wording | .resourceVanished code wording
  | .unsupportedOperation code wording | .hardwareFault code wording
  | .unsatisfiedConstraints code wording | .illegalOperation code wording
  | .protocolError code wording | .timeExpired code wording => ⟨plainNumber code, wording⟩
  | .unexpectedEof => ⟨0, "early eof"⟩
  | .userError wording => ⟨0, wording⟩

def text (f : Fault) : String :=
  if f.number = 0 then f.wording else f.wording ++ " (os error " ++ toString f.number ++ ")"

end Fault

end SplitHorizon.Machine
