/-!
# Access to files

What the server needs of files: whether there is something under a path, the bytes of a file, and to
write a file anew or go on at its end. As with the network, these are the fields of a structure over
the monad they run in.
-/

namespace SplitHorizon

/-- Why a file can not be read or written. -/
inductive FileFault
  | missing
  | notFolder
  | isFolder
  /-- The path, or a part of it, is too long. -/
  | tooLong
  /-- The path holds a NUL, which ends paths. -/
  | nul
  /-- The bytes are not a text in UTF-8. -/
  | notText
  | other (reason : String)
  deriving DecidableEq, Repr

def FileFault.message : FileFault → String
  | missing => "No such file or directory (os error 2)"
  | notFolder => "Not a directory (os error 20)"
  | isFolder => "Is a directory (os error 21)"
  | tooLong => "File name too long (os error 36)"
  | nul => "file name contained an unexpected NUL byte"
  | notText => "stream did not contain valid UTF-8"
  | other reason => reason

/-- Access to files by their paths. -/
structure Disk (m : Type → Type) where
  holds : (path : String) → m Bool
  read : (path : String) → m (Except FileFault (List UInt8))
  write : (path : String) → List UInt8 → m (Except FileFault Unit)
  append : (path : String) → List UInt8 → m (Except FileFault Unit)

namespace Disk

/-- The text that bytes are in UTF-8. -/
def textOf (bytes : List UInt8) : Except FileFault String :=
  match String.fromUTF8? bytes.toByteArray with
  | some s => .ok s
  | none => .error .notText

def readText {m : Type → Type} [Monad m] (disk : Disk m) (path : String) :
    m (Except FileFault String) := do
  let bytes ← disk.read path
  pure (bytes.bind textOf)

end Disk

end SplitHorizon
