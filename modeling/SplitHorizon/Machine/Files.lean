import SplitHorizon.Files.Access
import SplitHorizon.Machine.Fault
/-!
# Files of the machine

Access to the files of the machine that the process runs on.
-/

namespace SplitHorizon.Machine

/-- The fault of a file that a failure of the machine is. -/
def Fault.toFileFault (f : Fault) : FileFault :=
  match f.number with
  | 2 => .missing
  | 20 => .notFolder
  | 21 => .isFolder
  | 36 => .tooLong
  | _ => .other f.text

def onFile {α : Type} (path : String) (x : IO α) : IO (Except FileFault α) := do
  if path.toList.contains '\x00' then pure (.error .nul)
  else
    match ← x.toBaseIO with
    | .ok value => pure (.ok value)
    | .error e => pure (.error (Fault.ofError e).toFileFault)

/-- The files of the machine. A file that may not be opened is there all the same. -/
def disk : Disk IO where
  holds path := do
    match ← onFile path (IO.FS.Handle.mk path .read) with
    | .error .missing => pure false
    | .error .notFolder => pure false
    | .error .tooLong => pure false
    | .error .nul => pure false
    | _ => pure true
  read path := onFile path do
    let bytes ← IO.FS.readBinFile path
    pure bytes.toList
  write path bytes := onFile path (IO.FS.writeBinFile path bytes.toByteArray)
  append path bytes := onFile path do
    let file ← IO.FS.Handle.mk path .append
    file.write bytes.toByteArray

end SplitHorizon.Machine
