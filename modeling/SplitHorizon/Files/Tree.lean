import SplitHorizon.Files.Access
import SplitHorizon.Text.Blank
/-!
# Files in memory

A tree of folders and files, and the folder in it that paths start from. A path is walked part by
part: `.` stays, `..` goes to the folder above, and any other part goes to the entry of that name,
for which the place reached so far has to be a folder. A path that ends with a slash names a folder.
Names of entries and whole paths have a greatest length, and a NUL stands in none of them.
-/

namespace SplitHorizon

/-- A file with its bytes, or a folder with its entries. -/
inductive FileNode
  | file (bytes : List UInt8)
  | folder (entries : List (String × FileNode))

/-- A tree of files, and the folders from its root down to the one that paths start from. -/
structure FileTree where
  root : FileNode
  work : List String

namespace FileNode

/-- The entry of a folder under a name. -/
def entry? (entries : List (String × FileNode)) (name : String) : Option FileNode :=
  (entries.find? fun e => e.1 == name).map (·.2)

/-- Entries with one more, which replaces one of its name. -/
def setEntry (entries : List (String × FileNode)) (name : String) (node : FileNode) :
    List (String × FileNode) :=
  (name, node) :: entries.filter fun e => e.1 != name

/-- The node at the end of names. -/
def get : FileNode → List String → Except FileFault FileNode
  | node, [] => .ok node
  | file _, _ :: _ => .error .notFolder
  | folder entries, name :: names =>
    match entry? entries name with
    | some node => node.get names
    | none => .error .missing

/-- The tree with another node at the end of names; the folders on the way have to be there. -/
def set (node : FileNode) : FileNode → List String → FileNode
  | _, [] => node
  | file bytes, _ :: _ => file bytes
  | folder entries, [name] => folder (setEntry entries name node)
  | folder entries, name :: names =>
    match entry? entries name with
    | some inner => folder (setEntry entries name (set node inner names))
    | none => folder entries

end FileNode

namespace FileTree

/-! ## Paths -/

/-- A path taken apart: whether it starts at the root, its parts, and whether it has to be a
folder. -/
structure Path where
  fromRoot : Bool
  parts : List String
  folder : Bool

def maxPath : Nat := 4095

def maxName : Nat := 255

/-- Takes a path apart. The empty path leads nowhere. -/
def parse (path : String) : Except FileFault Path :=
  let cs := path.toList
  if cs.contains '\x00' then .error .nul
  else if cs.isEmpty then .error .missing
  else if maxPath < Text.width cs then .error .tooLong
  else
    let parts := (Text.pieces (· == '/') cs).filter fun p => !p.isEmpty
    .ok ⟨cs.head? == some '/', parts.map String.ofList, cs.getLast? == some '/'⟩

/-- Walks parts of a path from a place, given by names from the root, to the place they lead to. All
but the last name of that place are folders that are there. -/
def walk (root : FileNode) : (place parts : List String) → Except FileFault (List String)
  | place, [] => .ok place
  | place, part :: parts =>
    match root.get place with
    | .error why => .error why
    | .ok (.file _) => .error .notFolder
    | .ok (.folder _) =>
      if part = "." then walk root place parts
      else if part = ".." then walk root place.dropLast parts
      else if maxName < Text.width part.toList then .error .tooLong
      else walk root (place ++ [part]) parts

/-- The place that a path leads to. -/
def locate (t : FileTree) (path : String) : Except FileFault (List String × Bool) := do
  let p ← parse path
  let place ← walk t.root (if p.fromRoot then [] else t.work) p.parts
  .ok (place, p.folder)

def find (t : FileTree) (path : String) : Except FileFault FileNode := do
  let (place, folder) ← t.locate path
  match ← t.root.get place with
  | .folder entries => .ok (.folder entries)
  | .file bytes => if folder then .error .notFolder else .ok (.file bytes)

/-! ## Files -/

def read (t : FileTree) (path : String) : Except FileFault (List UInt8) := do
  match ← t.find path with
  | .file bytes => .ok bytes
  | .folder _ => .error .isFolder

/-- Writes a file, made from the bytes it had, if there was one. -/
def update (t : FileTree) (path : String) (bytes : Option (List UInt8) → List UInt8) :
    Except FileFault FileTree := do
  let (place, folder) ← t.locate path
  match t.root.get place with
  | .ok (.folder _) => .error .isFolder
  | .ok (.file old) =>
    if folder then .error .notFolder
    else .ok { t with root := .set (.file (bytes (some old))) t.root place }
  | .error .missing =>
    if folder then .error .isFolder
    else .ok { t with root := .set (.file (bytes none)) t.root place }
  | .error why => .error why

/-- Writes a file with bytes, whatever it held. -/
def write (t : FileTree) (path : String) (bytes : List UInt8) : Except FileFault FileTree :=
  t.update path fun _ => bytes

/-- Adds bytes to the end of a file, which is made if there is none. -/
def append (t : FileTree) (path : String) (bytes : List UInt8) : Except FileFault FileTree :=
  t.update path fun old => old.getD [] ++ bytes

/-- Keeps the tree that a change leaves, or the old one if it fails. -/
def keep (change : FileTree → Except FileFault FileTree) :
    StateM FileTree (Except FileFault Unit) :=
  fun t =>
    match change t with
    | .ok t => (.ok (), t)
    | .error why => (.error why, t)

/-- The files of a tree as a disk. -/
def disk : Disk (StateM FileTree) where
  holds path := do
    let t ← get
    pure (t.find path).toBool
  read path := do
    let t ← get
    pure (t.read path)
  write path bytes := keep (·.write path bytes)
  append path bytes := keep (·.append path bytes)

end FileTree

end SplitHorizon
