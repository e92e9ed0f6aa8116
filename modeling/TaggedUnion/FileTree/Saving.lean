import TaggedUnion.FileTree.Access

/-!
# A file tree as a file system

Directories are made and files are read as the tree has it. Saving a file also depends on
circumstances that the tree does not show: which names are drawn for new files, and whether an
operation on a new file is refused although the tree has a place for it, as on a full disk.
-/

namespace TaggedUnion.FileTree

/-- Moves a file to a path; a file that is there is replaced. The path is followed as if the moved
file were gone; one with a NUL character is no valid argument. -/
def rename (t : FileTree) (source : Location) (path : String) : Except Refusal FileTree :=
  match t.get? source with
  | none => .error .noEntry
  | some e =>
    let rest := t.erase source
    match rest.fileSite path with
    | .error .nulInPath => .error .invalidArgument
    | .error why => .error why
    | .ok l => .ok (rest.insert l e)

inductive Step where
  | create (path : String)
  | write (content : ByteArray)
  | flush
  | rename (path : String)

structure Circumstances where
  draw : Nat → Nat
  refuses : Step → Option Refusal
  /-- How many bytes get into a file before the rest is refused. -/
  room : Nat

/-- Nothing is refused that the tree has a place for. -/
def Circumstances.plain : Circumstances :=
  ⟨id, fun _ => none, 0⟩

def newSite (t : FileTree) (c : Circumstances) (path : String) : Except Refusal Location :=
  match c.refuses (.create path) with
  | some why => .error why
  | none => t.freeSite path

/-- A change of the tree, which stays as it was if that is refused. -/
def change (f : FileTree → Except Refusal FileTree) : StateM FileTree (Except Refusal Unit) :=
  modifyGet fun t =>
    match f t with
    | .error why => (.error why, t)
    | .ok t' => (.ok (), t')

def directories : Directories (StateM FileTree) where
  make path := change (·.makeDirectory path)
  isThere path := return (← get).isDirectory path

def system (c : Circumstances) : FileSystem (StateM FileTree) Location where
  toDirectories := directories
  readText path := return (← get).readText path
  draw left := return c.draw left
  create path := modifyGet fun t =>
    match t.newSite c path with
    | .error why => (.error why, t)
    | .ok l => (.ok l, t.insert l (.file .empty))
  write l content := modifyGet fun t =>
    match c.refuses (.write content) with
    | some why => (.error why, t.insert l (.file (content.extract 0 c.room)))
    | none => (.ok (), t.insert l (.file content))
  flush _ := return (c.refuses .flush).elim (.ok ()) .error
  rename l path :=
    match c.refuses (.rename path) with
    | some why => return .error why
    | none => change (·.rename l path)
  remove l := modify (·.erase l)

/-- Makes a directory and those above it, and gives the tree they are in, also when it fails. -/
def makeDirectories (t : FileTree) (path : String) : Except Refusal Unit × FileTree :=
  (directories.makeNested (Path.upward path)).run t

def save (t : FileTree) (c : Circumstances) (path : String) (content : ByteArray) :
    Except FileFault Unit × FileTree :=
  ((system c).save path content).run t

def freshness (t : FileTree) (path text : String) : Except FileFault Freshness :=
  Freshness.judge path text (t.readText path)

end TaggedUnion.FileTree
