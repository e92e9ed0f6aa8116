import TaggedUnion.FileTree.Basic
import TaggedUnion.FileSystem

/-!
# Access by path

Paths are followed component by component from the root: an empty component or `.` stays, `..` goes
up, and any other name has to be a directory if something follows it. The root is the working
directory too, so a path means the same with a `/` before it. An operation that is refused says why,
and leaves the tree as it was.
-/

namespace TaggedUnion

def maxNameBytes : Nat := 255

def maxPathBytes : Nat := 4095

/-- What a path leads to: a directory named by `.`, `..` or the root, or a name in a directory,
where there may be an entry or not. -/
inductive Goal where
  | directory (here : Location)
  | name (folder : Location) (name : String) (slash : Bool)
  deriving DecidableEq, Repr

def Goal.ofName (folder : Location) (name : String) (slash : Bool) : Except Refusal Goal :=
  if name = "." then .ok (.directory folder)
  else if name = ".." then .ok (.directory folder.dropLast)
  else if maxNameBytes < name.utf8ByteSize then .error .nameTooLong
  else .ok (.name folder name slash)

namespace FileTree

def enter (t : FileTree) (here : Location) (name : String) : Except Refusal Location :=
  if name = "." then .ok here
  else if name = ".." then .ok here.dropLast
  else if maxNameBytes < name.utf8ByteSize then .error .nameTooLong
  else
    match t.get? (here ++ [name]) with
    | none => .error .noEntry
    | some (.file _) => .error .notDirectory
    | some .directory => .ok (here ++ [name])

def walk (t : FileTree) (here : Location) : List String → Except Refusal Location
  | [] => .ok here
  | name :: names =>
    match t.enter here name with
    | .error e => .error e
    | .ok next => t.walk next names

/-- Follows a path up to its last component. A `/` at the end asks for a directory. -/
def follow (t : FileTree) (path : String) : Except Refusal Goal :=
  if path.toList.contains '\x00' then .error .nulInPath
  else if path = "" then .error .noEntry
  else if maxPathBytes < path.utf8ByteSize then .error .nameTooLong
  else
    match (Path.names path).getLast? with
    | none => .ok (.directory [])
    | some last =>
      match t.walk [] (Path.names path).dropLast with
      | .error e => .error e
      | .ok folder => Goal.ofName folder last (path.toList.getLast? = some '/')

def directoryAt (t : FileTree) (path : String) : Except Refusal Location :=
  match t.follow path with
  | .error e => .error e
  | .ok (.directory l) => .ok l
  | .ok (.name folder name _) => t.enter folder name

def isDirectory (t : FileTree) (path : String) : Bool :=
  (t.directoryAt path).toBool

def read (t : FileTree) (path : String) : Except Refusal ByteArray :=
  match t.follow path with
  | .error e => .error e
  | .ok (.directory _) => .error .isDirectory
  | .ok (.name folder name slash) =>
    match t.get? (folder ++ [name]) with
    | none => .error .noEntry
    | some .directory => .error .isDirectory
    | some (.file content) => if slash then .error .notDirectory else .ok content

def readText (t : FileTree) (path : String) : Except Refusal String :=
  match t.read path with
  | .error e => .error e
  | .ok content =>
    match String.fromUTF8? content with
    | none => .error .notText
    | some text => .ok text

/-- Where a file can be put under a path: at a name that is free or that a file has. -/
def fileSite (t : FileTree) (path : String) : Except Refusal Location :=
  match t.follow path with
  | .error e => .error e
  | .ok (.directory _) => .error .busy
  | .ok (.name folder name slash) =>
    if slash then .error .notDirectory
    else
      match t.get? (folder ++ [name]) with
      | some .directory => .error .isDirectory
      | _ => .ok (folder ++ [name])

/-- Where something new can be made: at a name that is free. -/
def freeSite (t : FileTree) (path : String) : Except Refusal Location :=
  match t.follow path with
  | .error e => .error e
  | .ok (.directory _) => .error .alreadyExists
  | .ok (.name folder name _) =>
    match t.get? (folder ++ [name]) with
    | some _ => .error .alreadyExists
    | none => .ok (folder ++ [name])

def makeDirectory (t : FileTree) (path : String) : Except Refusal FileTree :=
  match t.freeSite path with
  | .error e => .error e
  | .ok l => .ok (t.insert l .directory)

end FileTree

end TaggedUnion
