import TaggedUnion.Path
import TaggedUnion.Text.Lines
import TaggedUnion.Text.Quoted

/-!
# Operations on files

What the command asks of a file system, and how it makes directories and saves files with it. This
is written over the operations alone, so the host can run it and so can a file tree. Paths are
Unicode texts; names of other bytes, which a host may have, are left out.

A file is saved by making its directory, writing the content to a new file there, and renaming that
file. Whatever is refused once the new file is there, it is removed again. Directories stay once
they are made.

A saved text can also be compared with the file: line ends do not count.
-/

namespace TaggedUnion

open Text

inductive Refusal where
  | noEntry
  | busy
  | alreadyExists
  | notDirectory
  | isDirectory
  | invalidArgument
  | nameTooLong
  /-- The path holds a NUL character, which no name can have. -/
  | nulInPath
  | notText
  /-- All names that were tried for a new file were taken. -/
  | namesTaken
  /-- The refusal of an operation on a new file, with the path of that file. -/
  | about (path : String) (why : Refusal)
  /-- Any other refusal, in the words of the system. -/
  | other (message : String)
  deriving DecidableEq, Repr

def Refusal.message : Refusal → String
  | noEntry => "No such file or directory (os error 2)"
  | busy => "Device or resource busy (os error 16)"
  | alreadyExists => "File exists (os error 17)"
  | notDirectory => "Not a directory (os error 20)"
  | isDirectory => "Is a directory (os error 21)"
  | invalidArgument => "Invalid argument (os error 22)"
  | nameTooLong => "File name too long (os error 36)"
  | nulInPath => "file name contained an unexpected NUL byte"
  | notText => "stream did not contain valid UTF-8"
  | namesTaken => "too many temporary files exist"
  | about path why => why.message ++ " at path " ++ quoted path
  | other message => message

inductive FileFault where
  | readSchema (path : String) (why : Refusal)
  | makeDirectory (path : String) (why : Refusal)
  | write (path : String) (why : Refusal)
  | readModule (path : String) (why : Refusal)
  deriving DecidableEq, Repr

def FileFault.message : FileFault → String
  | readSchema path why => s!"Failed to read schema {path}: " ++ why.message
  | makeDirectory path why => s!"Failed to create directory {path}: " ++ why.message
  | write path why => s!"Failed to write {path}: " ++ why.message
  | readModule path why => s!"Failed to read {path}: " ++ why.message

/-- How the file of a module compares with the text it should have. -/
inductive Freshness where
  | upToDate
  | stale
  | missing
  deriving DecidableEq, Repr

def Freshness.judge (path text : String) : Except Refusal String → Except FileFault Freshness
  | .ok current =>
    .ok (if normalizeLineEnds current.toList = normalizeLineEnds text.toList then .upToDate
      else .stale)
  | .error .noEntry => .ok .missing
  | .error e => .error (.readModule path e)

/-- A digit or a letter, by a number below 62. -/
def tempLetter (n : Nat) : Char :=
  if n < 10 then Char.ofNat (48 + n)
  else if n < 36 then Char.ofNat (55 + n)
  else Char.ofNat (61 + n)

/-- A number as so many letters, the lowest first. -/
def tempLetters (n : Nat) : Nat → List Char
  | 0 => []
  | count + 1 => tempLetter (n % 62) :: tempLetters (n / 62) count

/-- A name for a new file. The number that is drawn for it gives its last six characters. -/
def tempName (drawn : Nat) : String :=
  ".tmp" ++ String.ofList (tempLetters drawn 6)

def maxTries : Nat := 65536

structure Directories (m : Type → Type) where
  make : String → m (Except Refusal Unit)
  isThere : String → m Bool

structure FileSystem (m : Type → Type) (NewFile : Type) extends Directories m where
  readText : String → m (Except Refusal String)
  /-- Draws a number for a name, with so many tries left. -/
  draw : Nat → m Nat
  /-- Makes a new, empty file. A path where something is gets refused. -/
  create : String → m (Except Refusal NewFile)
  write : NewFile → ByteArray → m (Except Refusal Unit)
  flush : NewFile → m (Except Refusal Unit)
  /-- Moves a new file to a path; a file that is there is replaced. -/
  rename : NewFile → String → m (Except Refusal Unit)
  remove : NewFile → m Unit

namespace Directories
variable {m : Type → Type} [Monad m] (d : Directories m)

/-- A refusal does not matter if the directory is there. -/
def settle (path : String) : Except Refusal Unit → m (Except Refusal Unit)
  | .ok _ => return .ok ()
  | .error why => return if ← d.isThere path then .ok () else .error why

def ensure (path : String) : m (Except Refusal Unit) := do
  d.settle path (← d.make path)

/-- Makes the first of some directories, each of which has to be in the next. Where one cannot be
made for want of the next, that one is made first. -/
def makeNested : List String → m (Except Refusal Unit)
  | [] => return .ok ()
  | path :: above => do
    match ← d.make path with
    | .error .noEntry =>
      match ← makeNested above with
      | .error why => return .error why
      | .ok _ => d.ensure path
    | made => d.settle path made

end Directories

namespace FileSystem
variable {m : Type → Type} [Monad m] {NewFile : Type} (fs : FileSystem m NewFile)

/-- Makes a new file in a directory, under the first name drawn that is not taken. -/
def stage (dir : String) : Nat → m (Except Refusal (String × NewFile))
  | 0 => return .error (.about dir .namesTaken)
  | left + 1 => do
    let path := Path.join dir (tempName (← fs.draw left))
    match ← fs.create path with
    | .error .alreadyExists => stage dir left
    | .error why => return .error (.about path why)
    | .ok file => return .ok (path, file)

/-- Writes the content to a new file, all of it, and moves the file to its path. -/
def fill (staged : String) (file : NewFile) (path : String) (content : ByteArray) :
    m (Except Refusal Unit) := do
  match ← fs.write file content with
  | .error why => return .error (.about staged why)
  | .ok _ =>
    match ← fs.flush file with
    | .error why => return .error (.about staged why)
    | .ok _ => fs.rename file path

def save (path : String) (content : ByteArray) : m (Except FileFault Unit) := do
  let dir := Path.directory path
  match ← fs.makeNested (Path.upward dir) with
  | .error why => return .error (.makeDirectory dir why)
  | .ok _ =>
    match ← fs.stage dir maxTries with
    | .error why => return .error (.write path why)
    | .ok (staged, file) =>
      match ← fs.fill staged file path content with
      | .error why =>
        fs.remove file
        return .error (.write path why)
      | .ok _ => return .ok ()

def freshness (path text : String) : m (Except FileFault Freshness) := do
  return Freshness.judge path text (← fs.readText path)

end FileSystem

end TaggedUnion
