import TaggedUnion.Command.Run

/-!
# The command

The files of the host as a file system, and the command on it. Everything is decided elsewhere; here
files are read, made and renamed, and the two output streams are written.
-/

namespace TaggedUnion.Host

/-- The number of an error. Some operations give it negated. -/
def number (code : UInt32) : Nat :=
  min code.toNat (0 - code).toNat

def numbered (code : UInt32) (details : String) : Refusal :=
  match number code with
  | 2 => .noEntry
  | 16 => .busy
  | 17 => .alreadyExists
  | 20 => .notDirectory
  | 21 => .isDirectory
  | 22 => .invalidArgument
  | 36 => .nameTooLong
  | n => .other s!"{details} (os error {n})"

def refusal : IO.Error → Refusal
  | .noFileOrDirectory _ code details | .alreadyExists _ code details
  | .inappropriateType _ code details | .invalidArgument _ code details
  | .permissionDenied _ code details | .resourceExhausted _ code details
  | .resourceBusy code details | .otherError code details => numbered code details
  | e => .other (toString e)

/-- What an operation gives, or why it is refused. -/
def attempt {α : Type} (operation : IO α) : IO (Except Refusal α) := do
  try return .ok (← operation)
  catch e => return .error (refusal e)

def readText (path : String) : IO (Except Refusal String) := do
  match ← attempt (IO.FS.readBinFile path) with
  | .error why => return .error why
  | .ok content => return (String.fromUTF8? content).elim (.error .notText) .ok

def isDirectory (path : String) : IO Bool := do
  match ← attempt (IO.FS.realPath path) with
  | .error _ => return false
  | .ok real => real.isDir

structure NewFile where
  path : String
  handle : IO.FS.Handle

/-- The files of the host. There are `62 ^ 6` names for new files. -/
def system : FileSystem IO NewFile where
  make path := attempt (IO.FS.createDir path)
  isThere := isDirectory
  readText := readText
  draw _ := IO.rand 0 56800235583
  create path := attempt do return ⟨path, ← IO.FS.Handle.mk path .writeNew⟩
  write file content := attempt (file.handle.write content)
  flush file := attempt file.handle.flush
  rename file path := attempt (IO.FS.rename file.path path)
  remove file := discard (attempt (IO.FS.removeFile file.path))

def wording : Wording where
  line := Event.render
  misuse := "error: invalid arguments\n\nUsage: astgen [OPTIONS] <OUT_DIR>\n\n" ++
    "For more information, try '--help'.\n"

end TaggedUnion.Host

open TaggedUnion in
def main (args : List String) : IO UInt32 := do
  let threshold := ((← IO.getEnv "ASTGEN_LOG").bind Threshold.ofName?).getD .standard
  let outcome ← command Host.system args
  (← IO.getStdout).putStr outcome.output
  (← IO.getStderr).putStr (outcome.errors Host.wording threshold)
  return UInt32.ofNat outcome.exit
