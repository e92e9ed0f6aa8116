import TaggedUnion.Command.Options
import TaggedUnion.Command.Report
import TaggedUnion.Declaration.Module
import TaggedUnion.FileTree.Saving

/-!
# Runs of the command

A run loads the schema, makes the text of the module, and then prints it, compares it with the
module's file or saves it there. It leaves an exit code and a transcript: the events of the log and
what was written to the two output streams, in order. How the log is written down, and what is said
about arguments that cannot be used, is not decided here.

The first part of a run needs only the text of the schema file. `Options.perform` puts the parts
together over any file system, and `Options.run` is such a run on a file tree.
-/

namespace TaggedUnion

/-- A step of a run that can be seen from outside. -/
inductive Note where
  | event (e : Event)
  | out (text : String)
  | err (text : String)
  /-- The arguments cannot be used. -/
  | misuse
  deriving DecidableEq, Repr

structure Outcome where
  exit : Nat
  notes : List Note
  deriving DecidableEq, Repr

/-- The texts that a run leaves to others. -/
structure Wording where
  line : Event → String
  misuse : String

def Note.output : Note → String
  | out text => text
  | _ => ""

/-- The text on the error stream, where the log goes too. -/
def Note.errors (w : Wording) (threshold : Threshold) : Note → String
  | err text => text
  | misuse => w.misuse
  | event e => if threshold.shows e.level then w.line e else ""
  | out _ => ""

namespace Outcome

def output (o : Outcome) : String :=
  String.join (o.notes.map Note.output)

def errors (o : Outcome) (w : Wording) (threshold : Threshold) : String :=
  String.join (o.notes.map (Note.errors w threshold))

end Outcome

/-- Why a run fails. A fault of the schema comes with the text it was found in. -/
inductive Failure where
  | schema (fault : Fault) (source : String)
  | files (fault : FileFault)
  deriving DecidableEq, Repr

def Failure.report : Failure → String
  | schema fault source => fault.diagnostic.report source
  | files fault => Style.bold (Style.red "error") ++ ": " ++ Style.red fault.message ++ "\n"

structure Product where
  path : String
  text : String
  deriving DecidableEq, Repr

/-- The events up to the finished text of the module, or up to a failure. -/
structure Preparation where
  events : List Event
  result : Except Failure Product

def Outcome.failed (events : List Event) (failure : Failure) : Outcome :=
  ⟨1, events.map .event ++ [.err failure.report]⟩

namespace Options

/-- Loads the schema: that of the given file, or else the built-in one. Also gives its text. -/
def load (o : Options) (file : Option (String × Except Refusal String)) :
    Except Failure (Loading × String) :=
  match file with
  | none => .ok (.ofLines o.base Builtin.nodeLines, Builtin.source)
  | some (path, .error why) => .error (.files (.readSchema path why))
  | some (_, .ok source) => .ok (.ofSource o.base source, source)

/-- The element type has to be an identifier, if one is given. -/
def names (o : Options) : Except Failure UnionNames :=
  match o.element with
  | none => .ok (.make o.base none)
  | some element =>
    if isIdentifier element then .ok (.make o.base (some element))
    else .error (.schema (.general (.badElement element)) "")

/-- Makes the text of the module, given the schema file with what reading it gave. -/
def prepare (o : Options) (file : Option (String × Except Refusal String)) : Preparation :=
  match o.load file with
  | .error failure => ⟨[], .error failure⟩
  | .ok (loading, source) =>
    match loading.result with
    | .error fault => ⟨loading.events, .error (.schema fault source)⟩
    | .ok schema =>
      match o.names with
      | .error failure => ⟨loading.events, .error failure⟩
      | .ok names =>
        ⟨loading.events ++ .generating names.base names.element ::
            names.emissionEvents schema.variants,
          .ok ⟨schema.modulePath o.outDir, names.moduleText schema.variants⟩⟩

end Options

def Product.printed (p : Product) (events : List Event) : Outcome :=
  ⟨0, events.map .event ++ [.out p.text]⟩

def Product.checked (p : Product) (events : List Event) : Except FileFault Freshness → Outcome
  | .error fault => .failed events (.files fault)
  | .ok .upToDate => ⟨0, events.map .event ++ [.out (p.path ++ ": ok\n")]⟩
  | .ok .stale =>
    ⟨1, events.map .event ++ [.err (p.path ++ ": " ++ Style.red "out of date" ++ "\n")]⟩
  | .ok .missing =>
    ⟨1, events.map .event ++ [.err (p.path ++ ": " ++ Style.red "missing" ++ "\n")]⟩

def Product.saved (p : Product) (events : List Event) : Except FileFault Unit → Outcome
  | .error fault => .failed events (.files fault)
  | .ok _ =>
    ⟨0, (events ++ [Event.moduleWritten p.path p.text.utf8ByteSize]).map Note.event ++
      [.out (Style.bold (Style.green "Generated") ++ " " ++ p.path ++ "\n")]⟩

namespace Options

section Performing
variable {m : Type → Type} [Monad m] {NewFile : Type} (fs : FileSystem m NewFile)

/-- The schema file with what reading it gave, if one is named. -/
def readSchema (o : Options) : m (Option (String × Except Refusal String)) :=
  match o.schemaFile with
  | none => return none
  | some path => return some (path, ← fs.readText path)

def perform (o : Options) : m Outcome := do
  let preparation := o.prepare (← o.readSchema fs)
  match preparation.result with
  | .error failure => return .failed preparation.events failure
  | .ok product =>
    match o.mode with
    | .print => return product.printed preparation.events
    | .check =>
      return product.checked preparation.events (← fs.freshness product.path product.text)
    | .write =>
      return product.saved preparation.events (← fs.save product.path product.text.toUTF8)

end Performing

def run (o : Options) (c : FileTree.Circumstances) (t : FileTree) : Outcome × FileTree :=
  (o.perform (FileTree.system c)).run t

end Options

def versionText : String :=
  "astgen 0.0.1-dev\n"

def helpText : String :=
  "Generate an AST enum module from a node schema\n\nUsage: astgen [OPTIONS] <OUT_DIR>\n\n" ++
    "Arguments:\n  <OUT_DIR>  Directory the `<base>/mod.rs` module is generated under\n\n" ++
    "Options:\n" ++
    "  -s, --schema <SCHEMA>    Read node specifications from this file instead of the built-in " ++
    "Expr schema\n" ++
    "  -b, --base <BASE>        Name of the generated enum [default: Expr]\n" ++
    "  -e, --element <ELEMENT>  Type name a leading field is boxed for (defaults to the base name)\n" ++
    "      --check              Exit non-zero if the module on disk differs from what would be " ++
    "generated\n" ++
    "      --stdout             Print the module to stdout instead of writing it\n" ++
    "  -h, --help               Print help\n" ++
    "  -V, --version            Print version\n"

def Ending.outcome : Ending → Outcome
  | .misuse => ⟨2, [.misuse]⟩
  | .version => ⟨0, [.out versionText]⟩
  | .help => ⟨0, [.out helpText]⟩

def command {m : Type → Type} [Monad m] {NewFile : Type} (fs : FileSystem m NewFile)
    (args : List String) : m Outcome :=
  match Options.ofArguments args with
  | .error ending => return ending.outcome
  | .ok options => options.perform fs

def runCommand (c : FileTree.Circumstances) (args : List String) (t : FileTree) :
    Outcome × FileTree :=
  (command (FileTree.system c) args).run t

end TaggedUnion
