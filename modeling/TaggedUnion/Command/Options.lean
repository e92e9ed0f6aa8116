import TaggedUnion.Schema.Builtin

/-!
# Command-line arguments

One directory and a few options, in any order. An option takes its value from the rest of its own
argument or from the next one, which may not look like an option. After `--` there are no options.

Arguments are read from left to right, up to the first fault or request for the version or for
help. What concerns all of them together comes last: the directory must be given, and the module
cannot be both checked and printed.

Arguments are Unicode texts; others, which a host may pass, are left out.
-/

namespace TaggedUnion

inductive Mode where
  | write
  | check
  | print
  deriving DecidableEq, Repr

structure Options where
  outDir : String
  schemaFile : Option String
  base : String
  element : Option String
  mode : Mode
  deriving DecidableEq, Repr

/-- Why reading the arguments ends without options. -/
inductive Ending where
  | misuse
  | version
  | help
  deriving DecidableEq, Repr

/-- An option that takes a value. -/
inductive Setting where
  | schemaFile
  | base
  | element
  deriving DecidableEq, Repr

inductive Switch where
  | check
  | print
  | version
  | help
  deriving DecidableEq, Repr

inductive Argument where
  | plain (value : String)
  | setting (s : Setting) (value : Option String)
  | switch (s : Switch)
  | unknown
  deriving DecidableEq, Repr

namespace Argument

/-- The option of a long name, the value behind its `=` given apart. -/
def ofLong (name : String) (value : Option String) : Argument :=
  match name, value with
  | "schema", v => setting .schemaFile v
  | "base", v => setting .base v
  | "element", v => setting .element v
  | "check", none => switch .check
  | "stdout", none => switch .print
  | "version", none => switch .version
  | "help", none => switch .help
  | _, _ => unknown

/-- The value that follows a short option in the same argument, with or without a `=`. -/
def attached : List Char → Option String
  | [] => none
  | '=' :: value => some (String.ofList value)
  | value => some (String.ofList value)

/-- The option of a short name. The short options without a value end the reading, so that nothing
behind them in the argument matters. -/
def ofShort (name : Char) (rest : List Char) : Argument :=
  match name with
  | 's' => setting .schemaFile (attached rest)
  | 'b' => setting .base (attached rest)
  | 'e' => setting .element (attached rest)
  | 'V' => switch .version
  | 'h' => switch .help
  | _ => unknown

/-- A single `-` is a plain value. -/
def ofString (arg : String) : Argument :=
  match arg.toList with
  | '-' :: '-' :: long =>
    let name := String.ofList (long.takeWhile (· ≠ '='))
    match long.dropWhile (· ≠ '=') with
    | [] => ofLong name none
    | _ :: value => ofLong name (some (String.ofList value))
  | '-' :: short :: rest => ofShort short rest
  | _ => plain arg

end Argument

/-- The arguments read so far. -/
structure Draft where
  outDir : Option String
  schemaFile : Option String
  base : Option String
  element : Option String
  check : Bool
  print : Bool
  deriving DecidableEq, Repr

namespace Draft

def empty : Draft :=
  ⟨none, none, none, none, false, false⟩

/-- There is one directory, and it has a name. -/
def addPlain (d : Draft) (value : String) : Except Ending Draft :=
  if d.outDir.isSome || value.isEmpty then .error .misuse else .ok { d with outDir := some value }

/-- An option is given once. A file has a name; names of types are checked later. -/
def addSetting (d : Draft) (value : String) : Setting → Except Ending Draft
  | .schemaFile =>
    if d.schemaFile.isSome || value.isEmpty then .error .misuse
    else .ok { d with schemaFile := some value }
  | .base => if d.base.isSome then .error .misuse else .ok { d with base := some value }
  | .element => if d.element.isSome then .error .misuse else .ok { d with element := some value }

def addSwitch (d : Draft) : Switch → Except Ending Draft
  | .check => if d.check then .error .misuse else .ok { d with check := true }
  | .print => if d.print then .error .misuse else .ok { d with print := true }
  | .version => .error .version
  | .help => .error .help

def mode? (d : Draft) : Option Mode :=
  match d.check, d.print with
  | false, false => some .write
  | true, false => some .check
  | false, true => some .print
  | true, true => none

def finish (d : Draft) : Except Ending Options :=
  match d.outDir, d.mode? with
  | some outDir, some mode =>
    .ok ⟨outDir, d.schemaFile, d.base.getD Builtin.base, d.element, mode⟩
  | _, _ => .error .misuse

def readPlain (d : Draft) : List String → Except Ending Options
  | [] => d.finish
  | arg :: args => do readPlain (← d.addPlain arg) args

/-- Reads arguments, the first of which is the value of `awaited`, if there is such an option. -/
def read (d : Draft) (awaited : Option Setting) : List String → Except Ending Options
  | [] => if awaited.isSome then .error .misuse else d.finish
  | arg :: args =>
    match awaited, Argument.ofString arg with
    | some s, .plain value => do read (← d.addSetting value s) none args
    | some _, _ => .error .misuse
    | none, .plain value => do read (← d.addPlain value) none args
    | none, .setting s (some value) => do read (← d.addSetting value s) none args
    | none, .setting s none => read d (some s) args
    | none, .switch s => do read (← d.addSwitch s) none args
    | none, .unknown => if arg = "--" then d.readPlain args else .error .misuse

end Draft

def Options.ofArguments (args : List String) : Except Ending Options :=
  Draft.empty.read none args

end TaggedUnion
