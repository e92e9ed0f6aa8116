import TaggedUnion.Schema.Basic
import TaggedUnion.Text.Lines
import TaggedUnion.Text.Search

/-!
# Loading a schema

A schema is loaded from numbered node lines, either a list of lines counted from one, or the lines
of a text that hold a node, under the numbers they have there. The name of the union is checked
first. Lines are then read in order up to the first fault, and the name of a variant may be
declared only once. A schema has at least one variant.

The result also holds what had been declared when a fault was found.
-/

namespace TaggedUnion

open Text Unicode

structure NumberedLine where
  number : Nat
  text : String
  deriving DecidableEq, Repr

namespace NumberedLine

def ofLines (texts : List String) : List NumberedLine :=
  (texts.zipIdx 1).map fun (text, number) => ⟨number, text⟩

/-- Blank lines and comments hold no node. A comment starts with `#`, blanks apart. -/
def holdsNode (l : NumberedLine) : Bool :=
  match l.text.toList.dropWhile isWhite with
  | [] => false
  | c :: _ => c != '#'

def ofSource (source : String) : List NumberedLine :=
  (ofLines ((lines source.toList).map String.ofList)).filter holdsNode

end NumberedLine

structure Declared where
  line : Nat
  variant : Variant
  deriving DecidableEq, Repr

/-- The column where a name first occurs in a line. -/
def nameColumn (name line : String) : Nat :=
  (firstOccurrence name.toList line.toList).getD 0 + 1

/-- Reads the variant of a line, which none of `seen` may have declared before. -/
def declare (seen : List Declared) (l : NumberedLine) : Except Fault Declared :=
  match Variant.parse l.number l.text with
  | .error e => .error e
  | .ok v =>
    match seen.find? fun d => d.variant.name == v.name with
    | some d => .error (.located ⟨l.number, nameColumn v.name l.text⟩ (.duplicate v.name d.line))
    | none => .ok ⟨l.number, v⟩

/-- What the lines declare after `seen`, up to the first fault. -/
def collect (seen : List Declared) : List NumberedLine → List Declared × Option Fault
  | [] => ([], none)
  | l :: ls =>
    match declare seen l with
    | .error e => ([], some e)
    | .ok d =>
      let (ds, fault) := collect (d :: seen) ls
      (d :: ds, fault)

/-- The variants declared before loading ended, and how it ended. -/
structure Loading where
  declared : List Declared
  result : Except Fault Schema

namespace Loading

def ofNumbered (base : String) (ls : List NumberedLine) : Loading :=
  if isIdentifier base then
    let (declared, fault) := collect [] ls
    match fault with
    | some e => ⟨declared, .error e⟩
    | none =>
      if declared.isEmpty then ⟨[], .error (.general (.noVariants base))⟩
      else ⟨declared, .ok ⟨base, declared.map (·.variant)⟩⟩
  else ⟨[], .error (.general (.badBase base))⟩

def ofLines (base : String) (texts : List String) : Loading :=
  ofNumbered base (NumberedLine.ofLines texts)

def ofSource (base source : String) : Loading :=
  ofNumbered base (NumberedLine.ofSource source)

end Loading

end TaggedUnion
