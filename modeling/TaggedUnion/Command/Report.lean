import TaggedUnion.Diagnostic
import TaggedUnion.Text.Lines

/-!
# Coloured reports

How the command shows diagnostics: in colour, with the line of the schema that is meant and a mark
below the column.
-/

namespace TaggedUnion

open Text

namespace Style

def colour (code : Nat) (text : String) : String :=
  s!"\x1b[{code}m" ++ text ++ "\x1b[39m"

def red (text : String) : String := colour 31 text
def green (text : String) : String := colour 32 text
def yellow (text : String) : String := colour 33 text
def grey (text : String) : String := colour 90 text

def bold (text : String) : String :=
  "\x1b[1m" ++ text ++ "\x1b[0m"

end Style

def blanks (n : Nat) : String :=
  String.ofList (List.replicate n ' ')

/-- The line number in front of a shown line, right-aligned in three columns. -/
def gutter (line : Nat) : String :=
  let number := toString line
  blanks (3 - number.length) ++ number ++ " | "

namespace Diagnostic

/-- Shows a line of the schema with a mark below a column. -/
def excerpt (line column : Nat) (text : String) : String :=
  "     |\n" ++ Style.grey (gutter line) ++ text ++ "\n" ++
    Style.red (blanks ((gutter line).length + (column - 1)) ++ "^") ++ Style.red " error here" ++
    "\n     |\n"

/-- Points to the place of a diagnostic, and shows its line if the source has it. -/
def pointer (d : Diagnostic) (source : String) : String :=
  match d.line, d.column with
  | some line, some column =>
    s!"  --> line {line}, column {column}\n" ++
      match (lines source.toList)[line - 1]? with
      | some text => excerpt line column (String.ofList text)
      | none => ""
  | _, _ => ""

def report (d : Diagnostic) (source : String) : String :=
  Style.bold (Style.red "Schema error") ++ s!" [{d.category.label}]: " ++ Style.red d.text ++ "\n" ++
    d.pointer source ++ Style.yellow ("Help: " ++ d.category.advice) ++ "\n"

end Diagnostic

end TaggedUnion
