import TaggedUnion.Line.Grammar
import TaggedUnion.Line.Scanner

/-!
# Variants

A variant of the union is a name and the types of its fields, as they stand in the node line. It is
read from a line of text, or by a line reader, which holds its place between readings.
-/

namespace TaggedUnion

open Text

structure Variant where
  name : String
  fields : List String
  deriving DecidableEq, Repr

def Span.text (s : Span) (line : String) : String :=
  String.ofList (cut s.start s.stop line.toList)

def Outline.variant (o : Outline) (line : String) : Variant :=
  ⟨o.name, o.fields.map (·.text line)⟩

/-- A line with its tokens, some of which have been passed. -/
structure LineReader where
  text : String
  final : Token
  passed : Nat
  ahead : List Token
  deriving DecidableEq, Repr

namespace LineReader

def start (line : Nat) (text : String) : LineReader :=
  let s := Scanner.start line text
  ⟨text, s.final, 0, s.tokens⟩

/-- At the first of the given tokens, the last of which ends the line. -/
def ofTokens? (text : String) (tokens : List Token) : Option LineReader :=
  tokens.getLast?.map fun final => ⟨text, final, 0, tokens.dropLast⟩

def moveTo (r : LineReader) (rest : List Token) : LineReader :=
  { r with passed := r.passed + (r.ahead.length - rest.length), ahead := rest }

/-- Reads a variant from here on. The reader stays where the reading ended, after a fault as
well. -/
def read (r : LineReader) : Except Fault Variant × LineReader :=
  match Grammar.outline r.final r.ahead with
  | .ok o rest => (.ok (o.variant r.text), r.moveTo rest)
  | .error e rest => (.error e, r.moveTo rest)

end LineReader

def Variant.parse (line : Nat) (text : String) : Except Fault Variant :=
  (LineReader.start line text).read.1

end TaggedUnion
