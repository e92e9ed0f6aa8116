/-!
# Tokens of a node line

A node line names a variant and lists its fields, as in `Binary | Expr, Token, Expr`. Its tokens are
words, the three kinds of brackets, a few marks, and one token that stands for the end of the line.
Any character without a role of its own is a symbol.
-/

namespace TaggedUnion

/-- A line and a column, both counted from one; columns count characters. -/
structure Place where
  line : Nat
  column : Nat
  deriving DecidableEq, Repr

/-- A range of byte positions in the UTF-8 form of a line. -/
structure Span where
  start : Nat
  stop : Nat
  deriving DecidableEq, Repr

inductive Token.Kind where
  | word (name : String)
  | pipe
  | comma
  | opener (bracket : Char)
  | closer (bracket : Char)
  | arrow
  | symbol (c : Char)
  | endOfLine
  deriving DecidableEq, Repr

structure Token where
  kind : Token.Kind
  place : Place
  span : Span
  deriving DecidableEq, Repr

def closingOf : Char → Option Char
  | '<' => some '>'
  | '(' => some ')'
  | '[' => some ']'
  | _ => none

namespace Token.Kind

/-- The kind as a message shows it: the token's text in quotes. -/
def describe : Token.Kind → String
  | word name => "'" ++ name ++ "'"
  | pipe => "'|'"
  | comma => "','"
  | opener c | closer c | symbol c => "'" ++ c.toString ++ "'"
  | arrow => "'->'"
  | endOfLine => "end of line"

/-- The kind of a single character that is neither blank nor part of a word. -/
def ofChar : Char → Token.Kind
  | '|' => pipe
  | ',' => comma
  | '<' => opener '<'
  | '(' => opener '('
  | '[' => opener '['
  | '>' => closer '>'
  | ')' => closer ')'
  | ']' => closer ']'
  | c => symbol c

end Token.Kind

/-- The tokens agree in kind and text, wherever they stand. -/
def Token.sameKind (a b : Token) : Bool :=
  a.kind = b.kind

end TaggedUnion
