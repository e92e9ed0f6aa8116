import TaggedUnion.Line.Piece
import TaggedUnion.Text.Bytes

/-!
# Scanning a line

The scanner gives the pieces of a line their places and leaves the blanks out. Scanning always ends
with one token for the end of the line, and leaves the scanner there: scanning again gives that
token alone.
-/

namespace TaggedUnion

open Text

/-- A place in a line, with the characters from there on. -/
structure Scanner where
  place : Place
  offset : Nat
  rest : List Char
  deriving DecidableEq, Repr

namespace Scanner

def start (line : Nat) (text : String) : Scanner :=
  ⟨⟨line, 1⟩, 0, text.toList⟩

def advance (s : Scanner) (cs : List Char) : Scanner :=
  ⟨⟨s.place.line, s.place.column + cs.length⟩, s.offset + byteLength cs, s.rest.drop cs.length⟩

/-- The token of the given kind and length that starts here. -/
def token (s : Scanner) (kind : Token.Kind) (cs : List Char) : Token :=
  ⟨kind, s.place, s.offset, s.offset + byteLength cs⟩

/-- The tokens of the pieces, the first of which starts here. -/
def locate (s : Scanner) : List Piece → List Token
  | [] => []
  | p :: ps =>
    match p.kind? with
    | none => locate (s.advance p.text) ps
    | some kind => s.token kind p.text :: locate (s.advance p.text) ps

/-- The tokens up to the end of the line, without the one that stands for the end. -/
def tokens (s : Scanner) : List Token :=
  s.locate (Piece.split s.rest)

def finish (s : Scanner) : Scanner :=
  s.advance s.rest

def final (s : Scanner) : Token :=
  s.finish.token .endOfLine []

def scan (s : Scanner) : List Token × Scanner :=
  (s.tokens ++ [s.final], s.finish)

end Scanner

end TaggedUnion
