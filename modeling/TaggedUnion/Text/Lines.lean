/-!
# Lines and line ends

A text is a sequence of lines. A line feed ends a line, and a carriage return directly before it
belongs to the line end; any other carriage return is an ordinary character. A text that ends with
a line end has no further empty line.
-/

namespace TaggedUnion.Text

/-- The lines of a text without their line ends. -/
def lines : List Char → List (List Char)
  | [] => []
  | '\n' :: r => [] :: lines r
  | '\r' :: '\n' :: r => [] :: lines r
  | c :: r =>
    match lines r with
    | [] => [[c]]
    | l :: ls => (c :: l) :: ls

/-- Writes every line end as a single line feed. -/
def normalizeLineEnds : List Char → List Char
  | [] => []
  | '\r' :: '\n' :: r => '\n' :: normalizeLineEnds r
  | c :: r => c :: normalizeLineEnds r

end TaggedUnion.Text
