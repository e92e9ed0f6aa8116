import TaggedUnion.Unicode.WhiteSpace
import TaggedUnion.Line.Token
import TaggedUnion.Line.Word

/-!
# Pieces of a line

A line is cut into pieces whose texts, put together, are the line again: blanks, words, arrows and
single characters. The cut is made from the right. A character in front of a piece either joins it
or starts a piece of its own, so a word is as long as it can be and `->` is never cut in two.
-/

namespace TaggedUnion

open Unicode

inductive Piece where
  | blank (c : Char)
  | word (first : Char) (more : List Char)
  | arrow
  | single (c : Char)
  deriving DecidableEq, Repr

namespace Piece

def text : Piece → List Char
  | blank c => [c]
  | word c cs => c :: cs
  | arrow => ['-', '>']
  | single c => [c]

/-- The kind of token that a piece makes; a blank makes none. -/
def kind? : Piece → Option Token.Kind
  | blank _ => none
  | word c cs => some (.word (String.ofList (c :: cs)))
  | arrow => some .arrow
  | single c => some (.ofChar c)

/-- Puts a character in front of a line that is already cut. -/
def push (c : Char) (ps : List Piece) : List Piece :=
  if isWhite c then blank c :: ps
  else if isWordChar c then
    match ps with
    | word d ds :: ps => word c (d :: ds) :: ps
    | ps => word c [] :: ps
  else
    match ps with
    | single '>' :: ps => if c = '-' then arrow :: ps else single c :: single '>' :: ps
    | ps => single c :: ps

def split (cs : List Char) : List Piece :=
  cs.foldr push []

theorem flatMap_text_push (c : Char) (ps : List Piece) :
    (push c ps).flatMap text = c :: ps.flatMap text := by
  unfold push
  split
  · rfl
  · split
    · split <;> rfl
    · split
      · by_cases hc : c = '-'
        · subst hc
          rfl
        · rw [if_neg hc]
          rfl
      · rfl

theorem flatMap_text_split (cs : List Char) : (split cs).flatMap text = cs := by
  induction cs with
  | nil => rfl
  | cons c cs ih => rw [split, List.foldr_cons, flatMap_text_push, ← split, ih]

end Piece

end TaggedUnion
