import TaggedUnion.Unicode.Alphabetic
import TaggedUnion.Unicode.Numeric

/-!
# Words and identifiers

A word is a run of letters, digits and underscores. An identifier is a word that does not start
with a digit. Type names have to be identifiers; the name of a variant may be any word.
-/

namespace TaggedUnion

open Unicode

/-- Letters and digits. -/
def isAlphanumeric (c : Char) : Bool :=
  isAlphabetic c || isNumeric c

def isWordChar (c : Char) : Bool :=
  isAlphanumeric c || c == '_'

def isIdentifier (s : String) : Bool :=
  match s.toList with
  | [] => false
  | c :: cs => (isAlphabetic c || c == '_') && cs.all isWordChar

end TaggedUnion
