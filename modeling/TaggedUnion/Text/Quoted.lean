import TaggedUnion.Unicode.DefaultIgnorable
import TaggedUnion.Unicode.ExtendingMark

/-!
# Quoted texts

A text in quotes. Quotes, backslashes and control characters in it are escaped. A character that
could not be seen there is written by its code point: a mark, which would be drawn on the character
before it or on the quote, and a character that is drawn as nothing. Blanks other than these and
characters without a shape stand for themselves; names hold neither.
-/

namespace TaggedUnion.Text

open Unicode

/-- The character cannot be seen on its own. -/
def isUnseen (c : Char) : Bool :=
  isExtendingMark c || isDefaultIgnorable c || c.toNat < 32 || (127 ≤ c.toNat && c.toNat < 160)

def quotedChar : Char → List Char
  | '"' => ['\\', '"']
  | '\\' => ['\\', '\\']
  | '\t' => ['\\', 't']
  | '\n' => ['\\', 'n']
  | '\r' => ['\\', 'r']
  | '\x00' => ['\\', '0']
  | c => if isUnseen c then "\\u\x7b".toList ++ Nat.toDigits 16 c.toNat ++ ['\x7d'] else [c]

def quoted (text : String) : String :=
  "\"" ++ String.ofList (text.toList.flatMap quotedChar) ++ "\""

end TaggedUnion.Text
