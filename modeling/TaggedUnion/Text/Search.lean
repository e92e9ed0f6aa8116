/-!
# Searching in a text
-/

namespace TaggedUnion.Text

/-- How many characters stand before the first occurrence of `needle`. -/
def firstOccurrence (needle : List Char) : List Char → Option Nat
  | [] => if needle.isEmpty then some 0 else none
  | c :: cs =>
    if needle.isPrefixOf (c :: cs) then some 0
    else (firstOccurrence needle cs).map (· + 1)

end TaggedUnion.Text
