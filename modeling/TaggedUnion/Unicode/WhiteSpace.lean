import TaggedUnion.Unicode.Ranges

/-!
# White space

The property White_Space of the Unicode character database, version 17.0. The zero width space, the
byte order mark and the Mongolian vowel separator do not have it.
-/

namespace TaggedUnion.Unicode

/-- Code points with the property White_Space. -/
def whiteSpace : Ranges :=
  [(0x9, 0xD), (0x20, 0x20), (0x85, 0x85), (0xA0, 0xA0), (0x1680, 0x1680), (0x2000, 0x200A),
   (0x2028, 0x2029), (0x202F, 0x202F), (0x205F, 0x205F), (0x3000, 0x3000)]

def isWhite (c : Char) : Bool :=
  whiteSpace.covers c

end TaggedUnion.Unicode
