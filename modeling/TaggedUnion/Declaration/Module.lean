import TaggedUnion.Declaration.Boxing
import TaggedUnion.Log.Event

/-!
# The generated module

The text of the module that declares the union: a fixed head, then one line for each variant. The
last line has no line end.
-/

namespace TaggedUnion

def moduleHead : String :=
  "pub mod compiler;\npub mod parser;\n\nuse super::token::\x7bToken, literal::Literal\x7d;\n" ++
    "use std::fmt::Debug;\n\n"

def derives : String :=
  "#[derive(Clone, Debug)]\n"

namespace UnionNames

def storedTypes (names : UnionNames) (v : Variant) : List String :=
  v.fields.zipIdx.map fun (field, position) => names.storedType position field

/-- The line that declares a variant. Without fields there are no parentheses. -/
def variantLine (names : UnionNames) (v : Variant) : String :=
  let arguments :=
    if v.fields.isEmpty then "" else "(" ++ ", ".intercalate (names.storedTypes v) ++ ")"
  "    " ++ v.name ++ arguments ++ ",\n"

def moduleText (names : UnionNames) (variants : List Variant) : String :=
  moduleHead ++ derives ++ "pub enum " ++ names.base ++ " \x7b\n" ++
    String.join (variants.map names.variantLine) ++ "\x7d"

/-- The fields of a variant whose type in the declaration is another one. -/
def boxingEvents (names : UnionNames) (v : Variant) : List Event :=
  v.fields.zipIdx.filterMap fun (field, position) =>
    if names.storedType position field = field then none
    else some (.fieldBoxed v.name position field)

def emissionEvents (names : UnionNames) (variants : List Variant) : List Event :=
  variants.flatMap names.boxingEvents ++
    [.unionEmitted names.base variants.length (names.moduleText variants).utf8ByteSize]

end UnionNames

def Schema.moduleText (s : Schema) (element : Option String) : String :=
  (UnionNames.make s.base element).moduleText s.variants

end TaggedUnion
