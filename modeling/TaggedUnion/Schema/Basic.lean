import TaggedUnion.Line.Variant
import TaggedUnion.Unicode.Lowercase

/-!
# Schemas

A schema is the name of a union type and its variants in the order they were declared.
-/

namespace TaggedUnion

structure Schema where
  base : String
  variants : List Variant
  deriving DecidableEq, Repr

/-- The directory of the union's module: its name in lower case. -/
def Schema.moduleDir (s : Schema) : String :=
  Unicode.lowercase s.base

end TaggedUnion
