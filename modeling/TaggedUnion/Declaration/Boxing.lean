/-!
# Boxed fields

A type cannot hold itself directly, so a field of the union's own type is boxed. So is a leading
field of the element type. A field is compared with the type names as a whole: `Vec<Expr>` is not
`Expr`, and is stored in place.
-/

namespace TaggedUnion

/-- The names that decide about boxing: the union's own, and that of its elements. -/
structure UnionNames where
  base : String
  element : String
  deriving DecidableEq, Repr

/-- Without an element type of its own, a union is its own element type. -/
def UnionNames.make (base : String) (element : Option String) : UnionNames :=
  ⟨base, element.getD base⟩

inductive BoxReason where
  | leadingElement
  | selfReference
  deriving DecidableEq, Repr

namespace BoxReason

def all : List BoxReason :=
  [leadingElement, selfReference]

/-- Positions count from zero. -/
def applies (names : UnionNames) (position : Nat) (field : String) : BoxReason → Bool
  | leadingElement => position == 0 && field == names.element
  | selfReference => field == names.base

end BoxReason

inductive Storage where
  | inPlace
  | boxed
  deriving DecidableEq, Repr

namespace UnionNames

def reasons (names : UnionNames) (position : Nat) (field : String) : List BoxReason :=
  BoxReason.all.filter (BoxReason.applies names position field)

def storage (names : UnionNames) (position : Nat) (field : String) : Storage :=
  if (names.reasons position field).isEmpty then .inPlace else .boxed

def storedType (names : UnionNames) (position : Nat) (field : String) : String :=
  match names.storage position field with
  | .inPlace => field
  | .boxed => "Box<" ++ field ++ ">"

end UnionNames

end TaggedUnion
