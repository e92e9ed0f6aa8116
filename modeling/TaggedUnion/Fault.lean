import TaggedUnion.Diagnostic
import TaggedUnion.Line.Token

/-!
# Faults

What can be wrong with a schema, each cause with the words and tokens that show it. The category
and the wording of the diagnostic follow from the cause.
-/

namespace TaggedUnion

inductive Cause where
  /-- The line has no token at all. -/
  | emptyLine
  | nameExpected (found : Token.Kind)
  | endsAfterName (variant : String)
  | secondWord (variant found : String)
  /-- Something other than a word or `|` follows the name of the variant. -/
  | delimiterExpected (variant : String) (found : Token.Kind)
  | emptyField (variant : String)
  /-- A `|` stands among the fields. -/
  | strayPipe (variant : String)
  /-- A bracket closes nothing, or another kind of bracket. -/
  | unmatched (bracket : Char) (variant : String)
  | unclosed (bracket : Char) (variant : String)
  | trailing (found : Token.Kind) (variant : String)
  | duplicate (variant : String) (firstLine : Nat)
  | badBase (name : String)
  | badElement (name : String)
  | noVariants (base : String)
  deriving DecidableEq, Repr

namespace Cause

def category : Cause → Category
  | emptyLine | strayPipe _ | trailing _ _ => .unexpectedToken
  | nameExpected _ | badBase _ | badElement _ => .invalidName
  | endsAfterName _ | secondWord _ _ | delimiterExpected _ _ => .missingDelimiter
  | emptyField _ => .emptyField
  | unmatched _ _ | unclosed _ _ => .unbalanced
  | duplicate _ _ => .duplicateVariant
  | noVariants _ => .emptyVariantList

def message : Cause → String
  | emptyLine => "Empty node specification"
  | nameExpected found => "Expected variant name, found " ++ found.describe
  | endsAfterName variant => s!"Expected '|' after variant '{variant}'"
  | secondWord variant found =>
    s!"Expected '|' after variant '{variant}'; a variant name must be a single identifier, found " ++
      (Token.Kind.word found).describe
  | delimiterExpected variant found =>
    s!"Expected '|' after variant '{variant}', found " ++ found.describe
  | emptyField variant => s!"Empty field in variant '{variant}'"
  | strayPipe variant => s!"Unexpected '|' in fields of variant '{variant}'"
  | unmatched bracket variant => s!"Unmatched '{bracket}' in variant '{variant}'"
  | unclosed bracket variant =>
    "Unclosed " ++ (Token.Kind.opener bracket).describe ++ s!" in variant '{variant}'"
  | trailing found variant => "Unexpected " ++ found.describe ++ s!" in variant '{variant}'"
  | duplicate variant firstLine =>
    s!"Duplicate variant '{variant}' (first declared on line {firstLine})"
  | badBase name => s!"Base type name '{name}' is not an identifier"
  | badElement name => s!"Element type name '{name}' is not an identifier"
  | noVariants base => s!"Schema for '{base}' declares no variants"

end Cause

/-- A cause, and the place it was found at. Faults of the schema as a whole have no place. -/
structure Fault where
  cause : Cause
  place : Option Place
  deriving DecidableEq, Repr

namespace Fault

def general (cause : Cause) : Fault :=
  ⟨cause, none⟩

def located (place : Place) (cause : Cause) : Fault :=
  ⟨cause, some place⟩

def diagnostic (f : Fault) : Diagnostic :=
  match f.place with
  | none => .general f.cause.category f.cause.message
  | some p => .located f.cause.category f.cause.message p.line p.column

end Fault

end TaggedUnion
