/-!
# Diagnostics

What a user is told about a faulty schema: a category, a text and, where there is one, a line and a
column. The place is part of the written form only if both of its numbers are known.
-/

namespace TaggedUnion

inductive Category where
  | missingDelimiter
  | emptyField
  | emptyVariantList
  | duplicateVariant
  | invalidName
  | unbalanced
  | unexpectedToken
  deriving DecidableEq, Repr

def Category.label : Category → String
  | missingDelimiter => "missing delimiter"
  | emptyField => "empty field"
  | emptyVariantList => "empty variant list"
  | duplicateVariant => "duplicate variant"
  | invalidName => "invalid name"
  | unbalanced => "unbalanced brackets"
  | unexpectedToken => "unexpected token"

def Category.advice : Category → String
  | missingDelimiter => "Write each node as: Name | Field1, Field2"
  | emptyField => "Every variant needs at least one field and no empty entries between commas."
  | emptyVariantList => "Add at least one 'Name | Fields' line to the schema."
  | duplicateVariant => "Variant names must be unique within a schema."
  | invalidName => "Names are identifiers: letters, digits and '_', not starting with a digit."
  | unbalanced => "Check that every '<', '(' and '[' in a field type is closed."
  | unexpectedToken => "Only one '|' is allowed per line; fields are separated by ','."

structure Diagnostic where
  category : Category
  text : String
  line : Option Nat
  column : Option Nat
  deriving DecidableEq, Repr

namespace Diagnostic

/-- A diagnostic about the schema as a whole. -/
def general (category : Category) (text : String) : Diagnostic :=
  ⟨category, text, none, none⟩

def located (category : Category) (text : String) (line column : Nat) : Diagnostic :=
  ⟨category, text, some line, some column⟩

def render (d : Diagnostic) : String :=
  match d.line, d.column with
  | some line, some column => s!"{d.text} at {line}:{column}"
  | _, _ => d.text

end Diagnostic

end TaggedUnion
