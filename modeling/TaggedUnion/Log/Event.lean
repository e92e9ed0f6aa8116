import TaggedUnion.Log.Level
import TaggedUnion.Schema.Loading
import TaggedUnion.Text.Quoted

/-!
# Events of the log

What the log tells about a run: each node as it is read, the schema when it is complete, the names
that are generated for, each field that is boxed, the finished module and its file.
-/

namespace TaggedUnion

inductive Event where
  | nodeRead (line : Nat) (variant : String) (fields : Nat)
  | schemaRead (base : String) (variants : Nat)
  | generating (base element : String)
  | fieldBoxed (variant : String) (position : Nat) (field : String)
  | unionEmitted (base : String) (variants bytes : Nat)
  | moduleWritten (path : String) (bytes : Nat)
  deriving DecidableEq, Repr

namespace Event

def level : Event → Level
  | nodeRead .. | fieldBoxed .. => .trace
  | schemaRead .. | generating .. | unionEmitted .. => .debug
  | moduleWritten .. => .info

def message : Event → String
  | nodeRead line variant fields =>
    s!"parsed node spec line={line} variant={variant} fields={fields}"
  | schemaRead base variants => "parsed schema base=" ++ Text.quoted base ++ s!" variants={variants}"
  | generating base element => s!"generating base={base} element={element}"
  | fieldBoxed variant position field =>
    s!"boxed field variant={variant} position={position} field={field}"
  | unionEmitted base variants bytes => s!"emitted union base={base} variants={variants} bytes={bytes}"
  | moduleWritten path bytes => s!"wrote module path={path} bytes={bytes}"

/-- The line of the log, without the time that can stand before it. -/
def render (e : Event) : String :=
  e.level.tag ++ " " ++ e.message ++ "\n"

end Event

def Loading.events (l : Loading) : List Event :=
  let read := l.declared.map fun d => .nodeRead d.line d.variant.name d.variant.fields.length
  match l.result with
  | .ok schema => read ++ [.schemaRead schema.base schema.variants.length]
  | .error _ => read

end TaggedUnion
