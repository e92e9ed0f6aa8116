import TaggedUnion.Schema.Basic

/-!
# Paths

Paths are texts with components divided by `/`. They are kept as they were given: nothing here
resolves a `..` or asks whether anything exists. In the parent of a path, empty components and `.`
do not count, except for a `.` at the start of a path.
-/

namespace TaggedUnion.Path

/-- Puts one `/` between two paths unless the first is empty or ends in one. A second path that
starts with `/` stands alone. -/
def joinChars (left right : List Char) : List Char :=
  if right.head? = some '/' then right
  else if left = [] ∨ left.getLast? = some '/' then left ++ right
  else left ++ '/' :: right

def join (left right : String) : String :=
  String.ofList (joinChars left.toList right.toList)

def components : List Char → List (List Char)
  | [] => [[]]
  | c :: cs =>
    if c = '/' then [] :: components cs
    else
      match components cs with
      | [] => [[c]]
      | p :: ps => (c :: p) :: ps

/-- The components of a path that are not empty. -/
def names (path : String) : List String :=
  ((components path.toList).filter (· ≠ [])).map String.ofList

/-- A path as its start, which is `/`, `.` or nothing, and the components behind it. -/
structure Parts where
  start : List Char
  components : List (List Char)
  deriving DecidableEq, Repr

def parts : List Char → Parts
  | '/' :: r => ⟨['/'], components r⟩
  | ['.'] => ⟨['.'], []⟩
  | '.' :: '/' :: r => ⟨['.'], components ('/' :: r)⟩
  | p => ⟨[], components p⟩

def isIdle (component : List Char) : Bool :=
  component == [] || component == ['.']

/-- The path of a start and components, the last of which comes first. -/
def ofReversed (start : List Char) (reversed : List (List Char)) : String :=
  String.ofList (start ++ ['/'].intercalate reversed.reverse)

/-- The path of a start and reversed components, without what leads nowhere at its end, and then
those of the directories above it, nearest first. -/
def upwardFrom (start : List Char) : List (List Char) → List String
  | [] => []
  | c :: above =>
    if isIdle c then upwardFrom start above
    else ofReversed start (c :: above) :: upwardFrom start above

def upward (path : String) : List String :=
  let p := parts path.toList
  upwardFrom p.start p.components.reverse

def parent? (path : String) : Option String :=
  let p := parts path.toList
  match p.components.reverse.dropWhile isIdle with
  | [] => if p.start = ['.'] then some "" else none
  | _ :: above => some (ofReversed p.start (above.dropWhile isIdle))

/-- The directory a file is in; `.` for a bare file name. -/
def directory (path : String) : String :=
  match parent? path with
  | none => "."
  | some dir => if dir.isEmpty then "." else dir

end TaggedUnion.Path

namespace TaggedUnion

def Schema.modulePath (s : Schema) (outDir : String) : String :=
  Path.join (Path.join outDir s.moduleDir) "mod.rs"

end TaggedUnion
