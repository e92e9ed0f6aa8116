import TaggedUnion.Proofs.Command.Modes
import TaggedUnion.Proofs.Line.Guarded
import TaggedUnion.Proofs.Schema.FaultPlaces

/-!
# Loading and reporting by guarded steps

Reading by position is carried on to whole schemas and to reports. The column of a name that is
declared twice is counted in what stands before its first occurrence, which is cut out of the line
at a byte position. A report takes one from the number of a line, and from a column if it is not the
first. All of these steps can fail, too, and then there is nothing to be had.

They do not fail, whatever the schema.
-/

namespace TaggedUnion

open Text Unicode

namespace Text

/-- How many bytes stand before the first occurrence of `needle`. -/
def firstOffset (needle : List Char) : List Char → Option Nat
  | [] => if needle.isEmpty then some 0 else none
  | c :: cs =>
    if needle.isPrefixOf (c :: cs) then some 0
    else (firstOffset needle cs).map (· + c.utf8Size)

/-- Counting bytes or characters, the search ends in the same place. -/
theorem exists_firstOffset {needle cs : List Char} {n : Nat}
    (h : firstOccurrence needle cs = some n) :
    ∃ a b, cs = a ++ b ∧ a.length = n ∧ firstOffset needle cs = some (byteLength a) := by
  induction cs generalizing n with
  | nil =>
      rw [firstOccurrence] at h
      split_ifs at h with hempty
      obtain rfl := Option.some.inj h
      exact ⟨[], [], rfl, rfl, by rw [firstOffset, if_pos hempty]; rfl⟩
  | cons c cs ih =>
      rw [firstOccurrence] at h
      split_ifs at h with hhere
      · obtain rfl := Option.some.inj h
        exact ⟨[], c :: cs, rfl, rfl, by rw [firstOffset, if_pos hhere]; rfl⟩
      · obtain ⟨m, hm, rfl⟩ := Option.map_eq_some_iff.mp h
        obtain ⟨a, b, rfl, rfl, hoffset⟩ := ih hm
        refine ⟨c :: a, b, rfl, rfl, ?_⟩
        rw [firstOffset, if_neg hhere, hoffset, Option.map_some, byteLength, Nat.add_comm]

theorem slice?_start (a b : List Char) : slice? 0 (byteLength a) (a ++ b) = some a := by
  have hcut : cut 0 (byteLength a) (a ++ b) = a := by
    simpa [byteLength] using cut_append [] a b
  rw [slice?, if_pos ⟨Nat.zero_le _, ⟨[], a ++ b, rfl, rfl⟩, ⟨a, b, rfl, rfl⟩⟩, hcut]

theorem IsBoundary.le {n : Nat} {text : String} (h : IsBoundary n text.toList) :
    n ≤ text.utf8ByteSize := by
  obtain ⟨a, b, htext, rfl⟩ := h
  rw [← byteLength_toList, htext, byteLength_append]
  exact Nat.le_add_right _ _

end Text

namespace Guarded

def nameColumn (name line : String) : Option Nat := do
  let offset ← firstOffset name.toList line.toList
  let before ← slice? 0 offset line.toList
  return before.length + 1

def declare (seen : List Declared) (l : NumberedLine) : Option (Except Fault Declared) := do
  match ← parse l.number l.text with
  | .error e => return .error e
  | .ok v =>
    match seen.find? fun d => d.variant.name == v.name with
    | some d =>
      let column ← nameColumn v.name l.text
      return .error (.located ⟨l.number, column⟩ (.duplicate v.name d.line))
    | none => return .ok ⟨l.number, v⟩

def collect (seen : List Declared) : List NumberedLine → Option (List Declared × Option Fault)
  | [] => return ([], none)
  | l :: ls => do
    match ← declare seen l with
    | .error e => return ([], some e)
    | .ok d =>
      let (ds, fault) ← collect (d :: seen) ls
      return (d :: ds, fault)

def ofNumbered (base : String) (ls : List NumberedLine) : Option Loading := do
  if isIdentifier base then
    let (declared, fault) ← collect [] ls
    match fault with
    | some e => return ⟨declared, .error e⟩
    | none =>
      if declared.isEmpty then return ⟨[], .error (.general (.noVariants base))⟩
      else return ⟨declared, .ok ⟨base, declared.map (·.variant)⟩⟩
  else return ⟨[], .error (.general (.badBase base))⟩

def ofLines (base : String) (texts : List String) : Option Loading :=
  ofNumbered base (NumberedLine.ofLines texts)

def ofSource (base source : String) : Option Loading :=
  ofNumbered base (NumberedLine.ofSource source)

def oneLess : Nat → Option Nat
  | 0 => none
  | n + 1 => some n

/-- How far the mark is moved below a line. Nothing is taken from the first column. -/
def indent (column : Nat) : Option Nat :=
  if 1 < column then oneLess column else some 0

def pointer (d : Diagnostic) (source : String) : Option String :=
  match d.line, d.column with
  | some line, some column => do
    let arrow := s!"  --> line {line}, column {column}\n"
    let index ← oneLess line
    match (lines source.toList)[index]? with
    | none => return arrow
    | some text =>
      let moved ← indent column
      return arrow ++ Diagnostic.excerpt line (moved + 1) (String.ofList text)
  | _, _ => return ""

theorem nameColumn_of_parse {line : Nat} {text : String} {v : Variant}
    (h : Variant.parse line text = .ok v) :
    nameColumn v.name text = some (TaggedUnion.nameColumn v.name text) := by
  have hfound := firstOccurrence_of_parse h
  obtain ⟨a, b, htext, hlength, hoffset⟩ := exists_firstOffset hfound
  have hslice : slice? 0 (byteLength a) text.toList = some a := by
    rw [htext]
    exact slice?_start a b
  simp only [nameColumn, hoffset, Option.bind_eq_bind, Option.bind_some, hslice,
    TaggedUnion.nameColumn, hfound, Option.getD_some, hlength]
  rfl

theorem declare_eq (seen : List Declared) (l : NumberedLine) :
    declare seen l = some (TaggedUnion.declare seen l) := by
  rw [declare, parse_eq, Option.bind_eq_bind, Option.bind_some]
  cases hv : Variant.parse l.number l.text with
  | error e =>
      rw [declare_of_error hv]
      rfl
  | ok v =>
      cases hfind : seen.find? fun d => d.variant.name == v.name with
      | some d =>
          rw [declare_of_found hv hfind]
          simp only [hfind, nameColumn_of_parse hv]
          rfl
      | none =>
          have hfresh : ∀ d ∈ seen, d.variant.name ≠ v.name := by simpa using hfind
          rw [declare_of_fresh hv hfresh]
          simp only [hfind]
          rfl

theorem collect_eq (seen : List Declared) (ls : List NumberedLine) :
    collect seen ls = some (TaggedUnion.collect seen ls) := by
  induction ls generalizing seen with
  | nil => rfl
  | cons l ls ih =>
      rw [collect, declare_eq, Option.bind_eq_bind, Option.bind_some]
      cases hd : TaggedUnion.declare seen l with
      | error e =>
          rw [collect_cons_error hd]
          rfl
      | ok d =>
          rw [collect_cons_ok hd]
          simp only [ih]
          rfl

theorem ofNumbered_eq (base : String) (ls : List NumberedLine) :
    ofNumbered base ls = some (Loading.ofNumbered base ls) := by
  rw [ofNumbered, Loading.ofNumbered]
  split_ifs
  · rw [collect_eq]
    obtain ⟨declared, fault⟩ := TaggedUnion.collect [] ls
    cases fault with
    | some e => rfl
    | none =>
        cases declared with
        | nil => rfl
        | cons d ds => rfl
  · rfl

theorem oneLess_of_pos {n : Nat} (h : 0 < n) : oneLess n = some (n - 1) := by
  cases n with
  | zero => exact absurd h (Nat.lt_irrefl 0)
  | succ n => rfl

theorem indent_eq (column : Nat) : indent column = some (column - 1) := by
  unfold indent
  split_ifs with hone
  · exact oneLess_of_pos (by omega)
  · rw [Nat.sub_eq_zero_of_le (by omega)]

/-- A diagnostic whose lines are counted from one can always be pointed to. -/
theorem pointer_eq {d : Diagnostic} (h : ∀ line ∈ d.line, 0 < line) (source : String) :
    pointer d source = some (d.pointer source) := by
  rw [pointer, Diagnostic.pointer]
  cases hline : d.line with
  | none => rfl
  | some line =>
      cases hcolumn : d.column with
      | none => rfl
      | some column =>
          have hindex := oneLess_of_pos (h line hline)
          simp only [hindex, indent_eq, Option.bind_eq_bind, Option.bind_some]
          cases (lines source.toList)[line - 1]? with
          | none => simp
          | some text => simp [Diagnostic.excerpt]

/-- Faults of numbered lines can be pointed to, since lines are counted from one. -/
theorem pointer_of_ofNumbered {base : String} {ls : List NumberedLine} {e : Fault}
    (hls : ∀ l ∈ ls, 0 < l.number) (h : (Loading.ofNumbered base ls).result = .error e)
    (shown : String) : pointer e.diagnostic shown = some (e.diagnostic.pointer shown) := by
  apply pointer_eq
  rcases Loading.ofNumbered_eq_error_cases h with
    ⟨-, hplace⟩ | ⟨-, l, before, after, ds, rfl, -, herror⟩
  · simp [Fault.diagnostic, hplace, Diagnostic.general]
  · obtain ⟨column, hplace, -⟩ := declare_error_pointsInto herror
    simpa [Fault.diagnostic, hplace, Diagnostic.located] using hls l (by simp)

theorem number_pos_ofLines {texts : List String} :
    ∀ l ∈ NumberedLine.ofLines texts, 0 < l.number := by
  intro l hl
  obtain ⟨i, hi⟩ := List.mem_iff_getElem?.mp hl
  rw [NumberedLine.getElem?_ofLines] at hi
  obtain ⟨text, -, rfl⟩ := Option.map_eq_some_iff.mp hi
  exact Nat.succ_pos i

theorem number_pos_ofSource {source : String} : ∀ l ∈ NumberedLine.ofSource source, 0 < l.number :=
  fun _ hl => (NumberedLine.mem_ofSource_iff.mp hl).1

section Runs
variable {o : Options} {file : Option (String × Except Refusal String)} {e : Fault}
  {source : String}

theorem pointer_of_load {loading : Loading} (hload : o.load file = .ok (loading, source))
    (h : loading.result = .error e) (shown : String) :
    pointer e.diagnostic shown = some (e.diagnostic.pointer shown) := by
  unfold Options.load at hload
  split at hload
  · obtain ⟨rfl, -⟩ := Prod.mk.inj (Except.ok.inj hload)
    exact pointer_of_ofNumbered number_pos_ofLines h shown
  · simp at hload
  · obtain ⟨rfl, -⟩ := Prod.mk.inj (Except.ok.inj hload)
    exact pointer_of_ofNumbered number_pos_ofSource h shown

theorem pointer_of_prepare (h : (o.prepare file).result = .error (.schema e source)) :
    pointer e.diagnostic source = some (e.diagnostic.pointer source) := by
  unfold Options.prepare at h
  cases hload : o.load file with
  | error failure =>
      obtain rfl : failure = .schema e source := by simpa [hload] using h
      unfold Options.load at hload
      split at hload <;> simp at hload
  | ok loaded =>
      obtain ⟨loading, text⟩ := loaded
      cases hfault : loading.result with
      | error fault =>
          obtain ⟨rfl, rfl⟩ : fault = e ∧ text = source := by simpa [hload, hfault] using h
          exact pointer_of_load hload hfault text
      | ok schema =>
          cases hnames : o.names with
          | ok names => simp [hload, hfault, hnames] at h
          | error failure =>
              -- the name of the element type, which has no place in the schema
              obtain rfl : failure = .schema e source := by simpa [hload, hfault, hnames] using h
              unfold Options.names at hnames
              split at hnames
              · simp at hnames
              · split_ifs at hnames
                obtain ⟨rfl, rfl⟩ := Failure.schema.inj (Except.error.inj hnames)
                rfl

end Runs

/-- No step of loading a schema or of pointing to a fault fails. A field that is read is cut out of
its line between characters, and is not empty. -/
theorem never_stuck :
    (∀ (line : Nat) (text variant : String) (before ahead rest : List Token) (s : Span),
      (Scanner.start line text).tokens = before ++ ahead →
      Grammar.field (Scanner.start line text).final variant ahead = .ok s rest →
        s.start < s.stop ∧ s.stop ≤ text.utf8ByteSize ∧ IsBoundary s.start text.toList ∧
          IsBoundary s.stop text.toList) ∧
    (∀ (base : String) (texts : List String),
      ofLines base texts = some (Loading.ofLines base texts) ∧
        ∀ e shown, (Loading.ofLines base texts).result = .error e →
          pointer e.diagnostic shown = some (e.diagnostic.pointer shown)) ∧
    (∀ base source : String,
      ofSource base source = some (Loading.ofSource base source) ∧
        ∀ e shown, (Loading.ofSource base source).result = .error e →
          pointer e.diagnostic shown = some (e.diagnostic.pointer shown)) ∧
    ∀ (o : Options) (file : Option (String × Except Refusal String)) (e : Fault) (source : String),
      (o.prepare file).result = .error (.schema e source) →
        pointer e.diagnostic source = some (e.diagnostic.pointer source) := by
  refine ⟨?_, ?_, ?_, ?_⟩
  · intro line text variant before ahead rest s hall hfield
    obtain ⟨hproper, hstart, hstop⟩ := span_of_field hall hfield
    exact ⟨hproper, hstop.le, hstart, hstop⟩
  · intro base texts
    exact ⟨ofNumbered_eq base _, fun e shown h => pointer_of_ofNumbered number_pos_ofLines h shown⟩
  · intro base source
    exact ⟨ofNumbered_eq base _, fun e shown h => pointer_of_ofNumbered number_pos_ofSource h shown⟩
  · intro o file e source h
    exact pointer_of_prepare h

/-- Characters of two and three bytes, in a field and before a name that is declared twice. -/
theorem never_stuck_wide :
    let text := "é | 日<本>"
    let tokens := (Scanner.start 1 text).tokens
    let final := (Scanner.start 1 text).final
    let source := "é | 日<本>\n# é\n\u3000é | A\n"
    let o : Options := ⟨"gen", some "nodes", "Expr", none, .print⟩
    let e : Fault := .located ⟨3, 2⟩ (.duplicate "é" 1)
    (Grammar.field final "é" (tokens.drop 2) = .ok ⟨5, 13⟩ [] ∧ 5 < 13 ∧ 13 ≤ text.utf8ByteSize ∧
      IsBoundary 5 text.toList ∧ IsBoundary 13 text.toList ∧ ¬ IsBoundary 6 text.toList) ∧
    ((Loading.ofLines "Expr" ["é |", text]).result = .error (.located ⟨1, 4⟩ (.emptyField "é")) ∧
      ofLines "Expr" ["é |", text] = some (Loading.ofLines "Expr" ["é |", text])) ∧
    ((Loading.ofSource "Expr" source).result = .error e ∧
      ofSource "Expr" source = some (Loading.ofSource "Expr" source)) ∧
    (o.prepare (some ("nodes", .ok source))).result = .error (.schema e source) ∧
      pointer e.diagnostic source = some (e.diagnostic.pointer source) := by
  intro text tokens final source o e
  obtain ⟨hfields, hlines, hsources, hruns⟩ := never_stuck
  have hbody : Grammar.IsBody (tokens.drop 2) := ⟨by decide +kernel, by decide +kernel⟩
  have hcover : ⟨5, 13⟩ = Token.cover (tokens.drop 2) := by decide +kernel
  have hfield : Grammar.field final "é" (tokens.drop 2) = .ok ⟨5, 13⟩ [] :=
    Grammar.field_eq_ok_iff.mpr ⟨tokens.drop 2, by simp, hbody, by simp [Grammar.Stops], hcover⟩
  have hall : tokens = tokens.take 2 ++ tokens.drop 2 := (List.take_append_drop 2 tokens).symm
  obtain ⟨hproper, hstop, hstart, hend⟩ := hfields 1 text "é" _ _ _ _ hall hfield
  have hinside : ¬ IsBoundary 6 text.toList := by decide +kernel
  have hlate : (Loading.ofSource "Expr" source).result = .error e := by decide +kernel
  have hearly : (Loading.ofLines "Expr" ["é |", text]).result =
      .error (.located ⟨1, 4⟩ (.emptyField "é")) := by decide +kernel
  have hprepared : (o.prepare (some ("nodes", .ok source))).result = .error (.schema e source) := by
    simp only [Options.prepare, Options.load, o, hlate]
  exact ⟨⟨hfield, hproper, hstop, hstart, hend, hinside⟩, ⟨hearly, (hlines _ _).1⟩,
    ⟨hlate, (hsources _ _).1⟩, hprepared, hruns o _ e source hprepared⟩

end Guarded

end TaggedUnion
