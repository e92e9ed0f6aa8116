import TaggedUnion.Proofs.Command.Modes
import TaggedUnion.Proofs.Declaration.Rereading
import TaggedUnion.Proofs.Text.LineEnds

/-!
# What a check accepts

A check compares the file of a module with the text it should have, line ends apart. The text of a
module has no carriage return before a line feed, also if the schema's own text has: the fields of a
variant end without blanks, and a closing bracket stands behind the last one. So a file passes
exactly if it is the text with some of its line feeds written as `\r\n`.
-/

namespace TaggedUnion

open Text

theorem UnionNames.plainEnds_moduleText {names : UnionNames} (hnames : names.Legal)
    {vs : List Variant} (h : ∀ v ∈ vs, v.OneLine) : PlainEnds (names.moduleText vs).toList := by
  have hhead : '\r' ∉ (moduleHead ++ derives).toList := by decide +kernel
  have hbrace : PlainEnds ['\x7d'] := plainEnds_of_return_notMem (by decide)
  rw [toList_moduleText h]
  apply (plainEnds_of_return_notMem hhead).append
  · exact plainEnds_flatMap_append (isLine_of_mem_rows hnames h) hbrace
  · intro hreturn
    exact absurd (List.mem_of_getLast? hreturn) hhead

theorem Schema.plainEnds_moduleText {base source : String} {s : Schema} {element : Option String}
    (hs : (Loading.ofSource base source).result = .ok s)
    (helement : ∀ e ∈ element, isIdentifier e = true) :
    PlainEnds (s.moduleText element).toList := by
  have hlines := Loading.oneLine_of_ofSource hs
  obtain ⟨hbase, -, vs, -, -, rfl⟩ := Loading.ofNumbered_eq_ok_iff.mp hs
  exact UnionNames.plainEnds_moduleText (UnionNames.legal_make hbase helement) hlines

namespace FileTree
variable {t : FileTree} {path text : String}

/-- A text is read from a file that holds its bytes, and from no other. -/
theorem readText_eq_ok_iff {x : String} :
    t.readText path = .ok x ↔ t.read path = .ok x.toUTF8 := by
  constructor
  · intro h
    unfold readText String.fromUTF8? at h
    cases hread : t.read path with
    | error why => simp [hread] at h
    | ok content =>
        rw [hread] at h
        dsimp only at h
        split_ifs at h with hvalid
        rw [← Except.ok.inj h]
        rfl
  · exact readText_of_read

/-- A file is up to date exactly if it holds a writing of the module's text. -/
theorem freshness_eq_upToDate_iff (htext : PlainEnds text.toList) :
    t.freshness path text = .ok .upToDate ↔
      ∃ x : String, t.read path = .ok x.toUTF8 ∧ WrittenAs text.toList x.toList := by
  simp only [← readText_eq_ok_iff, ← normalizeLineEnds_eq_iff htext]
  unfold freshness
  cases t.readText path with
  | ok x =>
      by_cases hsame : normalizeLineEnds x.toList = normalizeLineEnds text.toList
      · simp [Freshness.judge, hsame]
      · simp [Freshness.judge, hsame]
  | error why => cases why <;> simp [Freshness.judge]

theorem freshness_eq_stale (htext : PlainEnds text.toList) {x : String}
    (hread : t.read path = .ok x.toUTF8) (hx : ¬ WrittenAs text.toList x.toList) :
    t.freshness path text = .ok .stale := by
  rw [← normalizeLineEnds_eq_iff htext] at hx
  rw [freshness, readText_of_read hread, Freshness.judge, if_neg hx]

end FileTree

theorem Product.exit_checked_eq_zero_iff (p : Product) (events : List Event)
    (freshness : Except FileFault Freshness) :
    (p.checked events freshness).exit = 0 ↔ freshness = .ok .upToDate := by
  cases freshness with
  | error fault => simp [checked, Outcome.failed]
  | ok freshness => cases freshness <;> simp [checked]

namespace Options
variable {o : Options} {t : FileTree}

theorem names_eq_ok (helement : ∀ e ∈ o.element, isIdentifier e = true) :
    o.names = .ok (.make o.base o.element) := by
  unfold names
  cases he : o.element with
  | none => rfl
  | some e => simp [helement e he]

theorem preparation_of_ofSource {file source : String} {s : Schema}
    (hfile : o.schemaFile = some file) (hread : t.read file = .ok source.toUTF8)
    (hs : (Loading.ofSource o.base source).result = .ok s)
    (helement : ∀ e ∈ o.element, isIdentifier e = true) :
    (o.preparation t).result = .ok ⟨o.modulePath, s.moduleText o.element⟩ := by
  have hload := load_of_read hfile hread
  have hbase := (base_of_load hload hs).1
  simp only [preparation, prepare, hload, hs, names_eq_ok helement, Schema.modulePath,
    Schema.moduleDir, Schema.moduleText, hbase, modulePath]

end Options

/-- The text of a module has no carriage return before a line feed. The files that hold it with some
line feeds written as `\r\n` are up to date, other texts are out of date, and a run that checks the
module ends well exactly on those files. -/
theorem check_exact {base source : String} {s : Schema} {element : Option String}
    (hs : (Loading.ofSource base source).result = .ok s)
    (helement : ∀ e ∈ element, isIdentifier e = true) :
    let text := s.moduleText element
    ¬ ['\r', '\n'] <:+: text.toList ∧
      (∀ (t : FileTree) (path x : String), t.read path = .ok x.toUTF8 →
        (t.freshness path text = .ok .upToDate ↔ WrittenAs text.toList x.toList) ∧
          (¬ WrittenAs text.toList x.toList → t.freshness path text = .ok .stale)) ∧
      ∀ (o : Options) (c : FileTree.Circumstances) (t : FileTree) (file : String),
        o.base = base → o.element = element →
        o.mode = .check → o.schemaFile = some file → t.read file = .ok source.toUTF8 →
          ((o.run c t).1.exit = 0 ↔ ∃ x : String, t.read o.modulePath = .ok x.toUTF8 ∧
            WrittenAs text.toList x.toList) := by
  intro text
  have htext : PlainEnds text.toList := Schema.plainEnds_moduleText hs helement
  refine ⟨htext.not_infix, ?_, ?_⟩
  · intro t path x hread
    refine ⟨?_, FileTree.freshness_eq_stale htext hread⟩
    rw [FileTree.freshness_eq_upToDate_iff htext]
    constructor
    · intro ⟨x', hread', hwritten⟩
      have hsame := (FileTree.readText_of_read hread').symm.trans (FileTree.readText_of_read hread)
      rwa [Except.ok.inj hsame] at hwritten
    · intro hwritten
      exact ⟨x, hread, hwritten⟩
  · intro o c t file hbase hsame hmode hfile hread
    subst hbase hsame
    have hmade := Options.preparation_of_ofSource hfile hread hs helement
    rw [Options.run_check hmode hmade, Product.exit_checked_eq_zero_iff,
      FileTree.freshness_eq_upToDate_iff htext]

/-- A schema whose text has carriage returns in a field, behind it and before a line feed, and its
module, which has one before a line feed too. -/
def withReturns : FileTree :=
  ⟨[(["expr"], .directory), (["nodes"], .file "Asm | &\rExpr \r\r\n".toUTF8),
    (["expr", "mod.rs"], .file
      ("pub mod compiler;\npub mod parser;\n\n" ++
        "use super::token::\x7bToken, literal::Literal\x7d;\r\nuse std::fmt::Debug;\n\n" ++
        "#[derive(Clone, Debug)]\npub enum Expr \x7b\r\n    Asm(&\rExpr),\r\n\x7d").toUTF8)]⟩

theorem check_exact_withReturns :
    let source := "Asm | &\rExpr \r\r\n"
    let s : Schema := ⟨"Expr", [⟨"Asm", ["&\rExpr"]⟩]⟩
    let o : Options := ⟨"/", some "nodes", "Expr", none, .check⟩
    (Loading.ofSource "Expr" source).result = .ok s ∧
      withReturns.read "nodes" = .ok source.toUTF8 ∧ (o.run .plain withReturns).1.exit = 0 ∧
      ¬ ['\r', '\n'] <:+: (s.moduleText none).toList ∧
      ∃ x : String, withReturns.read o.modulePath = .ok x.toUTF8 ∧
        WrittenAs (s.moduleText none).toList x.toList := by
  intro source s o
  have hs : (Loading.ofSource "Expr" source).result = .ok s := by decide +kernel
  have hread : withReturns.read "nodes" = .ok source.toUTF8 := by decide +kernel
  have hexit : (o.run .plain withReturns).1.exit = 0 := by decide +kernel
  obtain ⟨hreturn, -, hrun⟩ := @check_exact _ _ _ none hs (by simp)
  have hpasses := hrun o .plain withReturns "nodes" rfl rfl rfl rfl hread
  exact ⟨hs, hread, hexit, hreturn, hpasses.mp hexit⟩

end TaggedUnion
