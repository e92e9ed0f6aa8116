import TaggedUnion.Proofs.Command.Modes
import TaggedUnion.Proofs.Schema.FaultPlaces
import TaggedUnion.Proofs.Text.Lines

/-!
# What a report points at

The report on a fault shows the line it was found in, behind a margin with the line's number, and a
`^` below the column. The margin grows with the number, and the mark is moved by the same width, so
the two stay aligned for all numbers. Colours are taken out of account: an escape character and what
follows it up to an `m` take no room.
-/

namespace TaggedUnion

open Text

/-- A text without its colours. Within a colour, everything up to the next `m` is hidden. -/
def uncoloured (hidden : Bool) : List Char → List Char
  | [] => []
  | c :: cs =>
    if hidden then uncoloured (c != 'm') cs
    else if c = '\x1b' then uncoloured true cs
    else c :: uncoloured false cs

theorem uncoloured_append {a : List Char} (h : '\x1b' ∉ a) (b : List Char) :
    uncoloured false (a ++ b) = a ++ uncoloured false b := by
  induction a with
  | nil => rfl
  | cons c a ih =>
      have hc : c ≠ '\x1b' := fun hc => h (by simp [hc])
      simp [uncoloured, hc, ih fun ha => h (by simp [ha])]

theorem uncoloured_hidden {code : List Char} (h : 'm' ∉ code) (b : List Char) :
    uncoloured true (code ++ 'm' :: b) = uncoloured false b := by
  induction code with
  | nil => rfl
  | cons c code ih =>
      have hc : (c != 'm') = true := by
        rw [bne_iff_ne]
        exact fun hc => h (by simp [hc])
      rw [List.cons_append, uncoloured, if_pos rfl, hc, ih fun hm => h (by simp [hm])]

theorem notMem_toDigits {c : Char} (hc : c.isDigit = false) (n : Nat) : c ∉ Nat.toDigits 10 n := by
  intro hmem
  have hdigit := Nat.isDigit_of_mem_toDigits (by decide) (by decide) hmem
  rw [hc] at hdigit
  exact Bool.false_ne_true hdigit

namespace Style

theorem toList_colour (code : Nat) (text : String) : (colour code text).toList =
    '\x1b' :: ('[' :: Nat.toDigits 10 code ++ 'm' :: (text.toList ++
      ['\x1b', '[', '3', '9', 'm'])) := by
  change ("\x1b[" ++ toString code ++ "m" ++ text ++ "\x1b[39m").toList = _
  simp

/-- A colour takes no room. -/
theorem uncoloured_colour (code : Nat) {text : String} (h : '\x1b' ∉ text.toList)
    (b : List Char) :
    uncoloured false ((colour code text).toList ++ b) = text.toList ++ uncoloured false b := by
  have hcode : 'm' ∉ '[' :: Nat.toDigits 10 code := by
    simp [notMem_toDigits (show 'm'.isDigit = false from rfl) code]
  have hchars : (colour code text).toList ++ b = '\x1b' :: ('[' :: Nat.toDigits 10 code ++
      'm' :: (text.toList ++ '\x1b' :: (['[', '3', '9'] ++ 'm' :: b))) := by
    simp [toList_colour]
  have hescape : ∀ cs, uncoloured false ('\x1b' :: cs) = uncoloured true cs := fun cs => rfl
  rw [hchars, hescape, uncoloured_hidden hcode, uncoloured_append h, hescape,
    uncoloured_hidden (by decide)]

theorem newline_notMem_colour (code : Nat) {text : String} (h : '\n' ∉ text.toList) :
    '\n' ∉ (colour code text).toList := by
  simp [toList_colour, notMem_toDigits (show '\n'.isDigit = false from rfl) code, h]

end Style

theorem toList_gutter (number : Nat) : (gutter number).toList =
    List.replicate (3 - (toString number).length) ' ' ++ (toString number).toList ++
      [' ', '|', ' '] := by
  simp [gutter, blanks]

theorem notMem_gutter {c : Char} (hdigit : c.isDigit = false) (hblank : c ≠ ' ') (hbar : c ≠ '|')
    (number : Nat) : c ∉ (gutter number).toList := by
  rw [toList_gutter]
  simp [notMem_toDigits hdigit number, hblank, hbar]

/-- A character that occurs once is found in one position. -/
theorem getElem?_eq_some_iff_of_notMem {a b : List Char} {c : Char} (ha : c ∉ a) (hb : c ∉ b)
    (i : Nat) : (a ++ c :: b)[i]? = some c ↔ i = a.length := by
  constructor
  · intro h
    by_contra hne
    rcases Nat.lt_or_gt_of_ne hne with hlt | hgt
    · rw [List.getElem?_append_left hlt] at h
      exact ha (List.mem_of_getElem? h)
    · obtain ⟨k, rfl⟩ := Nat.exists_eq_add_of_lt hgt
      rw [List.getElem?_append_right (by omega), show a.length + k + 1 - a.length = k + 1 by omega,
        List.getElem?_cons_succ] at h
      exact hb (List.mem_of_getElem? h)
  · rintro rfl
    simp

/-- The report shows the line behind a margin with its number, and on the next line its only `^`,
colours apart, below the column. -/
def ShowsMarked (report : String) (number column : Nat) (line : List Char) : Prop :=
  ∃ before margin mark after : List Char,
    report.toList = before ++ '\n' :: (margin ++ line ++ '\n' :: (mark ++ '\n' :: after)) ∧
      '\n' ∉ margin ++ line ∧ '\n' ∉ mark ∧
      uncoloured false margin = List.replicate (3 - (toString number).length) ' ' ++
        (toString number).toList ++ [' ', '|', ' '] ∧
      ∀ i, (uncoloured false mark)[i]? = some '^' ↔
        i = (uncoloured false margin ++ line.take (column - 1)).length

namespace Diagnostic

def mark (number column : Nat) : String :=
  Style.red (blanks ((gutter number).length + (column - 1)) ++ "^") ++ Style.red " error here"

theorem uncoloured_mark (number column : Nat) : uncoloured false (mark number column).toList =
    List.replicate ((gutter number).length + (column - 1)) ' ' ++ '^' :: " error here".toList := by
  have hblanks : '\x1b' ∉ (blanks ((gutter number).length + (column - 1)) ++ "^").toList := by
    simp [blanks]
  have htext : uncoloured false (Style.colour 31 " error here").toList = " error here".toList := by
    decide +kernel
  rw [mark, String.toList_append, Style.red, Style.red, Style.uncoloured_colour _ hblanks, htext]
  simp [blanks]

theorem exists_report_eq {d : Diagnostic} {source : String} {number column : Nat}
    {line : List Char} (hnumber : d.line = some number) (hcolumn : d.column = some column)
    (hline : (lines source.toList)[number - 1]? = some line) :
    ∃ before after, (d.report source).toList = before ++ '\n' ::
      ((Style.grey (gutter number)).toList ++ line ++ '\n' ::
        ((mark number column).toList ++ '\n' :: after)) := by
  have hpointer : d.pointer source = s!"  --> line {number}, column {column}\n" ++ ("     |" ++
      "\n" ++ Style.grey (gutter number) ++ String.ofList line ++ "\n" ++ mark number column ++
        "\n     |\n") := by
    simp only [pointer, hnumber, hcolumn, hline, excerpt, mark, String.append_assoc]
    rfl
  rw [report, hpointer]
  generalize s!"  --> line {number}, column {column}\n" = arrow
  generalize Style.bold (Style.red "Schema error") ++ s!" [{d.category.label}]: " = head
  refine ⟨(head ++ Style.red d.text ++ "\n" ++ arrow ++ "     |").toList,
    ("     |\n" ++ Style.yellow ("Help: " ++ d.category.advice) ++ "\n").toList, ?_⟩
  simp

theorem showsMarked_report {d : Diagnostic} {source : String} {number column : Nat}
    {line : List Char} (hnumber : d.line = some number) (hcolumn : d.column = some column)
    (hline : (lines source.toList)[number - 1]? = some line) (hle : column ≤ line.length + 1) :
    ShowsMarked (d.report source) number column line := by
  have hmargin : uncoloured false (Style.grey (gutter number)).toList = (gutter number).toList := by
    have hescape : '\x1b' ∉ (gutter number).toList :=
      notMem_gutter (by decide) (by decide) (by decide) number
    have hshown := Style.uncoloured_colour 90 hescape []
    rwa [List.append_nil, uncoloured, List.append_nil] at hshown
  have hfeed : '\n' ∉ (gutter number).toList :=
    notMem_gutter (by decide) (by decide) (by decide) number
  obtain ⟨before, after, hreport⟩ := exists_report_eq hnumber hcolumn hline
  refine ⟨before, _, _, after, hreport, ?_, ?_, ?_, ?_⟩
  · rw [List.mem_append, not_or]
    refine ⟨Style.newline_notMem_colour 90 hfeed, ?_⟩
    exact newline_notMem_of_mem_lines line (List.mem_of_getElem? hline)
  · rw [mark, String.toList_append, List.mem_append, not_or]
    refine ⟨Style.newline_notMem_colour 31 ?_, Style.newline_notMem_colour 31 (by decide)⟩
    simp [blanks]
  · rw [hmargin, toList_gutter]
  · intro i
    rw [uncoloured_mark, hmargin, getElem?_eq_some_iff_of_notMem (by simp) (by decide)]
    have htake : (line.take (column - 1)).length = column - 1 := by
      rw [List.length_take]
      omega
    rw [List.length_append, htake, List.length_replicate, String.length_toList]

end Diagnostic

/-- On the error stream, the report comes behind the log. -/
theorem Outcome.exists_errors_failed (events : List Event) (failure : Failure) (w : Wording)
    (threshold : Threshold) :
    ∃ logged, (failed events failure).errors w threshold = logged ++ failure.report := by
  refine ⟨String.join ((events.map Note.event).map (Note.errors w threshold)), ?_⟩
  simp [errors, failed, Note.errors]

namespace Options

theorem run_of_ofSource_error {o : Options} {c : FileTree.Circumstances} {t : FileTree}
    {file source : String} {e : Fault}
    (hfile : o.schemaFile = some file) (hread : t.read file = .ok source.toUTF8)
    (h : (Loading.ofSource o.base source).result = .error e) :
    o.run c t = (.failed (Loading.ofSource o.base source).events (.schema e source), t) := by
  have hprepared : o.preparation t =
      ⟨(Loading.ofSource o.base source).events, .error (.schema e source)⟩ := by
    simp only [preparation, prepare, load_of_read hfile hread, h]
  rw [run_of_error (congrArg Preparation.result hprepared), hprepared]

end Options

/-- A fault without a place concerns the name of the union or a text without node lines. Any other
points into the first node line that cannot be declared, at a token or behind the last character,
and the report of a run shows that line with a mark below the column. -/
theorem diagnostic_points {base source : String} {e : Fault}
    (h : (Loading.ofSource base source).result = .error e) :
    (e.diagnostic.line = none ∧ e.diagnostic.column = none ↔
        isIdentifier base = false ∨ ∀ line ∈ lines source.toList, IsIdle line) ∧
      (¬ (isIdentifier base = false ∨ ∀ line ∈ lines source.toList, IsIdle line) →
        ∃ number column line, e.diagnostic.line = some number ∧
          e.diagnostic.column = some column ∧ 1 ≤ number ∧
          (lines source.toList)[number - 1]? = some line ∧
          FirstFault (NumberedLine.ofSource source) ⟨number, String.ofList line⟩ e ∧
          1 ≤ column ∧ column ≤ line.length + 1 ∧
          PointsInto number (String.ofList line) column ∧
          ShowsMarked (e.diagnostic.report source) number column line) ∧
      ∀ (o : Options) (c : FileTree.Circumstances) (t : FileTree) (file : String),
        o.base = base → o.schemaFile = some file → t.read file = .ok source.toUTF8 →
          (o.run c t).1.exit = 1 ∧ (o.run c t).2 = t ∧
            ∀ w threshold, ∃ logged, (o.run c t).1.errors w threshold =
              logged ++ e.diagnostic.report source := by
  have hwhole := Loading.ofSource_eq_error_cases h
  refine ⟨?_, ?_, ?_⟩
  · obtain ⟨hwhole, hplace⟩ | ⟨hwhole, number, column, -, hplace, -⟩ := hwhole
    · simp [Fault.diagnostic, hplace, Diagnostic.general, hwhole]
    · simp [Fault.diagnostic, hplace, Diagnostic.located, hwhole]
  · intro hlines
    obtain ⟨hwhole, -⟩ | ⟨-, number, column, line, hplace, hpos, hline, hfirst, hpoints⟩ := hwhole
    · exact absurd hwhole hlines
    · have hnumber : e.diagnostic.line = some number := by simp [Fault.diagnostic, hplace]; rfl
      have hcolumn : e.diagnostic.column = some column := by simp [Fault.diagnostic, hplace]; rfl
      have hbounds := hpoints.bounds
      rw [String.toList_ofList] at hbounds
      exact ⟨number, column, line, hnumber, hcolumn, hpos, hline, hfirst, hbounds.1, hbounds.2,
        hpoints, Diagnostic.showsMarked_report hnumber hcolumn hline hbounds.2⟩
  · intro o c t file hbase hfile hread
    subst hbase
    rw [Options.run_of_ofSource_error hfile hread h]
    exact ⟨rfl, rfl, Outcome.exists_errors_failed _ _⟩

/-- A line whose number is wider than the margin usually is. -/
theorem diagnostic_points_wide :
    let source := String.ofList (List.replicate 1000 '\n' ++ " Asm |B,\t(C<D)\n".toList)
    let line := " Asm |B,\t(C<D)"
    let e : Fault := .located ⟨1001, 14⟩ (.unmatched ')' "Asm")
    (Loading.ofSource "Expr" source).result = .error e ∧
      FirstFault (NumberedLine.ofSource source) ⟨1001, line⟩ e ∧ PointsInto 1001 line 14 ∧
      ShowsMarked (e.diagnostic.report source) 1001 14 line.toList := by
  intro source line e
  have he : (Loading.ofSource "Expr" source).result = .error e := by
    rw [Loading.ofSource, NumberedLine.ofSource, String.toList_ofList]
    decide +kernel
  have hline : (lines source.toList)[1000]? = some line.toList := by
    rw [String.toList_ofList]
    decide +kernel
  obtain ⟨hplace, hpoints, -⟩ := diagnostic_points he
  have hlocated : ¬ (e.diagnostic.line = none ∧ e.diagnostic.column = none) := by decide
  obtain ⟨number, column, cs, hnumber, hcolumn, -, hcs, hfirst, -, -, hinto, hshows⟩ :=
    hpoints (mt hplace.mpr hlocated)
  obtain rfl : 1001 = number := Option.some.inj hnumber
  obtain rfl : 14 = column := Option.some.inj hcolumn
  obtain rfl : line.toList = cs := Option.some.inj (hline.symm.trans hcs)
  rw [String.ofList_toList] at hfirst hinto
  exact ⟨he, hfirst, hinto, hshows⟩

end TaggedUnion
