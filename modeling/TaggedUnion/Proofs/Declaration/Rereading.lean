import TaggedUnion.Proofs.Declaration.Boxing
import TaggedUnion.Proofs.Schema.Acceptance
import TaggedUnion.Proofs.Text.Lines

/-!
# Reading a declaration back

A generated module has one line for each variant, between the line that opens the declaration and
the brace that closes it. Written as node lines, these lines are the source of a schema again: the
variants are the same, with the stored types for fields. The module of that schema is the one it was
read from.
-/

namespace TaggedUnion

open Text Unicode

/-- The variant can stand in a node line, and none of its fields goes beyond a line. -/
structure Variant.OneLine (v : Variant) : Prop extends v.WellFormed where
  newline_notMem : ∀ f ∈ v.fields, '\n' ∉ f.toList

theorem IsWord.newline_notMem {cs : List Char} (h : IsWord cs) : '\n' ∉ cs := by
  intro hmem
  have hwhite := isWhite_eq_false_of_isWordChar (h.isWordChar '\n' hmem)
  exact absurd hwhite (by decide)

theorem newline_notMem_intercalate {fs : List String} (h : ∀ f ∈ fs, '\n' ∉ f.toList) :
    '\n' ∉ (", ".intercalate fs).toList := by
  induction fs with
  | nil => simp
  | cons f fs ih =>
      have hf := h f (by simp)
      by_cases hfs : fs = []
      · subst hfs
        simpa using hf
      · have htail := ih fun g hg => h g (by simp [hg])
        rw [String.intercalate_cons_of_ne_nil hfs]
        simp [-String.toList_intercalate, hf, htail]

/-- Fields with commas between them end as the last one does. -/
theorem exists_getLast?_intercalate {fs : List String} (hne : fs ≠ [])
    (h : ∀ f ∈ fs, Trimmed f.toList) :
    ∃ c, (", ".intercalate fs).toList.getLast? = some c ∧ isWhite c = false := by
  induction fs with
  | nil => exact absurd rfl hne
  | cons f fs ih =>
      by_cases hfs : fs = []
      · subst hfs
        have hf := h f (by simp)
        refine ⟨f.toList.getLast hf.ne_nil, ?_, ?_⟩
        · simp [List.getLast?_eq_some_getLast hf.ne_nil]
        · exact hf.last _ (List.getLast?_eq_some_getLast hf.ne_nil)
      · obtain ⟨c, hc, hwhite⟩ := ih hfs fun g hg => h g (by simp [hg])
        refine ⟨c, ?_, hwhite⟩
        rw [String.intercalate_cons_of_ne_nil hfs, String.toList_append, List.getLast?_append, hc]
        rfl

namespace Variant.OneLine
variable {v : Variant}

theorem nodeLine_isLine (h : v.OneLine) : IsLine v.nodeLine.toList := by
  obtain ⟨c, hc, hwhite⟩ := exists_getLast?_intercalate h.fields_ne_nil fun f hf =>
    (h.isField f hf).toTrimmed
  refine ⟨?_, ?_, ?_⟩
  · simp [nodeLine]
  · have hname := h.isWord.newline_notMem
    have hfields := newline_notMem_intercalate h.newline_notMem
    simp [-String.toList_intercalate, nodeLine, hname, hfields]
  · rw [nodeLine, String.toList_append, List.getLast?_append, hc]
    intro hreturn
    obtain rfl : c = '\r' := Option.some.inj hreturn
    exact absurd hwhite (by decide)

/-- A node line is neither blank nor a comment. -/
theorem nodeLine_holdsNode (h : v.OneLine) (number : Nat) :
    NumberedLine.holdsNode ⟨number, v.nodeLine⟩ = true := by
  obtain ⟨c, cs, hname⟩ := List.exists_cons_of_ne_nil h.isWord.ne_nil
  have hwhite : isWhite c = false := h.isWord.trimmed.first c (by simp [hname])
  have hhash : c ≠ '#' := by
    intro hc
    exact h.isWord.mark_notMem (m := '#') (by decide) (by simp [hname, hc])
  simp [NumberedLine.holdsNode, nodeLine, hname, hwhite, hhash]

end Variant.OneLine

namespace NumberedLine

/-- Node lines with line feeds between them are numbered as they stand. -/
theorem ofSource_nodeLines {vs : List Variant} (h : ∀ v ∈ vs, v.OneLine) :
    ofSource ("\n".intercalate (vs.map (·.nodeLine))) = ofLines (vs.map (·.nodeLine)) := by
  have hlines : lines ("\n".intercalate (vs.map (·.nodeLine))).toList =
      (vs.map (·.nodeLine)).map String.toList := by
    rw [String.toList_intercalate]
    apply lines_intercalate
    intro l hl
    simp only [List.map_map, List.mem_map] at hl
    obtain ⟨v, hv, rfl⟩ := hl
    exact (h v hv).nodeLine_isLine
  have hback : ((vs.map (·.nodeLine)).map String.toList).map String.ofList =
      vs.map (·.nodeLine) := by simp [Function.comp_def]
  rw [ofSource, hlines, hback, List.filter_eq_self]
  intro l hl
  obtain ⟨i, hi⟩ := List.mem_iff_getElem?.mp hl
  rw [getElem?_ofLines, List.getElem?_map] at hi
  obtain ⟨text, htext, rfl⟩ := Option.map_eq_some_iff.mp hi
  obtain ⟨v, hv, rfl⟩ := Option.map_eq_some_iff.mp htext
  exact (h v (List.mem_of_getElem? hv)).nodeLine_holdsNode _

theorem newline_notMem_of_mem_ofSource {source : String} {l : NumberedLine}
    (h : l ∈ ofSource source) : '\n' ∉ l.text.toList := by
  obtain ⟨i, hi⟩ := List.mem_iff_getElem?.mp (List.mem_filter.mp h).1
  rw [getElem?_ofLines, List.getElem?_map] at hi
  obtain ⟨text, htext, rfl⟩ := Option.map_eq_some_iff.mp hi
  obtain ⟨cs, hcs, rfl⟩ := Option.map_eq_some_iff.mp htext
  simpa using newline_notMem_of_mem_lines cs (List.mem_of_getElem? hcs)

end NumberedLine

namespace Loading

/-- What was loaded from a text can stand in node lines. -/
theorem oneLine_of_ofSource {base source : String} {s : Schema}
    (h : (ofSource base source).result = .ok s) : ∀ v ∈ s.variants, v.OneLine := by
  obtain ⟨-, -, vs, hall, -, rfl⟩ := ofNumbered_eq_ok_iff.mp h
  obtain ⟨hlength, hget⟩ := List.forall₂_iff_get.mp hall
  intro v hv
  obtain ⟨i, hi, rfl⟩ := List.mem_iff_getElem.mp hv
  have hparse := hget i (hlength ▸ hi) hi
  have hline := NumberedLine.newline_notMem_of_mem_ofSource
    (List.get_mem (NumberedLine.ofSource source) ⟨i, hlength ▸ hi⟩)
  refine ⟨wellFormed_of_parse hparse, ?_⟩
  intro f hf hmem
  obtain ⟨l, hl, hvariant⟩ := parse_eq_ok_iff_layout.mp hparse
  have hstretch : f.toList <:+: l.text.toList :=
    Layout.infix_of_mem_fields (by rw [hvariant]; exact hf)
  rw [hl] at hstretch
  exact hline (hstretch.subset hmem)

/-- Node lines of distinct names load to their variants. -/
theorem ofSource_nodeLines {base : String} {vs : List Variant} (hbase : isIdentifier base = true)
    (hne : vs ≠ []) (h : ∀ v ∈ vs, v.OneLine) (hnames : (vs.map (·.name)).Nodup) :
    (ofSource base ("\n".intercalate (vs.map (·.nodeLine)))).result = .ok ⟨base, vs⟩ := by
  rw [ofSource, NumberedLine.ofSource_nodeLines h, ofNumbered_eq_ok_iff]
  refine ⟨hbase, ?_, vs, ?_, hnames, rfl⟩
  · simpa [NumberedLine.ofLines] using hne
  · refine List.forall₂_iff_get.mpr ⟨by simp [NumberedLine.ofLines], ?_⟩
    intro i _ hi
    have hv := parse_nodeLine (h _ (List.getElem_mem hi)).toWellFormed (1 + i)
    simpa [NumberedLine.ofLines] using hv

end Loading

namespace UnionNames

/-- The variant with its stored types for fields. -/
def stored (names : UnionNames) (v : Variant) : Variant :=
  ⟨v.name, names.storedTypes v⟩

/-- The line of a variant without its end. -/
def row (names : UnionNames) (v : Variant) : String :=
  "    " ++ v.name ++ "(" ++ ", ".intercalate (names.storedTypes v) ++ "),"

theorem getElem?_storedTypes (names : UnionNames) (v : Variant) (i : Nat) :
    (names.storedTypes v)[i]? = v.fields[i]?.map (names.storedType i) := by
  simp [storedTypes, List.getElem?_zipIdx, Function.comp_def]

theorem variantLine_eq (names : UnionNames) {v : Variant} (h : v.fields ≠ []) :
    names.variantLine v = names.row v ++ "\n" := by
  apply String.toList_inj.mp
  simp [variantLine, row, h]

theorem row_stored {names : UnionNames} (hnames : names.Legal) (v : Variant) :
    names.row (names.stored v) = names.row v := by
  have htypes : names.storedTypes (names.stored v) = names.storedTypes v := by
    apply List.ext_getElem?
    intro i
    rw [getElem?_storedTypes, stored, getElem?_storedTypes, Option.map_map]
    congr 1
    funext f
    exact storedType_storedType hnames i f
  rw [row, row, htypes, stored]

/-- Each stored type comes from a field at its position. -/
theorem exists_of_mem_storedTypes {names : UnionNames} {v : Variant} {t : String}
    (ht : t ∈ names.storedTypes v) : ∃ i, ∃ f ∈ v.fields, names.storedType i f = t := by
  obtain ⟨i, hi⟩ := List.mem_iff_getElem?.mp ht
  rw [getElem?_storedTypes] at hi
  obtain ⟨f, hf, hstored⟩ := Option.map_eq_some_iff.mp hi
  exact ⟨i, f, List.mem_of_getElem? hf, hstored⟩

theorem stored_wellFormed {names : UnionNames} (hnames : names.Legal) {v : Variant}
    (h : v.WellFormed) : (names.stored v).WellFormed := by
  refine ⟨h.isWord, ?_, ?_⟩
  · simpa [stored, storedTypes] using h.fields_ne_nil
  · intro t ht
    obtain ⟨i, f, hf, rfl⟩ := exists_of_mem_storedTypes ht
    exact isField_storedType hnames (h.isField f hf) i

theorem stored_oneLine {names : UnionNames} (hnames : names.Legal) {v : Variant} (h : v.OneLine) :
    (names.stored v).OneLine := by
  refine ⟨stored_wellFormed hnames h.toWellFormed, ?_⟩
  intro t ht
  obtain ⟨i, f, hf, rfl⟩ := exists_of_mem_storedTypes ht
  exact newline_notMem_storedType (h.newline_notMem f hf) names i

theorem oneLine_map_stored {names : UnionNames} (hnames : names.Legal) {vs : List Variant}
    (h : ∀ v ∈ vs, v.OneLine) : ∀ v ∈ vs.map names.stored, v.OneLine := by
  intro v hv
  obtain ⟨w, hw, rfl⟩ := List.mem_map.mp hv
  exact stored_oneLine hnames (h w hw)

theorem row_isLine {names : UnionNames} (hnames : names.Legal) {v : Variant} (h : v.OneLine) :
    IsLine (names.row v).toList := by
  have hname := h.isWord.newline_notMem
  have htypes : '\n' ∉ (", ".intercalate (names.storedTypes v)).toList :=
    newline_notMem_intercalate (stored_oneLine hnames h).newline_notMem
  refine ⟨?_, ?_, ?_⟩
  · simp [row]
  · simp [-String.toList_intercalate, row, hname, htypes]
  · rw [row, String.toList_append, List.getLast?_append]
    simp

end UnionNames

/-- The lines of a module behind the line that opens the declaration, up to the closing brace. -/
def variantRows (text : String) : List String :=
  (((lines text.toList).drop ((lines (moduleHead ++ derives).toList).length + 1)).dropLast).map
    String.ofList

/-- The line of a variant as a node line: the name ends at the first parenthesis. -/
def nodeOfRow (row : String) : String :=
  let cs := row.toList.drop 4
  String.ofList (cs.takeWhile (· != '(')) ++ " | " ++
    String.ofList ((cs.dropWhile (· != '(')).tail.dropLast.dropLast)

/-- The lines of a module's variants as the source of a schema. -/
def moduleSource (text : String) : String :=
  "\n".intercalate ((variantRows text).map nodeOfRow)

namespace UnionNames

theorem nodeOfRow_row (names : UnionNames) {v : Variant} (h : IsWord v.name.toList) :
    nodeOfRow (names.row v) = (names.stored v).nodeLine := by
  have hcs : (names.row v).toList.drop 4 = v.name.toList ++
      '(' :: ((", ".intercalate (names.storedTypes v)).toList ++ [')', ',']) := by
    simp [row]
  have hname : ∀ c ∈ v.name.toList, (c != '(') = true := by
    intro c hc
    rw [bne_iff_ne]
    intro hparen
    subst hparen
    exact h.mark_notMem (by decide) hc
  simp only [nodeOfRow, hcs, List.takeWhile_append_of_pos hname,
    List.dropWhile_append_of_pos hname]
  apply String.toList_inj.mp
  simp [stored, Variant.nodeLine, List.dropLast_append_of_ne_nil]

theorem moduleText_eq_rows {names : UnionNames} {vs : List Variant}
    (h : ∀ v ∈ vs, v.WellFormed) :
    names.moduleText vs = moduleHead ++ derives ++ "pub enum " ++ names.base ++ " \x7b\n" ++
      String.join ((vs.map names.row).map (· ++ "\n")) ++ "\x7d" := by
  have hlines : vs.map names.variantLine = (vs.map names.row).map (· ++ "\n") := by
    rw [List.map_map]
    apply List.map_congr_left
    intro v hv
    exact names.variantLine_eq (h v hv).fields_ne_nil
  rw [moduleText, hlines]

theorem moduleText_eq {names : UnionNames} {vs : List Variant} (h : ∀ v ∈ vs, v.OneLine) :
    names.moduleText vs = moduleHead ++ derives ++ "pub enum " ++ names.base ++ " \x7b\n" ++
      String.join ((vs.map names.row).map (· ++ "\n")) ++ "\x7d" :=
  moduleText_eq_rows fun v hv => (h v hv).toWellFormed

/-- The lines of the declaration up to the closing brace. -/
def rows (names : UnionNames) (vs : List Variant) : List String :=
  ("pub enum " ++ names.base ++ " \x7b") :: vs.map names.row

theorem isLine_of_mem_rows {names : UnionNames} (hnames : names.Legal) {vs : List Variant}
    (h : ∀ v ∈ vs, v.OneLine) : ∀ l ∈ (names.rows vs).map String.toList, IsLine l := by
  intro l hl
  rw [rows, List.map_cons, List.mem_cons] at hl
  rcases hl with rfl | hl
  · have hbase := (isWord_of_isIdentifier hnames.base).newline_notMem
    refine ⟨by simp, by simp [hbase], ?_⟩
    rw [String.toList_append, List.getLast?_append]
    simp
  · rw [List.map_map, List.mem_map] at hl
    obtain ⟨v, hv, rfl⟩ := hl
    exact row_isLine hnames (h v hv)

theorem toList_moduleText {names : UnionNames} {vs : List Variant} (h : ∀ v ∈ vs, v.OneLine) :
    (names.moduleText vs).toList = (moduleHead ++ derives).toList ++
      (((names.rows vs).map String.toList).flatMap (· ++ ['\n']) ++ ['\x7d']) := by
  rw [moduleText_eq h]
  simp [String.toList_join, List.flatMap_map, rows, row]

/-- The lines of the module are those of its head, the opening line, a line for each variant and the
closing brace. -/
theorem lines_moduleText {names : UnionNames} (hnames : names.Legal) {vs : List Variant}
    (h : ∀ v ∈ vs, v.OneLine) :
    lines (names.moduleText vs).toList = lines (moduleHead ++ derives).toList ++
      ("pub enum " ++ names.base ++ " \x7b").toList ::
        ((vs.map names.row).map String.toList ++ [['\x7d']]) := by
  have hhead : (moduleHead ++ derives).toList.getLast? = some '\n' := by
    rw [String.toList_append, List.getLast?_append]
    simp [derives]
  rw [toList_moduleText h, lines_append_of_getLast? hhead,
    lines_flatMap_append (isLine_of_mem_rows hnames h)]
  rfl

theorem variantRows_moduleText {names : UnionNames} (hnames : names.Legal) {vs : List Variant}
    (h : ∀ v ∈ vs, v.OneLine) : variantRows (names.moduleText vs) = vs.map names.row := by
  rw [variantRows, lines_moduleText hnames h, List.append_cons,
    List.drop_left' (by rw [List.length_append, List.length_singleton]), List.dropLast_concat]
  simp [Function.comp_def]

theorem moduleSource_moduleText {names : UnionNames} (hnames : names.Legal) {vs : List Variant}
    (h : ∀ v ∈ vs, v.OneLine) : moduleSource (names.moduleText vs) =
      "\n".intercalate ((vs.map names.stored).map (·.nodeLine)) := by
  have hnodes : (vs.map names.row).map nodeOfRow = (vs.map names.stored).map (·.nodeLine) := by
    rw [List.map_map, List.map_map]
    apply List.map_congr_left
    intro v hv
    exact names.nodeOfRow_row (h v hv).isWord
  rw [moduleSource, variantRows_moduleText hnames h, hnodes]

theorem moduleText_stored {names : UnionNames} (hnames : names.Legal) {vs : List Variant}
    (h : ∀ v ∈ vs, v.OneLine) :
    names.moduleText (vs.map names.stored) = names.moduleText vs := by
  have hrows : (vs.map names.stored).map names.row = vs.map names.row := by
    rw [List.map_map]
    apply List.map_congr_left
    intro v _
    exact row_stored hnames v
  rw [moduleText_eq (oneLine_map_stored hnames h), moduleText_eq h, hrows]

end UnionNames

/-- The module of a loaded schema has one line for each variant. As node lines, these lines load to
the same variants with their stored types, and from these the same module is made. -/
theorem moduleText_reread {base source : String} {s : Schema} {element : Option String}
    (hs : (Loading.ofSource base source).result = .ok s)
    (helement : ∀ e ∈ element, isIdentifier e = true) :
    let names := UnionNames.make base element
    let text := names.moduleText s.variants
    let rows := s.variants.map fun v =>
      "    " ++ v.name ++ "(" ++ ", ".intercalate (names.storedTypes v) ++ "),"
    text = moduleHead ++ derives ++ "pub enum " ++ base ++ " \x7b\n" ++
        String.join (rows.map (· ++ "\n")) ++ "\x7d" ∧
      (∀ row ∈ rows, '\n' ∉ row.toList) ∧ variantRows text = rows ∧
      ∃ s', (Loading.ofSource base (moduleSource text)).result = .ok s' ∧ s'.base = s.base ∧
        s'.variants.map (·.name) = s.variants.map (·.name) ∧
        s'.variants.map (·.fields) = s.variants.map names.storedTypes ∧
        names.moduleText s'.variants = text := by
  intro names text rows
  have hlines := Loading.oneLine_of_ofSource hs
  obtain ⟨hbase, hne, vs, hall, hnodup, rfl⟩ := Loading.ofNumbered_eq_ok_iff.mp hs
  have hnames : names.Legal := UnionNames.legal_make hbase helement
  have hvs : vs ≠ [] := by
    intro hnil
    subst hnil
    exact hne (List.forall₂_nil_right_iff.mp hall)
  refine ⟨UnionNames.moduleText_eq hlines, ?_, UnionNames.variantRows_moduleText hnames hlines,
    ⟨base, vs.map names.stored⟩, ?_, rfl, ?_, ?_, UnionNames.moduleText_stored hnames hlines⟩
  · intro row hrow
    obtain ⟨v, hv, rfl⟩ := List.mem_map.mp hrow
    exact (UnionNames.row_isLine hnames (hlines v hv)).newline_notMem
  · rw [UnionNames.moduleSource_moduleText hnames hlines]
    apply Loading.ofSource_nodeLines hbase (by simpa using hvs)
      (UnionNames.oneLine_map_stored hnames hlines)
    simpa [UnionNames.stored, Function.comp_def] using hnodup
  · simp [UnionNames.stored, Function.comp_def]
  · simp [UnionNames.stored, Function.comp_def]

theorem moduleText_reread_call :
    (Loading.ofSource "Expr" "# nodes\n\n Call|Stmt,Vec<(Expr, A)> ,Expr\r\nLit | Literal").result =
        .ok ⟨"Expr", [⟨"Call", ["Stmt", "Vec<(Expr, A)>", "Expr"]⟩, ⟨"Lit", ["Literal"]⟩]⟩ ∧
      (∀ e ∈ some "Stmt", isIdentifier e = true) ∧
      ∃ s', (Loading.ofSource "Expr" (moduleSource
          ((UnionNames.make "Expr" (some "Stmt")).moduleText
            [⟨"Call", ["Stmt", "Vec<(Expr, A)>", "Expr"]⟩, ⟨"Lit", ["Literal"]⟩]))).result =
          .ok s' ∧
        s'.variants.map (·.fields) =
          [["Box<Stmt>", "Vec<(Expr, A)>", "Box<Expr>"], ["Literal"]] := by
  have hload : (Loading.ofSource "Expr"
      "# nodes\n\n Call|Stmt,Vec<(Expr, A)> ,Expr\r\nLit | Literal").result =
      .ok ⟨"Expr", [⟨"Call", ["Stmt", "Vec<(Expr, A)>", "Expr"]⟩, ⟨"Lit", ["Literal"]⟩]⟩ := by
    decide +kernel
  have helement : ∀ e ∈ some "Stmt", isIdentifier e = true := by
    intro e he
    obtain rfl : "Stmt" = e := Option.some.inj he
    decide +kernel
  obtain ⟨-, -, -, s', hs', -, -, hfields, -⟩ := moduleText_reread hload helement
  refine ⟨hload, helement, s', hs', ?_⟩
  rw [hfields]
  decide +kernel

end TaggedUnion
