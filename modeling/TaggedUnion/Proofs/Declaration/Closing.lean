import Mathlib.Data.List.Infix
import TaggedUnion.Proofs.Declaration.StoredTokens

/-!
# Where a declaration is closed

The brackets that a field keeps in pairs are the angle, round and square ones. So the parenthesis
behind the name of a variant is closed by the last one in its line. Braces are characters like any
other to a field, and they are counted apart here: the braces of the fields are all that can stand
between the opening brace of the declaration and its last character, which closes it exactly if they
are in pairs.
-/

namespace TaggedUnion

open Unicode

def isBrace (c : Char) : Bool :=
  c == '\x7b' || c == '\x7d'

/-- The number of opening braces less that of closing ones. -/
def braceDepth (cs : List Char) : Int :=
  cs.count '\x7b' - cs.count '\x7d'

/-- No brace is closed that is not open, and none is left open. -/
structure BracesPaired (cs : List Char) : Prop where
  before_nonneg : ∀ p, p <+: cs → 0 ≤ braceDepth p
  whole_eq : braceDepth cs = 0

instance (cs : List Char) : Decidable (BracesPaired cs) :=
  decidable_of_iff ((∀ p ∈ cs.inits, 0 ≤ braceDepth p) ∧ braceDepth cs = 0)
    ⟨fun h => ⟨fun p hp => h.1 p ((List.mem_inits p cs).mpr hp), h.2⟩,
      fun h => ⟨fun p hp => h.before_nonneg p ((List.mem_inits p cs).mp hp), h.whole_eq⟩⟩

/-- A brace is open all the way up to the last character, and none behind it. -/
structure ClosedByLast (cs : List Char) : Prop where
  before_pos : ∀ p, p <+: cs → p ≠ [] → p ≠ cs → 1 ≤ braceDepth p
  whole_eq : braceDepth cs = 0

theorem braceDepth_append (as bs : List Char) :
    braceDepth (as ++ bs) = braceDepth as + braceDepth bs := by
  simp only [braceDepth, List.count_append]
  omega

theorem braceDepth_opened (cs : List Char) : braceDepth ('\x7b' :: cs) = 1 + braceDepth cs :=
  braceDepth_append ['\x7b'] cs

theorem braceDepth_closed (cs : List Char) :
    braceDepth (cs ++ ['\x7d']) = braceDepth cs - 1 :=
  braceDepth_append cs ['\x7d']

theorem braceDepth_filter (cs : List Char) : braceDepth (cs.filter isBrace) = braceDepth cs := by
  simp [braceDepth, List.count_filter, isBrace]

/-- Only the braces of a text matter. -/
theorem bracesPaired_filter_iff {cs : List Char} :
    BracesPaired (cs.filter isBrace) ↔ BracesPaired cs := by
  constructor
  · intro h
    refine ⟨?_, by rw [← braceDepth_filter, h.whole_eq]⟩
    intro p hp
    rw [← braceDepth_filter]
    exact h.before_nonneg _ (hp.filter isBrace)
  · intro h
    refine ⟨?_, by rw [braceDepth_filter, h.whole_eq]⟩
    intro p hp
    obtain ⟨q, hq, rfl⟩ := List.prefix_filter_iff.mp hp
    rw [braceDepth_filter]
    exact h.before_nonneg q hq

theorem bracesPaired_of_notMem {cs : List Char} (h : ∀ c ∈ cs, isBrace c = false) :
    BracesPaired cs := by
  have hnil : cs.filter isBrace = [] := by simpa using h
  rw [← bracesPaired_filter_iff, hnil]
  refine ⟨?_, rfl⟩
  intro p hp
  rw [List.prefix_nil.mp hp]
  exact Int.le_refl 0

/-- Braces around a text are partners exactly if those inside are paired. -/
theorem closedByLast_iff {inner : List Char} :
    ClosedByLast ('\x7b' :: (inner ++ ['\x7d'])) ↔ BracesPaired inner := by
  have hwhole : braceDepth ('\x7b' :: (inner ++ ['\x7d'])) = braceDepth inner := by
    rw [braceDepth_opened, braceDepth_closed]
    omega
  constructor
  · intro h
    refine ⟨?_, by rw [← hwhole, h.whole_eq]⟩
    rintro p ⟨q, rfl⟩
    have hopen := h.before_pos ('\x7b' :: p) ⟨q ++ ['\x7d'], by simp⟩ (by simp) (by simp)
    rw [braceDepth_opened] at hopen
    omega
  · intro h
    refine ⟨?_, by rw [hwhole, h.whole_eq]⟩
    intro p hp hne hpart
    rcases List.prefix_cons_iff.mp hp with rfl | ⟨q, rfl, hq⟩
    · exact absurd rfl hne
    · rcases List.prefix_concat_iff.mp hq with rfl | hq
      · exact absurd rfl hpart
      · have hinside := h.before_nonneg q hq
        rw [braceDepth_opened]
        omega

theorem isWordChar_brace {c : Char} (h : isBrace c = true) : isWordChar c = false := by
  simp only [isBrace, Bool.or_eq_true, beq_iff_eq] at h
  rcases h with rfl | rfl <;> decide +kernel

theorem IsWord.filter_isBrace {cs : List Char} (h : IsWord cs) : cs.filter isBrace = [] := by
  rw [List.filter_eq_nil_iff]
  intro c hc hbrace
  have hword := h.isWordChar c hc
  rw [isWordChar_brace hbrace] at hword
  exact Bool.false_ne_true hword

def fieldChars (vs : List Variant) : List Char :=
  vs.flatMap fun v => v.fields.flatMap String.toList

theorem filter_isBrace_intercalate (fs : List String) :
    (", ".intercalate fs).toList.filter isBrace = (fs.flatMap String.toList).filter isBrace := by
  induction fs with
  | nil => simp
  | cons f fs ih =>
      by_cases hfs : fs = []
      · subst hfs
        simp
      · have hcomma : ", ".toList.filter isBrace = [] := rfl
        rw [String.intercalate_cons_of_ne_nil hfs, String.toList_append, String.toList_append,
          List.filter_append, List.filter_append, hcomma, ih, List.flatMap_cons,
          List.filter_append, List.append_nil]

namespace UnionNames

theorem filter_isBrace_storedType (names : UnionNames) (position : Nat) (field : String) :
    (names.storedType position field).toList.filter isBrace = field.toList.filter isBrace := by
  rw [storedType_eq]
  split_ifs
  · have hbox : "Box<".toList.filter isBrace = [] := rfl
    have hend : ">".toList.filter isBrace = [] := rfl
    rw [String.toList_append, String.toList_append, List.filter_append, List.filter_append, hbox,
      hend, List.append_nil, List.nil_append]
  · rfl

theorem filter_isBrace_variantLine (names : UnionNames) {v : Variant} (h : v.WellFormed) :
    (names.variantLine v).toList.filter isBrace =
      (v.fields.flatMap String.toList).filter isBrace := by
  have htypes : ((names.storedTypes v).flatMap String.toList).filter isBrace =
      (v.fields.flatMap String.toList).filter isBrace := by
    simp only [List.filter_flatMap, storedTypes, List.flatMap_map, filter_isBrace_storedType]
    rw [← List.flatMap_map Prod.fst fun f : String => f.toList.filter isBrace,
      List.zipIdx_map_fst]
  have hlead : "    ".toList.filter isBrace = [] := rfl
  have hopen : "(".toList.filter isBrace = [] := rfl
  have hclose : "),".toList.filter isBrace = [] := rfl
  have hend : "\n".toList.filter isBrace = [] := rfl
  rw [variantLine_eq names h.fields_ne_nil, row]
  simp only [String.toList_append, List.filter_append, hlead, hopen, hclose, hend,
    h.isWord.filter_isBrace, filter_isBrace_intercalate, htypes, List.nil_append, List.append_nil]

theorem toList_moduleText_braces (names : UnionNames) (vs : List Variant) :
    (names.moduleText vs).toList =
      (moduleHead ++ derives ++ "pub enum " ++ names.base ++ " ").toList ++
        '\x7b' :: ('\n' :: (vs.flatMap fun v => (names.variantLine v).toList) ++ ['\x7d']) := by
  simp [moduleText, String.toList_join, List.flatMap_map]

theorem closedByLast_declaration_iff (names : UnionNames) {vs : List Variant}
    (h : ∀ v ∈ vs, v.WellFormed) :
    ClosedByLast
        ('\x7b' :: ('\n' :: (vs.flatMap fun v => (names.variantLine v).toList) ++ ['\x7d'])) ↔
      BracesPaired (fieldChars vs) := by
  have hend : isBrace '\n' = false := rfl
  rw [closedByLast_iff, ← bracesPaired_filter_iff, ← @bracesPaired_filter_iff (fieldChars vs),
    fieldChars, List.filter_cons_of_neg (by simp [hend]), List.filter_flatMap, List.filter_flatMap,
    List.flatMap_congr fun v hv => names.filter_isBrace_variantLine (h v hv)]

end UnionNames

/-- In the text `cs`, a bracket and its partner stand around `inner`. -/
structure Encloses (cs before : List Char) (opening : Char) (inner : List Char) (closing : Char)
    (after : List Char) : Prop where
  text_eq : cs = before ++ opening :: (inner ++ closing :: after)
  pair : Partners opening closing
  /-- Both are brackets of the text, and not, as in `->`, part of another token. -/
  tokens : tokenKinds cs =
    tokenKinds before ++
      .opener opening :: (tokenKinds inner ++ .closer closing :: tokenKinds after)
  balanced : Balanced (tokenKinds inner)

theorem balanced_listChars (fs : List SpacedField) : Balanced (tokenKinds (listChars fs)) := by
  induction fs with
  | nil => exact .nil
  | cons f fs ih =>
      have hf : Balanced (tokenKinds f.text) := f.isField.tokens.balanced
      by_cases hfs : fs = []
      · subst hfs
        rwa [listChars_singleton, f.tokenKinds_chars]
      · rw [tokenKinds_listChars_cons f hfs]
        exact hf.append (.plain rfl rfl ih)

theorem balanced_intercalate {fs : List String} (h : ∀ f ∈ fs, IsField f.toList) (hne : fs ≠ []) :
    Balanced (tokenKinds (", ".intercalate fs).toList) := by
  have hlist := balanced_listChars (fs.pmap SpacedField.plain h)
  have hblank := tokenKinds_blanks isBlank_space .nil (", ".intercalate fs).toList
  rw [List.append_nil, List.singleton_append] at hblank
  rwa [listChars_plain h hne, hblank] at hlist

theorem UnionNames.variantLine_encloses {names : UnionNames} (hnames : names.Legal) {v : Variant}
    (h : v.WellFormed) :
    Encloses (names.variantLine v).toList ("    " ++ v.name).toList '('
      (", ".intercalate (names.storedTypes v)).toList ')' [',', '\n'] := by
  have hstored := stored_wellFormed hnames h
  have hline : (names.variantLine v).toList = ("    " ++ v.name).toList ++
      '(' :: ((", ".intercalate (names.storedTypes v)).toList ++ ')' :: [',', '\n']) := by
    simp [variantLine_eq names h.fields_ne_nil, row]
  refine ⟨hline, .round, ?_, balanced_intercalate hstored.isField hstored.fields_ne_nil⟩
  rw [hline, tokenKinds_mark (by decide) (by decide) (by decide),
    tokenKinds_mark (by decide) (by decide) (by decide)]
  rfl

/-- The last character of a module closes the declaration exactly if the braces of its fields are
paired, as they are if there are none. In each line of a variant, the parenthesis behind the name is
closed in front of the last comma. -/
theorem declaration_closed {base : String} {texts : List String} {s : Schema}
    {element : Option String} (hs : LoadedFrom base texts s)
    (helement : ∀ e ∈ element, isIdentifier e = true) :
    let names := UnionNames.make base element
    let body := '\n' :: (s.variants.flatMap fun v => (names.variantLine v).toList)
    (s.moduleText element).toList =
        (moduleHead ++ derives ++ "pub enum " ++ base ++ " ").toList ++
          '\x7b' :: (body ++ ['\x7d']) ∧
      (ClosedByLast ('\x7b' :: (body ++ ['\x7d'])) ↔ BracesPaired (fieldChars s.variants)) ∧
      ((∀ v ∈ s.variants, ∀ f ∈ v.fields, ∀ c ∈ f.toList, isBrace c = false) →
        ClosedByLast ('\x7b' :: (body ++ ['\x7d']))) ∧
      ∀ v ∈ s.variants, Encloses (names.variantLine v).toList ("    " ++ v.name).toList '('
        (", ".intercalate (names.storedTypes v)).toList ')' [',', '\n'] := by
  intro names body
  obtain ⟨hbase, hsbase, -⟩ := hs.exists_variants
  have hclosed : ClosedByLast ('\x7b' :: (body ++ ['\x7d'])) ↔
      BracesPaired (fieldChars s.variants) :=
    names.closedByLast_declaration_iff hs.wellFormed
  refine ⟨?_, hclosed, ?_, ?_⟩
  · rw [Schema.moduleText, hsbase]
    exact names.toList_moduleText_braces s.variants
  · intro hnone
    refine hclosed.mpr (bracesPaired_of_notMem ?_)
    intro c hc
    simp only [fieldChars, List.mem_flatMap] at hc
    obtain ⟨v, hv, f, hf, hc⟩ := hc
    exact hnone v hv f hf c hc
  · intro v hv
    have hnames : names.Legal := UnionNames.legal_make hbase helement
    exact UnionNames.variantLine_encloses hnames (hs.wellFormed v hv)

/-- Two fields that share a pair of braces do not end the declaration early. -/
theorem declaration_closed_shared :
    let source := "Hook | fn(A) -> \x7b, Expr\n# \x7d\n\nCall | Stmt, [\x7d; 2]"
    let s : Schema :=
      ⟨"Expr", [⟨"Hook", ["fn(A) -> \x7b", "Expr"]⟩, ⟨"Call", ["Stmt", "[\x7d; 2]"]⟩]⟩
    let body :=
      "\n    Hook(fn(A) -> \x7b, Box<Expr>),\n    Call(Box<Stmt>, [\x7d; 2]),\n".toList
    (Loading.ofSource "Expr" source).result = .ok s ∧ isIdentifier "Stmt" = true ∧
      (s.moduleText (some "Stmt")).toList =
        (moduleHead ++ derives ++ "pub enum " ++ "Expr" ++ " ").toList ++
          '\x7b' :: (body ++ ['\x7d']) ∧
      ClosedByLast ('\x7b' :: (body ++ ['\x7d'])) := by
  intro source s body
  have hs : (Loading.ofSource "Expr" source).result = .ok s := by decide +kernel
  have hstmt : isIdentifier "Stmt" = true := by decide +kernel
  obtain ⟨htext, hclosed, -, -⟩ := @declaration_closed _ _ _ (some "Stmt") (.source hs)
    (by simp [hstmt])
  have hbody : '\n' :: (s.variants.flatMap fun v =>
      ((UnionNames.make "Expr" (some "Stmt")).variantLine v).toList) = body := by decide +kernel
  rw [hbody] at htext hclosed
  exact ⟨hs, hstmt, htext, hclosed.mpr (by decide +kernel)⟩

/-- A closing brace in a field ends the declaration before its last character. -/
theorem declaration_closed_early :
    let s : Schema := ⟨"Expr", [⟨"A", ["\x7d"]⟩]⟩
    let body := "\n    A(\x7d),\n".toList
    (Loading.ofSource "Expr" "A | \x7d").result = .ok s ∧
      (s.moduleText none).toList =
        (moduleHead ++ derives ++ "pub enum " ++ "Expr" ++ " ").toList ++
          '\x7b' :: (body ++ ['\x7d']) ∧
      ¬ ClosedByLast ('\x7b' :: (body ++ ['\x7d'])) := by
  intro s body
  have htext := (UnionNames.make "Expr" none).toList_moduleText_braces s.variants
  have hbody : '\n' :: (s.variants.flatMap fun v =>
      ((UnionNames.make "Expr" none).variantLine v).toList) = body := by decide +kernel
  rw [hbody] at htext
  refine ⟨by decide +kernel, htext, ?_⟩
  rw [closedByLast_iff]
  decide +kernel

end TaggedUnion
