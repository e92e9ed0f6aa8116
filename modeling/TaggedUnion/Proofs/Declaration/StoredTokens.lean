import TaggedUnion.Proofs.Declaration.Rereading
import TaggedUnion.Proofs.Line.TokenPlaces

/-!
# Storage by tokens

Fields are compared with the type names as texts. Since a field that was read has no blanks at its
ends, and a type name is a word, this compares their tokens: a field is boxed exactly if a type name
is its only token. The blanks around a field in its line do not matter, and what is stored is never
the union itself.
-/

namespace TaggedUnion

open Unicode

/-- On its own, the text is a single token, the word `name`. -/
def ScansToWord (text name : String) : Prop :=
  ∀ line, (Scanner.start line text).scan.1.map (·.kind) = [.word name, .endOfLine]

theorem map_kind_scan (line : Nat) (text : String) :
    (Scanner.start line text).scan.1.map (·.kind) = tokenKinds text.toList ++ [.endOfLine] := by
  have htokens : (Scanner.start line text).tokens.map (·.kind) = tokenKinds text.toList :=
    Scanner.map_kind_locate_split _ _
  rw [Scanner.scan, List.map_append, htokens]
  rfl

theorem scansToWord_iff {text name : String} :
    ScansToWord text name ↔ tokenKinds text.toList = [.word name] := by
  have hline : ∀ line, (Scanner.start line text).scan.1.map (·.kind) = [.word name, .endOfLine] ↔
      tokenKinds text.toList = [.word name] := by
    intro line
    have hword : [Token.Kind.word name, .endOfLine] = [.word name] ++ [.endOfLine] := rfl
    rw [map_kind_scan, hword, List.append_left_inj]
  exact ⟨fun h => (hline 1).mp (h 1), fun h line => (hline line).mpr h⟩

theorem exists_blanks_of_tokenKinds {cs : List Char} {name : String}
    (h : tokenKinds cs = [.word name]) :
    ∃ before after, cs = before ++ name.toList ++ after ∧ IsBlank before ∧ IsBlank after := by
  have hpure := (Piece.split_wellCut cs).pure
  have htext := Piece.flatMap_text_split cs
  rw [tokenKinds_eq] at h
  obtain ⟨pre, p, qs, hsplit, hpre, hp, hqs⟩ := List.filterMap_eq_cons_iff.mp h
  rw [hsplit] at hpure htext
  have hword : p.text = name.toList := (Piece.denotes_of_kind? (hpure p (by simp)) hp).1.symm
  refine ⟨pre.flatMap Piece.text, qs.flatMap Piece.text, ?_, ?_, ?_⟩
  · rw [← htext, ← hword]
    simp
  · exact Piece.isBlank_flatMap_text (fun q hq => hpure q (by simp [hq])) hpre
  · exact Piece.isBlank_flatMap_text (fun q hq => hpure q (by simp [hq]))
      (List.filterMap_eq_nil_iff.mp hqs)

/-- Without blanks at its ends, a text with a single word for its tokens is that word. -/
theorem Trimmed.eq_of_tokenKinds {cs : List Char} {name : String} (hcs : Trimmed cs)
    (h : tokenKinds cs = [.word name]) : cs = name.toList := by
  obtain ⟨before, after, htext, hbefore, hafter⟩ := exists_blanks_of_tokenKinds h
  have hnil : before = [] := by
    apply hbefore.eq_nil
    intro c hc
    apply hcs.first c
    rw [htext, List.append_assoc, List.head?_append, Option.mem_def.mp hc]
    rfl
  have hnil' : after = [] := by
    by_contra hne
    have hlast := List.getLast?_eq_some_getLast hne
    have hwhite := hafter _ (List.getLast_mem hne)
    rw [hcs.last (after.getLast hne) (by rw [htext, List.getLast?_append, hlast]; rfl)] at hwhite
    exact Bool.false_ne_true hwhite
  rw [htext, hnil, hnil', List.append_nil, List.nil_append]

theorem scansToWord_iff_eq {field name : String} (hfield : IsField field.toList)
    (hname : isIdentifier name = true) : ScansToWord field name ↔ field = name := by
  rw [scansToWord_iff]
  constructor
  · intro h
    exact String.toList_inj.mp (hfield.toTrimmed.eq_of_tokenKinds h)
  · intro h
    rw [h, tokenKinds_of_isWord (isWord_of_isIdentifier hname), String.ofList_toList]

theorem SpacedField.scansToWord_chars (f : SpacedField) (name : String) :
    ScansToWord (String.ofList f.chars) name ↔ ScansToWord (String.ofList f.text) name := by
  simp only [scansToWord_iff, String.toList_ofList, f.tokenKinds_chars]

structure StoredByTokens (names : UnionNames) (position : Nat) (field stored : String) :
    Prop where
  /-- It is boxed if it is the union's name, or leads and is the element's. -/
  boxed_iff : stored = "Box<" ++ field ++ ">" ↔
    ScansToWord field names.base ∨ position = 0 ∧ ScansToWord field names.element
  in_place : ¬ (ScansToWord field names.base ∨ position = 0 ∧ ScansToWord field names.element) →
    stored = field
  once : names.reasons position field = [.leadingElement, .selfReference] →
    stored = "Box<" ++ field ++ ">"
  /-- What is stored is not the union itself. -/
  not_union : ¬ ScansToWord stored names.base
  /-- Behind the first field, an element other than the union is stored in place. -/
  element_in_place : field = names.element → names.element ≠ names.base → 1 ≤ position →
    stored = field

namespace UnionNames

theorem not_scansToWord_boxed {field : String} (h : IsWord field.toList) (name : String) :
    ¬ ScansToWord ("Box<" ++ field ++ ">") name := by
  have hchars : ("Box<" ++ field ++ ">").toList =
      "Box".toList ++ ('<' :: (field.toList ++ ['>'])) := by simp
  rw [scansToWord_iff, hchars, tokenKinds_boxed h]
  simp

theorem boxed_ne (field : String) : "Box<" ++ field ++ ">" ≠ field := by
  intro h
  have hlength := congrArg String.length h
  simp only [String.length_append] at hlength
  have hbox : "Box<".length = 4 := rfl
  omega

theorem storedByTokens {names : UnionNames} (hnames : names.Legal) {field : String}
    (hfield : IsField field.toList) (position : Nat) :
    StoredByTokens names position field (names.storedType position field) := by
  have hbase := scansToWord_iff_eq hfield hnames.base
  have helement := scansToWord_iff_eq hfield hnames.element
  have hreason : (ScansToWord field names.base ∨ position = 0 ∧ ScansToWord field names.element) ↔
      (position = 0 ∧ field = names.element ∨ field = names.base) := by
    rw [hbase, helement, or_comm]
  rw [storedType_eq]
  by_cases hbox : position = 0 ∧ field = names.element ∨ field = names.base
  · rw [if_pos hbox]
    refine ⟨?_, ?_, ?_, ?_, ?_⟩
    · simp [hreason, hbox]
    · intro hnot
      exact absurd (hreason.mpr hbox) hnot
    · intro _
      rfl
    · exact not_scansToWord_boxed (isWord_of_boxed hnames hbox) names.base
    · intro heq hne hpos
      rcases hbox with hlead | hself
      · omega
      · exact absurd (heq.symm.trans hself) hne
  · rw [if_neg hbox]
    refine ⟨?_, ?_, ?_, ?_, ?_⟩
    · rw [hreason]
      exact iff_of_false (boxed_ne field).symm hbox
    · intro _
      rfl
    · intro hboth
      have hself : BoxReason.selfReference ∈ names.reasons position field := by simp [hboth]
      have hbase : field = names.base := by
        simpa [reasons, BoxReason.all, BoxReason.applies] using hself
      exact absurd (.inr hbase) hbox
    · rw [hbase]
      exact fun hself => hbox (.inr hself)
    · intro _ _ _
      rfl

theorem storedTypes_layout {names : UnionNames} (hnames : names.Legal) (l : Layout) {i : Nat}
    {g : SpacedField} (hg : l.fields[i]? = some g) :
    ∃ stored, (names.storedTypes l.variant)[i]? = some stored ∧
      StoredByTokens names i (String.ofList g.text) stored := by
  refine ⟨names.storedType i (String.ofList g.text), ?_, ?_⟩
  · rw [getElem?_storedTypes, Layout.variant, List.getElem?_map, hg]
    rfl
  · apply storedByTokens hnames
    simpa using g.isField

end UnionNames

/-- The schema is loaded from node lines, given as a list or found in a text. -/
inductive LoadedFrom (base : String) : List String → Schema → Prop
  | lines {texts : List String} {s : Schema} : (Loading.ofLines base texts).result = .ok s →
      LoadedFrom base texts s
  | source {source : String} {s : Schema} : (Loading.ofSource base source).result = .ok s →
      LoadedFrom base ((NumberedLine.ofSource source).map (·.text)) s

namespace LoadedFrom
variable {base : String} {texts : List String} {s : Schema}

theorem exists_variants (h : LoadedFrom base texts s) :
    isIdentifier base = true ∧ s.base = base ∧ s.variants ≠ [] ∧
      (s.variants.map (·.name)).Nodup ∧
      List.Forall₂ (fun text v => ∃ l : Layout, l.text = text ∧ l.variant = v) texts s.variants := by
  obtain ⟨ls, rfl, hls⟩ : ∃ ls, ls.map (·.text) = texts ∧
      (Loading.ofNumbered base ls).result = .ok s := by
    cases h with
    | @lines texts s h =>
        refine ⟨NumberedLine.ofLines texts, ?_, h⟩
        simp [NumberedLine.ofLines, Function.comp_def]
    | source h => exact ⟨_, rfl, h⟩
  obtain ⟨hbase, hne, vs, hall, hnodup, rfl⟩ := Loading.ofNumbered_eq_ok_iff.mp hls
  refine ⟨hbase, rfl, ?_, hnodup, ?_⟩
  · intro hvs
    obtain rfl : vs = [] := hvs
    exact hne (List.forall₂_nil_right_iff.mp hall)
  · rw [List.forall₂_map_left_iff]
    exact hall.imp fun _ _ hparse => parse_eq_ok_iff_layout.mp hparse

theorem length_eq (h : LoadedFrom base texts s) : s.variants.length = texts.length := by
  obtain ⟨-, -, -, -, hall⟩ := h.exists_variants
  exact hall.length_eq.symm

theorem exists_layout_of_getElem? (h : LoadedFrom base texts s) {k : Nat} {v : Variant}
    (hv : s.variants[k]? = some v) : ∃ l : Layout, texts[k]? = some l.text ∧ l.variant = v := by
  obtain ⟨-, -, -, -, hall⟩ := h.exists_variants
  obtain ⟨hlength, hget⟩ := List.forall₂_iff_get.mp hall
  obtain ⟨hk, rfl⟩ := List.getElem?_eq_some_iff.mp hv
  obtain ⟨l, htext, hl⟩ := hget k (hlength ▸ hk) hk
  refine ⟨l, ?_, hl⟩
  rw [htext]
  exact List.getElem?_eq_getElem (hlength ▸ hk)

theorem wellFormed (h : LoadedFrom base texts s) : ∀ v ∈ s.variants, v.WellFormed := by
  intro v hv
  obtain ⟨k, hk⟩ := List.mem_iff_getElem?.mp hv
  obtain ⟨l, -, rfl⟩ := h.exists_layout_of_getElem? hk
  exact l.wellFormed

/-- However the blanks of its node lines are changed, the schema stays the same. -/
theorem respaced (h : LoadedFrom base texts s) {ms : List Layout}
    (hms : ms.map (·.variant) = s.variants) :
    (Loading.ofLines base (ms.map (·.text))).result = .ok s := by
  obtain ⟨hbase, hs, hne, hnodup, -⟩ := h.exists_variants
  have hlength : (NumberedLine.ofLines (ms.map (·.text))).length = s.variants.length := by
    simp [NumberedLine.ofLines, ← hms]
  refine Loading.ofNumbered_eq_ok_iff.mpr ⟨hbase, ?_, s.variants, ?_, hnodup, by rw [← hs]⟩
  · apply List.ne_nil_of_length_pos
    rw [hlength]
    exact List.length_pos_of_ne_nil hne
  · refine List.forall₂_iff_get.mpr ⟨hlength, ?_⟩
    intro i _ hi
    have hi' : i < ms.length := by simpa [← hms] using hi
    simpa [NumberedLine.ofLines, ← hms] using parse_layout ms[i] (1 + i)

end LoadedFrom

/-- In the module of a schema, fields are stored as their tokens say, whatever blanks stand around
them in their line. -/
theorem storedTypes_by_tokens {base : String} {texts : List String} {s : Schema}
    {element : Option String} (hs : LoadedFrom base texts s)
    (helement : ∀ e ∈ element, isIdentifier e = true) :
    let names := UnionNames.make base element
    s.moduleText element = moduleHead ++ derives ++ "pub enum " ++ base ++ " \x7b\n" ++
        String.join ((s.variants.map names.row).map (· ++ "\n")) ++ "\x7d" ∧
      (∀ ms : List Layout, ms.map (·.variant) = s.variants →
        (Loading.ofLines base (ms.map (·.text))).result = .ok s) ∧
      s.variants.length = texts.length ∧
      ∀ (k : Nat) v, s.variants[k]? = some v →
        ∃ l : Layout, texts[k]? = some l.text ∧ l.variant = v ∧
          (names.storedTypes v).length = l.fields.length ∧
          ∀ (i : Nat) g, l.fields[i]? = some g →
            (∀ name, ScansToWord (String.ofList g.chars) name ↔
              ScansToWord (String.ofList g.text) name) ∧
            ∃ stored, (names.storedTypes v)[i]? = some stored ∧
              StoredByTokens names i (String.ofList g.text) stored := by
  intro names
  obtain ⟨hbase, hsbase, -⟩ := hs.exists_variants
  have hnames : names.Legal := UnionNames.legal_make hbase helement
  refine ⟨?_, fun ms => hs.respaced, hs.length_eq, ?_⟩
  · rw [Schema.moduleText, hsbase]
    exact UnionNames.moduleText_eq_rows hs.wellFormed
  · intro k v hv
    obtain ⟨l, htext, rfl⟩ := hs.exists_layout_of_getElem? hv
    refine ⟨l, htext, rfl, ?_, ?_⟩
    · simp [UnionNames.storedTypes, Layout.variant]
    · intro i g hg
      exact ⟨g.scansToWord_chars, UnionNames.storedTypes_layout hnames l hg⟩

/-- A leading element and the union are boxed, behind and around them nothing is. -/
theorem storedTypes_by_tokens_call :
    let line := " Call |Stmt , Vec<(Expr, A)>,\tExpr , Stmt"
    let call : Variant := ⟨"Call", ["Stmt", "Vec<(Expr, A)>", "Expr", "Stmt"]⟩
    LoadedFrom "Expr" [line] ⟨"Expr", [call]⟩ ∧ isIdentifier "Stmt" = true ∧
      ∃ l : Layout, l.text = line ∧ l.variant = call ∧
        ∀ (i : Nat) g, l.fields[i]? = some g →
          ∃ stored, ["Box<Stmt>", "Vec<(Expr, A)>", "Box<Expr>", "Stmt"][i]? = some stored ∧
            StoredByTokens ⟨"Expr", "Stmt"⟩ i (String.ofList g.text) stored := by
  intro line call
  have hs : LoadedFrom "Expr" [line] ⟨"Expr", [call]⟩ := .lines (by decide +kernel)
  have hstmt : isIdentifier "Stmt" = true := by decide +kernel
  obtain ⟨-, -, -, hvariants⟩ := @storedTypes_by_tokens _ _ _ (some "Stmt") hs
    (by simp [hstmt])
  obtain ⟨l, htext, hl, -, hfields⟩ := hvariants 0 call rfl
  have hstored : (UnionNames.make "Expr" (some "Stmt")).storedTypes call =
      ["Box<Stmt>", "Vec<(Expr, A)>", "Box<Expr>", "Stmt"] := by decide +kernel
  refine ⟨hs, hstmt, l, (Option.some.inj htext).symm, hl, ?_⟩
  intro i g hg
  rw [← hstored]
  exact (hfields i g hg).2

end TaggedUnion
