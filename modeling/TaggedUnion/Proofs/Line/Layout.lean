import TaggedUnion.Proofs.Line.FieldReading

/-!
# Layouts of a node line

A layout says how a node line is written: a name, a `|` and fields divided by commas, with blanks
around each of them. What a field may be is said of its text alone. A line can be read exactly if
it has a layout, the layout then gives what is read, and a line has only one.
-/

namespace TaggedUnion

open Text Unicode

/-- The text of a field: without blanks at its ends, its own tokens are those of a field. -/
structure IsField (cs : List Char) : Prop extends Trimmed cs where
  tokens : FieldTokens (tokenKinds cs)

/-- A field with the blanks around it. -/
@[ext] structure SpacedField where
  before : List Char
  text : List Char
  after : List Char
  before_blank : IsBlank before
  isField : IsField text
  after_blank : IsBlank after

def SpacedField.chars (f : SpacedField) : List Char :=
  f.before ++ f.text ++ f.after

/-- How a node line is written, blanks included. -/
@[ext] structure Layout where
  lead : List Char
  name : List Char
  gap : List Char
  fields : List SpacedField
  lead_blank : IsBlank lead
  isWord : IsWord name
  gap_blank : IsBlank gap
  fields_ne_nil : fields ≠ []

def listChars (fs : List SpacedField) : List Char :=
  [','].intercalate (fs.map (·.chars))

namespace Layout

def chars (l : Layout) : List Char :=
  l.lead ++ l.name ++ l.gap ++ '|' :: listChars l.fields

def text (l : Layout) : String :=
  String.ofList l.chars

def variant (l : Layout) : Variant :=
  ⟨String.ofList l.name, l.fields.map fun f => String.ofList f.text⟩

end Layout

theorem listChars_singleton (f : SpacedField) : listChars [f] = f.chars := by
  simp [listChars]

theorem listChars_cons {fs : List SpacedField} (f : SpacedField) (h : fs ≠ []) :
    listChars (f :: fs) = f.chars ++ ',' :: listChars fs := by
  obtain ⟨g, gs, rfl⟩ := List.exists_cons_of_ne_nil h
  simp [listChars]

namespace Grammar

/-- Wherever a field stands, its tokens are those of a field and cover its text. -/
theorem isBody_of_isField {cs : List Char} (h : IsField cs) (s : Scanner) :
    IsBody (s.locate (Piece.split cs)) := by
  refine ⟨(Scanner.cover_locate_split h.toTrimmed s).1, ?_⟩
  rw [s.map_kind_locate_split]
  exact (fieldTokens_iff_passAll (endOfLine_notMem_tokenKinds cs)).mp h.tokens

theorem locate_spacedField (f : SpacedField) (s : Scanner) :
    s.locate (Piece.split f.chars) = (s.advance f.before).locate (Piece.split f.text) := by
  rw [SpacedField.chars, Scanner.locate_split_append_blank _ f.after_blank,
    Scanner.locate_split_blank_append f.before_blank]

theorem cut_spacedField (f : SpacedField) (start rest : List Char) (s : Scanner)
    (hs : s.offset = byteLength start) :
    (Token.cover (s.locate (Piece.split f.chars))).text
      (String.ofList (start ++ f.chars ++ rest)) = String.ofList f.text := by
  rw [locate_spacedField, (Scanner.cover_locate_split f.isField.toTrimmed _).2, Span.text]
  have hparts : start ++ f.chars ++ rest = (start ++ f.before) ++ f.text ++ (f.after ++ rest) := by
    simp [SpacedField.chars]
  have hcut := cut_append (start ++ f.before) f.text (f.after ++ rest)
  rw [byteLength_append] at hcut
  rw [String.toList_ofList, hparts, Scanner.advance_offset, hs, hcut]

theorem fieldList_of_listChars {fs : List SpacedField} (hfs : fs ≠ []) (start : List Char)
    (s : Scanner) (hs : s.offset = byteLength start) :
    ∃ spans, FieldList (s.locate (Piece.split (listChars fs))) spans ∧
      spans.map (·.text (String.ofList (start ++ listChars fs))) =
        fs.map fun f => String.ofList f.text := by
  induction fs generalizing start s with
  | nil => exact absurd rfl hfs
  | cons f fs ih =>
      have hbody : IsBody (s.locate (Piece.split f.chars)) := by
        rw [locate_spacedField]
        exact isBody_of_isField f.isField _
      by_cases hnil : fs = []
      · subst hnil
        rw [listChars_singleton]
        refine ⟨_, .one hbody, ?_⟩
        have hcut := cut_spacedField f start [] s hs
        rw [List.append_nil] at hcut
        rw [List.map_singleton, List.map_singleton, hcut]
      · have hnext : (s.advance (f.chars ++ [','])).offset =
            byteLength (start ++ (f.chars ++ [','])) := by
          rw [Scanner.advance_offset, byteLength_append start, hs]
        obtain ⟨spans, hlist, htexts⟩ := ih hnil _ _ hnext
        have hsplit := Scanner.locate_split_mark (m := ',') (by decide) (by decide) (by decide)
          f.chars (listChars fs) s
        rw [listChars_cons f hnil, hsplit]
        refine ⟨_, .more hbody rfl hlist, ?_⟩
        have hcut := cut_spacedField f start (',' :: listChars fs) s hs
        have hparts : start ++ (f.chars ++ ',' :: listChars fs) =
            start ++ (f.chars ++ [',']) ++ listChars fs := by simp
        rw [List.map_cons, List.map_cons, ← List.append_assoc, hcut, List.append_assoc, hparts,
          htexts]

end Grammar

theorem SpacedField.tokenKinds_chars (f : SpacedField) : tokenKinds f.chars = tokenKinds f.text :=
  tokenKinds_blanks f.before_blank f.after_blank f.text

theorem tokenKinds_listChars_cons {fs : List SpacedField} (f : SpacedField) (h : fs ≠ []) :
    tokenKinds (listChars (f :: fs)) =
      tokenKinds f.text ++ .comma :: tokenKinds (listChars fs) := by
  rw [listChars_cons f h, tokenKinds_mark (by decide) (by decide) (by decide),
    f.tokenKinds_chars]
  rfl

theorem Layout.tokenKinds_chars (l : Layout) :
    tokenKinds l.chars =
      .word (String.ofList l.name) :: .pipe :: tokenKinds (listChars l.fields) := by
  rw [chars, tokenKinds_mark (by decide) (by decide) (by decide),
    tokenKinds_blanks l.lead_blank l.gap_blank, tokenKinds_of_isWord l.isWord]
  rfl

theorem parse_eq_ok_iff {line : Nat} {text : String} {v : Variant} :
    Variant.parse line text = .ok v ↔
      ∃ o rest, Grammar.outline (Scanner.start line text).final
        (Scanner.start line text).tokens = .ok o rest ∧ o.variant text = v :=
  (LineReader.start line text).read_eq_ok_iff

/-- A line with a layout is read as what the layout declares. -/
theorem parse_layout (l : Layout) (line : Nat) : Variant.parse line l.text = .ok l.variant := by
  set s := Scanner.start line l.text with hs
  set start := l.lead ++ l.name ++ l.gap with hstart
  have htokens : s.tokens = s.locate (Piece.split l.chars) := by
    rw [Scanner.tokens, hs, Scanner.start, Layout.text, String.toList_ofList]
  obtain ⟨c, ds, hname, hword⟩ := Piece.split_of_isWord l.isWord
  have hhead : s.locate (Piece.split start) =
      [(s.advance l.lead).token (.word (String.ofList l.name)) l.name] := by
    rw [hstart, Scanner.locate_split_append_blank _ l.gap_blank,
      Scanner.locate_split_blank_append l.lead_blank, hword, hname]
    rfl
  have hoffset : (s.advance (start ++ ['|'])).offset = byteLength (start ++ ['|']) := by
    rw [Scanner.advance_offset, hs]
    exact Nat.zero_add _
  obtain ⟨spans, hlist, htexts⟩ := Grammar.fieldList_of_listChars l.fields_ne_nil _ _ hoffset
  have hline : start ++ ['|'] ++ listChars l.fields = l.chars := by
    simp [hstart, Layout.chars]
  have hsplit := Scanner.locate_split_mark (m := '|') (by decide) (by decide) (by decide)
    start (listChars l.fields) s
  rw [hhead] at hsplit
  refine parse_eq_ok_iff.mpr ⟨⟨String.ofList l.name, spans⟩, [], ?_, ?_⟩
  · rw [Grammar.outline_eq_ok_iff]
    have hline : s.tokens = _ := htokens.trans hsplit
    exact ⟨_, _, _, by rw [hline, List.append_nil]; rfl, rfl, rfl, hlist, by simp [Grammar.Ends]⟩
  · rw [Outline.variant, Layout.variant, ← htexts, hline]
    rfl

/-- Tokens that are read as one field come from a field with blanks around it. -/
theorem exists_spacedField {s : Scanner} {ps : List Piece} (hcut : Piece.WellCut ps)
    (h : Grammar.IsBody (s.locate ps)) : ∃ f : SpacedField, ps.flatMap Piece.text = f.chars := by
  have hps := Piece.split_flatMap_text hcut
  have hblank : ¬ IsBlank (ps.flatMap Piece.text) := by
    intro hb
    apply h.ne_nil
    rw [← hps]
    exact Scanner.locate_split_of_isBlank hb s
  obtain ⟨before, core, after, htext, hbefore, hcore, hafter⟩ := exists_trimmed hblank
  have hkinds : (s.locate ps).map (·.kind) = tokenKinds core := by
    rw [← hps, htext, Scanner.locate_split_append_blank _ hafter,
      Scanner.locate_split_blank_append hbefore, Scanner.map_kind_locate_split]
  have htokens : FieldTokens (tokenKinds core) := by
    rw [Grammar.fieldTokens_iff_passAll (endOfLine_notMem_tokenKinds core), ← hkinds]
    exact h.passed
  exact ⟨⟨before, core, after, hbefore, ⟨hcore, htokens⟩, hafter⟩, htext⟩

/-- Tokens that are read as fields come from fields divided by commas. -/
theorem exists_listChars {ts : List Token} {spans : List Span} (h : Grammar.FieldList ts spans)
    {s : Scanner} {ps : List Piece} (hcut : Piece.WellCut ps) (hts : s.locate ps = ts) :
    ∃ fs, fs ≠ [] ∧ ps.flatMap Piece.text = listChars fs := by
  induction h generalizing s ps with
  | one hbody =>
      rw [← hts] at hbody
      obtain ⟨f, hf⟩ := exists_spacedField hcut hbody
      exact ⟨[f], by simp, by rw [hf, listChars_singleton]⟩
  | @more body ts comma spans hbody hcomma _ ih =>
      obtain ⟨ps₁, ps₂, rfl, hps₁, hps₂⟩ := Scanner.locate_eq_append hts
      obtain ⟨pre, p, kind, qs, rfl, hpre, hkind, rfl, hqs⟩ := Scanner.locate_eq_cons hps₂
      obtain rfl : kind = .comma := hcomma
      obtain rfl := Piece.eq_single_of_comma hkind
      -- The blanks before the comma make no token. They go to the field on its left.
      have hfield : s.locate (ps₁ ++ pre) = body := by
        rw [Scanner.locate_append, hps₁, Scanner.locate_eq_nil hpre, List.append_nil]
      rw [← hfield] at hbody
      obtain ⟨f, hf⟩ := exists_spacedField (hcut.stretch ⟨[], .single ',' :: qs, by simp⟩) hbody
      obtain ⟨fs, hfs, htext⟩ := ih (hcut.stretch ⟨ps₁ ++ pre ++ [.single ','], [], by simp⟩) hqs
      refine ⟨f :: fs, by simp, ?_⟩
      rw [listChars_cons f hfs, ← htext, ← hf]
      simp [Piece.text]

theorem exists_layout {line : Nat} {text : String} {v : Variant}
    (h : Variant.parse line text = .ok v) : ∃ l : Layout, l.text = text := by
  obtain ⟨o, rest, ho, -⟩ := parse_eq_ok_iff.mp h
  obtain ⟨n, d, listed, htokens, hn, hd, hlist, hends⟩ := Grammar.outline_eq_ok_iff.mp ho
  set s := Scanner.start line text
  have hcut := Piece.split_wellCut text.toList
  have hrest : rest = [] := by
    cases rest with
    | nil => rfl
    | cons t rest =>
        exfalso
        apply endOfLine_notMem_tokenKinds text.toList
        rw [← s.map_kind_locate_split, ← hends t rfl]
        apply List.mem_map_of_mem
        have hmem : t ∈ s.tokens := by simp [htokens]
        exact hmem
  subst hrest
  rw [List.append_nil] at htokens
  obtain ⟨pre, p, kind, qs, hps, hpre, hkind, rfl, hqs⟩ := Scanner.locate_eq_cons htokens
  obtain ⟨pre', p', kind', qs', rfl, hpre', hkind', rfl, hqs'⟩ := Scanner.locate_eq_cons hqs
  obtain rfl : kind = .word o.name := hn
  obtain rfl : kind' = .pipe := hd
  obtain rfl := Piece.eq_single_of_pipe hkind'
  have hps' : Piece.split text.toList = pre ++ p :: (pre' ++ .single '|' :: qs') := hps
  rw [hps'] at hcut
  obtain ⟨fs, hfs, hlistChars⟩ := exists_listChars hlist
    (hcut.stretch ⟨pre ++ p :: pre' ++ [.single '|'], [], by simp⟩) hqs'
  refine ⟨⟨pre.flatMap Piece.text, p.text, pre'.flatMap Piece.text, fs, ?_, ?_, ?_, hfs⟩, ?_⟩
  · exact Piece.isBlank_flatMap_text (fun q hq => hcut.pure q (by simp [hq])) hpre
  · exact Piece.isWord_of_kind? (hcut.pure p (by simp)) hkind
  · exact Piece.isBlank_flatMap_text (fun q hq => hcut.pure q (by simp [hq])) hpre'
  · rw [Layout.text, Layout.chars, ← hlistChars]
    apply String.toList_inj.mp
    rw [String.toList_ofList, ← Piece.flatMap_text_split text.toList, hps']
    simp [Piece.text]

theorem parse_eq_ok_iff_layout {line : Nat} {text : String} {v : Variant} :
    Variant.parse line text = .ok v ↔ ∃ l : Layout, l.text = text ∧ l.variant = v := by
  constructor
  · intro h
    -- What the layout declares follows from the other direction.
    obtain ⟨l, rfl⟩ := exists_layout h
    rw [parse_layout] at h
    exact ⟨l, rfl, Except.ok.inj h⟩
  · rintro ⟨l, rfl, rfl⟩
    exact parse_layout l line

/-- The blanks around a field are what a text leaves for them. -/
theorem SpacedField.eq_of_append {f g : SpacedField} {x y : List Char}
    (hx : ∀ c ∈ x.head?, isWhite c = false) (hy : ∀ c ∈ y.head?, isWhite c = false)
    (htext : f.text = g.text) (h : f.chars ++ x = g.chars ++ y) : f = g ∧ x = y := by
  simp only [chars, List.append_assoc] at h
  obtain ⟨hbefore, hrest⟩ := append_inj_of_isBlank f.before_blank g.before_blank
    (f.isField.toTrimmed.head?_append _) (g.isField.toTrimmed.head?_append _) h
  rw [htext] at hrest
  obtain ⟨hafter, hxy⟩ := append_inj_of_isBlank f.after_blank g.after_blank hx hy
    (List.append_cancel_left hrest)
  exact ⟨SpacedField.ext hbefore htext hafter, hxy⟩

theorem listChars_inj {fs gs : List SpacedField} (htexts : fs.map (·.text) = gs.map (·.text))
    (h : listChars fs = listChars gs) : fs = gs := by
  induction fs generalizing gs with
  | nil => exact (List.map_eq_nil_iff.mp htexts.symm).symm
  | cons f fs ih =>
      cases gs with
      | nil => simp at htexts
      | cons g gs =>
          obtain ⟨htext, hmore⟩ := List.cons.inj htexts
          have hnil : fs = [] ↔ gs = [] := by
            rw [← List.map_eq_nil_iff (f := (·.text)), hmore, List.map_eq_nil_iff]
          have hcomma : ∀ (rest : List Char), ∀ c ∈ (',' :: rest).head?, isWhite c = false := by
            intro rest c hc
            obtain rfl : ',' = c := Option.some.inj hc
            decide
          by_cases hfs : fs = []
          · obtain rfl := hfs
            obtain rfl := hnil.mp rfl
            rw [listChars_singleton, listChars_singleton] at h
            have hnone : ∀ c ∈ ([] : List Char).head?, isWhite c = false := by simp
            obtain ⟨rfl, -⟩ := SpacedField.eq_of_append hnone hnone htext (by simpa using h)
            rfl
          · rw [listChars_cons f hfs, listChars_cons g (mt hnil.mpr hfs)] at h
            obtain ⟨rfl, hrest⟩ := SpacedField.eq_of_append (hcomma _) (hcomma _) htext h
            rw [ih hmore (List.cons.inj hrest).2]

/-- A line has only one layout. -/
theorem Layout.text_inj {l m : Layout} (h : l.text = m.text) : l = m := by
  have hvariant : l.variant = m.variant := by
    have hl := parse_layout l 1
    rw [h, parse_layout] at hl
    exact (Except.ok.inj hl).symm
  have hname : l.name = m.name := String.ofList_inj.mp (congrArg Variant.name hvariant)
  have htexts : l.fields.map (·.text) = m.fields.map (·.text) := by
    have hmap := congrArg (List.map String.toList) (congrArg Variant.fields hvariant)
    simpa [Layout.variant, Function.comp_def] using hmap
  have hpipe : ∀ (rest : List Char), ∀ c ∈ ('|' :: rest).head?, isWhite c = false := by
    intro rest c hc
    obtain rfl : '|' = c := Option.some.inj hc
    decide
  have hchars : l.chars = m.chars := String.ofList_inj.mp h
  simp only [chars, List.append_assoc] at hchars
  obtain ⟨hlead, hrest⟩ := append_inj_of_isBlank l.lead_blank m.lead_blank
    (l.isWord.trimmed.head?_append _) (m.isWord.trimmed.head?_append _) hchars
  rw [hname] at hrest
  obtain ⟨hgap, hlist⟩ := append_inj_of_isBlank l.gap_blank m.gap_blank (hpipe _) (hpipe _)
    (List.append_cancel_left hrest)
  exact Layout.ext hlead hname hgap (listChars_inj htexts (List.cons.inj hlist).2)

namespace Variant

/-- The name and the fields can stand in a node line. -/
structure WellFormed (v : Variant) : Prop where
  isWord : IsWord v.name.toList
  fields_ne_nil : v.fields ≠ []
  isField : ∀ f ∈ v.fields, IsField f.toList

/-- The variant as a node line, with one blank on each side of the `|` and behind each comma. -/
def nodeLine (v : Variant) : String :=
  v.name ++ " | " ++ ", ".intercalate v.fields

end Variant

theorem Layout.wellFormed (l : Layout) : l.variant.WellFormed := by
  refine ⟨?_, ?_, ?_⟩
  · simpa [variant] using l.isWord
  · simpa [variant] using l.fields_ne_nil
  · intro f hf
    obtain ⟨g, -, rfl⟩ := List.mem_map.mp hf
    simpa using g.isField

theorem wellFormed_of_parse {line : Nat} {text : String} {v : Variant}
    (h : Variant.parse line text = .ok v) : v.WellFormed := by
  obtain ⟨l, -, rfl⟩ := parse_eq_ok_iff_layout.mp h
  exact l.wellFormed

def SpacedField.plain (f : String) (h : IsField f.toList) : SpacedField :=
  ⟨[' '], f.toList, [], isBlank_space, h, .nil⟩

theorem listChars_plain {fs : List String} (h : ∀ f ∈ fs, IsField f.toList) (hne : fs ≠ []) :
    listChars (fs.pmap SpacedField.plain h) = ' ' :: (", ".intercalate fs).toList := by
  induction fs with
  | nil => exact absurd rfl hne
  | cons f fs ih =>
      by_cases hfs : fs = []
      · subst hfs
        simp [listChars, SpacedField.chars, SpacedField.plain]
      · have htail := ih (fun g hg => h g (by simp [hg])) hfs
        rw [List.pmap_cons, listChars_cons _ (by simpa using hfs), htail,
          String.intercalate_cons_of_ne_nil hfs]
        simp [SpacedField.chars, SpacedField.plain]

/-- A variant is read back from its node line. -/
theorem parse_nodeLine {v : Variant} (h : v.WellFormed) (line : Nat) :
    Variant.parse line v.nodeLine = .ok v := by
  rw [parse_eq_ok_iff_layout]
  refine ⟨⟨[], v.name.toList, [' '], v.fields.pmap SpacedField.plain h.isField, .nil, h.isWord,
    isBlank_space, by simpa using h.fields_ne_nil⟩, ?_, ?_⟩
  · apply String.toList_inj.mp
    rw [Layout.text, Layout.chars, listChars_plain h.isField h.fields_ne_nil, Variant.nodeLine]
    simp
  · simp [Layout.variant, SpacedField.plain, List.map_pmap]

theorem infix_listChars {f : SpacedField} {fs : List SpacedField} (h : f ∈ fs) :
    f.chars <:+: listChars fs := by
  induction fs with
  | nil => simp at h
  | cons g fs ih =>
      by_cases hfs : fs = []
      · subst hfs
        obtain rfl := List.mem_singleton.mp h
        simp only [listChars_singleton, List.infix_rfl]
      · rw [listChars_cons g hfs]
        rcases List.mem_cons.mp h with rfl | h
        · exact (List.prefix_append _ _).isInfix
        · exact (ih h).trans ((List.suffix_cons _ _).trans (List.suffix_append _ _)).isInfix

theorem Layout.infix_of_mem_fields {l : Layout} {f : String} (h : f ∈ l.variant.fields) :
    f.toList <:+: l.text.toList := by
  obtain ⟨g, hg, rfl⟩ := List.mem_map.mp h
  have hfield : g.text <:+: g.chars := ⟨g.before, g.after, rfl⟩
  have hlist : listChars l.fields <:+: l.chars :=
    ((List.suffix_cons _ _).trans (List.suffix_append _ _)).isInfix
  rw [text, String.toList_ofList, String.toList_ofList]
  exact (hfield.trans (infix_listChars hg)).trans hlist

/-- A line is read exactly if it has a layout, as what the layout declares. It has no second layout,
so blanks around the name, the `|` and the commas between fields do not matter, and the fields are
stretches of the line. The plain way to write what was read is read in the same way. -/
theorem parse_exact (line : Nat) :
    (∀ text v, Variant.parse line text = .ok v ↔ ∃ l : Layout, l.text = text ∧ l.variant = v) ∧
      Function.Injective Layout.text ∧
      (∀ l m : Layout, m.variant = l.variant → Variant.parse line m.text = .ok l.variant) ∧
      ∀ text v, Variant.parse line text = .ok v →
        (∀ f ∈ v.fields, f.toList <:+: text.toList) ∧
          Variant.parse line (v.name ++ " | " ++ ", ".intercalate v.fields) = .ok v := by
  refine ⟨fun text v => parse_eq_ok_iff_layout, fun l m => Layout.text_inj, ?_, ?_⟩
  · intro l m h
    rw [parse_layout, h]
  · intro text v h
    obtain ⟨l, rfl, rfl⟩ := parse_eq_ok_iff_layout.mp h
    exact ⟨fun f hf => Layout.infix_of_mem_fields hf, parse_nodeLine l.wellFormed line⟩

end TaggedUnion
