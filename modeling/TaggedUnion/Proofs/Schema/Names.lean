import TaggedUnion.Proofs.Declaration.StoredTokens
import TaggedUnion.Proofs.Line.Renumbering

/-!
# Names in a schema

The base of a schema has to be an identifier, the name of a variant only a word. The two differ by
the first character: a word that is not an identifier starts with a digit. A name is the first
thing in its line, so the lines show whether all names of a schema are identifiers.

A line is refused for its name exactly if it starts with something that belongs to no word, which a
digit is not.

An identifier is checked character by character, a word is cut out of its line by the scanner. On a
text that is nothing but a name, the two agree up to its first character.
-/

namespace TaggedUnion

open Text Unicode

/-- The first character is a digit and not at the same time a letter, as some numerals are. -/
def StartsWithDigit (cs : List Char) : Prop :=
  ∃ c ∈ cs.head?, isNumeric c = true ∧ isAlphabetic c = false

theorem startsWithDigit_append {cs : List Char} (h : cs ≠ []) (more : List Char) :
    StartsWithDigit (cs ++ more) ↔ StartsWithDigit cs := by
  simp only [StartsWithDigit, List.head?_append_of_ne_nil _ h]

theorem isNumeric_underscore : isNumeric '_' = false := by decide +kernel

/-- A digit is the only thing that keeps a word from being an identifier. -/
theorem IsWord.isIdentifier_iff {s : String} (h : IsWord s.toList) :
    isIdentifier s = true ↔ ¬ StartsWithDigit s.toList := by
  obtain ⟨c, cs, hs⟩ := List.exists_cons_of_ne_nil h.ne_nil
  have hmore : cs.all TaggedUnion.isWordChar = true := by
    rw [List.all_eq_true]
    intro d hd
    exact h.isWordChar d (by simp [hs, hd])
  have hfirst := h.isWordChar c (by simp [hs])
  simp only [TaggedUnion.isWordChar, isAlphanumeric, Bool.or_eq_true, beq_iff_eq] at hfirst
  simp only [isIdentifier, StartsWithDigit, hs, hmore, Bool.and_true, Bool.or_eq_true, beq_iff_eq,
    List.head?_cons, Option.mem_some_iff, exists_eq_left', not_and, Bool.not_eq_false]
  constructor
  · rintro (halpha | rfl) hnumeric
    · exact halpha
    · simp [isNumeric_underscore] at hnumeric
  · intro hdigit
    rcases hfirst with (halpha | hnumeric) | hunderscore
    · exact .inl halpha
    · exact .inl (hdigit hnumeric)
    · exact .inr hunderscore

/-- An identifier is a word that starts with a letter or an underscore. -/
theorem isIdentifier_iff_isWord (s : String) :
    isIdentifier s = true ↔
      IsWord s.toList ∧ ∃ c ∈ s.toList.head?, isAlphabetic c = true ∨ c = '_' := by
  constructor
  · intro h
    refine ⟨isWord_of_isIdentifier h, ?_⟩
    cases hs : s.toList with
    | nil => simp [isIdentifier, hs] at h
    | cons c cs =>
        simp only [isIdentifier, hs, Bool.and_eq_true, Bool.or_eq_true, beq_iff_eq] at h
        exact ⟨c, rfl, h.1⟩
  · intro h
    obtain ⟨hword, c, hc, hfirst⟩ := h
    cases hs : s.toList with
    | nil => exact absurd hs hword.ne_nil
    | cons d ds =>
        rw [hs] at hc hword
        obtain rfl : d = c := Option.some.inj hc
        have hmore : ds.all isWordChar = true := by
          rw [List.all_eq_true]
          exact fun e he => hword.isWordChar e (List.mem_cons_of_mem d he)
        simp [isIdentifier, hs, hmore, hfirst]

theorem Scanner.scan_of_isWord (line : Nat) {s : String} (h : IsWord s.toList) :
    (Scanner.start line s).scan.1 = [⟨.word s, ⟨line, 1⟩, ⟨0, s.utf8ByteSize⟩⟩,
      ⟨.endOfLine, ⟨line, 1 + s.length⟩, ⟨s.utf8ByteSize, s.utf8ByteSize⟩⟩] := by
  obtain ⟨c, cs, hs, hsplit⟩ := Piece.split_of_isWord h
  have hbytes : byteLength (c :: cs) = s.utf8ByteSize := by rw [← hs, byteLength_toList]
  have hkind : (Piece.word c cs).kind? = some (.word s) := by
    rw [Piece.kind?, ← hs, String.ofList_toList]
  have htokens : (Scanner.start line s).tokens = [⟨.word s, ⟨line, 1⟩, ⟨0, s.utf8ByteSize⟩⟩] := by
    rw [tokens_start, hsplit, locate_cons_token hkind]
    simp [locate, token, start, Piece.text, hbytes]
  rw [scan, htokens, final_start]
  rfl

theorem Scanner.isWord_of_mem_scan {line : Nat} {s w : String} {t : Token}
    (ht : t ∈ (Scanner.start line s).scan.1) (hk : t.kind = .word w) : IsWord w.toList := by
  rcases List.mem_append.mp ht with ht | ht
  · obtain ⟨before, slice, after, hstands⟩ := exists_standsFor ht
    have hdenotes := hstands.denotes
    rw [hk] at hdenotes
    rw [hdenotes.1]
    exact hdenotes.2
  · rw [List.mem_singleton.mp ht, final_start] at hk
    simp at hk

/-- A text is an identifier exactly if the scanner finds one word in it, that word is the whole
text, and it starts with a letter or an underscore. -/
theorem isIdentifier_iff_scan (line : Nat) (s : String) :
    isIdentifier s = true ↔
      (∃ word final, (Scanner.start line s).scan.1 = [word, final] ∧ word.kind = .word s ∧
        word.span = ⟨0, s.utf8ByteSize⟩ ∧ final.kind = .endOfLine) ∧
      ∃ c ∈ s.toList.head?, isAlphabetic c = true ∨ c = '_' := by
  rw [isIdentifier_iff_isWord]
  refine and_congr_left fun _ => ?_
  constructor
  · intro hword
    exact ⟨_, _, Scanner.scan_of_isWord line hword, rfl, rfl, rfl⟩
  · intro ⟨word, final, hscan, hkind, _⟩
    exact Scanner.isWord_of_mem_scan (by rw [hscan]; exact List.mem_cons_self) hkind

theorem Layout.dropWhile_chars (l : Layout) :
    l.chars.dropWhile isWhite = l.name ++ (l.gap ++ '|' :: listChars l.fields) := by
  rw [Layout.chars, List.append_assoc, List.append_assoc]
  exact l.lead_blank.dropWhile_append (l.isWord.trimmed.head?_append _)

theorem Layout.isIdentifier_name_iff (l : Layout) :
    isIdentifier l.variant.name = true ↔
      ¬ StartsWithDigit (l.text.toList.dropWhile isWhite) := by
  have hword : IsWord l.variant.name.toList := by simpa [Layout.variant] using l.isWord
  rw [hword.isIdentifier_iff, Layout.text, String.toList_ofList, l.dropWhile_chars,
    startsWithDigit_append l.isWord.ne_nil, Layout.variant, String.toList_ofList]

namespace LoadedFrom
variable {base : String} {texts : List String} {s : Schema}

theorem forall₂_names (h : LoadedFrom base texts s) :
    List.Forall₂ (fun text v => IsWord v.name.toList ∧
      (isIdentifier v.name = true ↔ ¬ StartsWithDigit (text.toList.dropWhile isWhite)))
      texts s.variants := by
  obtain ⟨-, -, -, -, hall⟩ := h.exists_variants
  refine hall.imp ?_
  rintro text v ⟨l, rfl, rfl⟩
  exact ⟨l.wellFormed.isWord, l.isIdentifier_name_iff⟩

theorem forall_isIdentifier_iff (h : LoadedFrom base texts s) :
    (∀ v ∈ s.variants, isIdentifier v.name = true) ↔
      ∀ text ∈ texts, ¬ StartsWithDigit (text.toList.dropWhile isWhite) := by
  have hall := h.forall₂_names
  clear h
  generalize s.variants = vs at hall
  induction hall with
  | nil => simp
  | cons hname _ ih => simp only [List.forall_mem_cons, hname.2, ih]

end LoadedFrom

theorem Denotes.isWordChar_first_iff {c : Char} {cs : List Char} {kind : Token.Kind}
    (h : Denotes (c :: cs) kind) : isWordChar c = true ↔ ∃ w, kind = .word w := by
  have hmark : c ∈ marks → isWordChar c = false := isWordChar_of_mark
  have hbracket : ∀ d ∈ ['<', '(', '['] ++ ['>', ')', ']'], d ∈ marks := by simp [marks]
  cases kind with
  | word w => simpa using h.2.isWordChar c (by simp)
  | endOfLine => exact h.elim
  | symbol d =>
      obtain ⟨hd, -, hword, -⟩ := h
      obtain ⟨rfl, -⟩ := List.cons.inj hd
      simp [hword]
  | pipe | comma | arrow =>
      obtain ⟨rfl, -⟩ := List.cons.inj h
      simp [hmark (by decide)]
  | opener d | closer d =>
      obtain ⟨hd, hmem⟩ := h
      obtain ⟨rfl, -⟩ := List.cons.inj hd
      have hc := hmark (hbracket c (List.mem_append.mpr (by simp only [hmem, true_or, or_true])))
      simp [hc]

/-- What a line starts with, blanks apart, says whether its first token is a word. -/
theorem Scanner.isWordChar_first_iff {line : Nat} {text : String} {t : Token} {ts : List Token}
    (h : (Scanner.start line text).tokens = t :: ts) :
    ∃ c ∈ (text.toList.dropWhile isWhite).head?,
      (isWordChar c = true ↔ ∃ w, t.kind = .word w) := by
  obtain ⟨slice, after, hstands⟩ := Scanner.standsFor_first h
  obtain ⟨c, cs, rfl⟩ := List.exists_cons_of_ne_nil hstands.slice_ne_nil
  have htext := hstands.text_eq
  have hrest : text.toList.dropWhile isWhite = c :: cs ++ after := by
    have hparts := List.takeWhile_append_dropWhile (p := isWhite) (l := text.toList)
    exact List.append_cancel_left (hparts.trans (htext.trans (List.append_assoc _ _ _)))
  exact ⟨c, by simp [hrest], hstands.denotes.isWordChar_first_iff⟩

/-- A line is refused for its name exactly if it starts with something that belongs to no word. -/
theorem Variant.parse_invalidName_iff {line : Nat} {text : String} :
    (∃ e, Variant.parse line text = .error e ∧ e.cause.category = .invalidName) ↔
      ∃ c ∈ (text.toList.dropWhile isWhite).head?, isWordChar c = false := by
  constructor
  · rintro ⟨e, he, hcategory⟩
    obtain ⟨rest, ho⟩ := (LineReader.read_eq_error_iff _).mp he
    obtain ⟨place, rfl, -⟩ | ⟨t, ts, hts, hword, -⟩ | ⟨-, -, w, -, -, place, cause, rfl, hc⟩ :=
      Grammar.outline_error_cases ho
    · simp [Fault.located, Cause.category] at hcategory
    · obtain ⟨c, hc, hiff⟩ := Scanner.isWordChar_first_iff hts
      refine ⟨c, hc, ?_⟩
      rw [Bool.eq_false_iff]
      intro hw
      obtain ⟨w, hw⟩ := hiff.mp hw
      exact hword w hw
    · exact absurd hcategory hc.category_ne.2.1
  · rintro ⟨c, hc, hnot⟩
    cases hparse : Variant.parse line text with
    | ok v =>
        obtain ⟨l, rfl, rfl⟩ := parse_eq_ok_iff_layout.mp hparse
        rw [Layout.text, String.toList_ofList, l.dropWhile_chars,
          List.head?_append_of_ne_nil _ l.isWord.ne_nil] at hc
        rw [l.isWord.isWordChar c (List.mem_of_mem_head? hc)] at hnot
        exact absurd hnot (by decide)
    | error e =>
        obtain ⟨rest, ho⟩ := (LineReader.read_eq_error_iff _).mp hparse
        obtain ⟨place, -, hends⟩ | ⟨t, ts, -, -, rfl⟩ | ⟨t, ts, variant, hts, ht, -⟩ :=
          Grammar.outline_error_cases ho
        · rw [List.dropWhile_eq_nil_iff.mpr (isBlank_of_ends hends)] at hc
          simp at hc
        · exact ⟨_, rfl, rfl⟩
        · obtain ⟨d, hd, hiff⟩ := Scanner.isWordChar_first_iff hts
          obtain rfl := Option.mem_unique hc hd
          rw [hiff.mpr ⟨variant, ht⟩] at hnot
          exact absurd hnot (by decide)

/-- The base of a schema is an identifier and the names of its variants are words. A name is an
identifier unless its line starts with a digit, and for a digit no line is refused. -/
theorem loaded_names (base source : String) (texts : List String) (line : Nat) (text : String) :
    (∀ s, LoadedFrom base texts s →
      isIdentifier s.base = true ∧
        List.Forall₂ (fun text v => IsWord v.name.toList ∧
          (isIdentifier v.name = true ↔ ¬ StartsWithDigit (text.toList.dropWhile isWhite)))
          texts s.variants ∧
        ((∀ v ∈ s.variants, isIdentifier v.name = true) ↔
          ∀ text ∈ texts, ¬ StartsWithDigit (text.toList.dropWhile isWhite))) ∧
      (isIdentifier base = false →
        (Loading.ofLines base texts).result = .error (.general (.badBase base)) ∧
        (Loading.ofSource base source).result = .error (.general (.badBase base))) ∧
      ((∃ e, Variant.parse line text = .error e ∧ e.cause.category = .invalidName) ↔
        ∃ c ∈ (text.toList.dropWhile isWhite).head?, isWordChar c = false) := by
  refine ⟨?_, ?_, Variant.parse_invalidName_iff⟩
  · intro s hs
    obtain ⟨hbase, rfl, -⟩ := hs.exists_variants
    exact ⟨hbase, hs.forall₂_names, hs.forall_isIdentifier_iff⟩
  · intro hbase
    exact ⟨Loading.ofNumbered_of_not_isIdentifier hbase _,
      Loading.ofNumbered_of_not_isIdentifier hbase _⟩

/-- A Roman numeral is a letter as well, so it starts an identifier; an Arabic digit does not, and
its line is not refused. -/
theorem loaded_names_numerals :
    let texts := [" ⅧFold | Token", "٣d | Expr"]
    let s : Schema := ⟨"Expr", [⟨"ⅧFold", ["Token"]⟩, ⟨"٣d", ["Expr"]⟩]⟩
    LoadedFrom "Expr" texts s ∧ isIdentifier "ⅧFold" = true ∧
      (¬ ∀ v ∈ s.variants, isIdentifier v.name = true) ∧
      ¬ ∃ e, Variant.parse 2 "٣d | Expr" = .error e ∧ e.cause.category = .invalidName := by
  intro texts s
  have hs : LoadedFrom "Expr" texts s := .lines (by decide +kernel)
  obtain ⟨hnames, -, hrefused⟩ := loaded_names "Expr" "٣d | Expr" texts 2 "٣d | Expr"
  obtain ⟨-, hlines, hall⟩ := hnames s hs
  refine ⟨hs, ?_, ?_, ?_⟩
  · obtain ⟨⟨-, hname⟩, -⟩ := List.forall₂_cons.mp hlines
    refine hname.mpr ?_
    rintro ⟨c, hc, -, hletter⟩
    obtain rfl : 'Ⅷ' = c := Option.some.inj hc
    exact absurd hletter (by decide +kernel)
  · rw [hall]
    intro hnone
    exact hnone "٣d | Expr" (by simp [texts]) ⟨'٣', rfl, by decide +kernel, by decide +kernel⟩
  · rw [hrefused]
    rintro ⟨c, hc, hword⟩
    obtain rfl : '٣' = c := Option.some.inj hc
    exact absurd hword (by decide +kernel)

/-- A word that is no identifier can name a variant. -/
theorem loaded_name_not_isIdentifier :
    (Loading.ofLines "Expr" ["2Node | Token"]).result = .ok ⟨"Expr", [⟨"2Node", ["Token"]⟩]⟩ ∧
      (Loading.ofSource "Expr" "2Node | Token").result = .ok ⟨"Expr", [⟨"2Node", ["Token"]⟩]⟩ ∧
      isIdentifier "2Node" = false := by
  decide +kernel

end TaggedUnion
