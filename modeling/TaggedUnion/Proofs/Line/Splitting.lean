import TaggedUnion.Proofs.Line.Layout

/-!
# Reading a line by splitting it

A node line can be split at its marks without looking at its tokens: at the first `|`, then at every
comma, with the blanks taken off each part. This knows nothing of brackets. If no comma stands
inside brackets, it gives what reading the line gives. If the commas are also written plainly, each
with one space behind it and no other blank beside it, it is enough to split at the comma with its
space.
-/

namespace TaggedUnion

open Unicode

namespace Text

def trim (cs : List Char) : List Char :=
  (cs.dropWhile isWhite).rdropWhile isWhite

/-- What stands before a mark and what behind it, where it occurs first. -/
def splitOnce (mark : Char) (cs : List Char) : Option (List Char × List Char) :=
  match cs.dropWhile (· != mark) with
  | [] => none
  | _ :: rest => some (cs.takeWhile (· != mark), rest)

/-- Splits a text behind its first `skipped` characters at every occurrence of a separator, from
left to right. The separator must not be empty. -/
def splitOnText (separator : List Char) : (skipped : Nat) → List Char → List (List Char)
  | _, [] => [[]]
  | skipped + 1, _ :: cs => splitOnText separator skipped cs
  | 0, c :: cs =>
    if separator.isPrefixOf (c :: cs) then
      [] :: splitOnText separator (separator.length - 1) cs
    else (splitOnText separator 0 cs).modifyHead (c :: ·)

theorem splitOnce_append {mark : Char} {before : List Char} (h : mark ∉ before)
    (rest : List Char) : splitOnce mark (before ++ mark :: rest) = some (before, rest) := by
  have hbefore : ∀ c ∈ before, (c != mark) = true := by
    intro c hc
    rw [bne_iff_ne]
    intro hmark
    exact h (hmark ▸ hc)
  unfold splitOnce
  rw [List.dropWhile_append_of_pos hbefore, List.takeWhile_append_of_pos hbefore]
  simp

theorem splitOnText_skip (separator skipped rest : List Char) :
    splitOnText separator skipped.length (skipped ++ rest) = splitOnText separator 0 rest := by
  induction skipped with
  | nil => rfl
  | cons c skipped ih => exact ih

/-- A part that does not hold the first character of the separator ends at the separator. -/
theorem splitOnText_append {s : Char} {part : List Char} (h : s ∉ part)
    (separator rest : List Char) :
    splitOnText (s :: separator) 0 (part ++ s :: separator ++ rest) =
      part :: splitOnText (s :: separator) 0 rest := by
  induction part with
  | nil =>
      have hskip := splitOnText_skip (s :: separator) separator rest
      simp only [List.nil_append, List.cons_append, splitOnText]
      rw [if_pos (by simp), List.length_cons, Nat.add_sub_cancel, hskip]
  | cons c part ih =>
      have hc : s ≠ c := fun heq => h (by simp [heq])
      have hrest := ih fun hmem => h (List.mem_cons_of_mem c hmem)
      simp only [List.cons_append, splitOnText] at hrest ⊢
      rw [if_neg (by simp [hc]), hrest]
      rfl

theorem splitOnText_of_notMem {s : Char} {part : List Char} (h : s ∉ part)
    (separator : List Char) : splitOnText (s :: separator) 0 part = [part] := by
  induction part with
  | nil => rfl
  | cons c part ih =>
      have hc : s ≠ c := fun heq => h (by simp [heq])
      rw [splitOnText, if_neg (by simp [hc]), ih fun hmem => h (List.mem_cons_of_mem c hmem)]
      rfl

/-- Parts that a separator joins are found again. -/
theorem splitOnText_intercalate {s : Char} {parts : List (List Char)} (hne : parts ≠ [])
    (h : ∀ p ∈ parts, s ∉ p) (separator : List Char) :
    splitOnText (s :: separator) 0 ((s :: separator).intercalate parts) = parts := by
  induction parts with
  | nil => exact absurd rfl hne
  | cons p parts ih =>
      have hp := h p (by simp)
      by_cases hnil : parts = []
      · subst hnil
        rw [List.intercalate_singleton, splitOnText_of_notMem hp]
      · rw [List.intercalate_cons_of_ne_nil hnil, splitOnText_append hp,
          ih hnil fun q hq => h q (by simp [hq])]

end Text

open Text

theorem rdropWhile_append_blank {after : List Char} (h : IsBlank after) (cs : List Char) :
    (cs ++ after).rdropWhile isWhite = cs.rdropWhile isWhite := by
  induction after using List.reverseRecOn with
  | nil => rw [List.append_nil]
  | append_singleton after c ih =>
      rw [← List.append_assoc, List.rdropWhile_concat_pos _ _ _ (h c (by simp)),
        ih fun d hd => h d (by simp [hd])]

theorem trim_append {before core after : List Char} (hbefore : IsBlank before)
    (hcore : Trimmed core) (hafter : IsBlank after) : trim (before ++ core ++ after) = core := by
  have hdrop : (before ++ core ++ after).dropWhile isWhite = core ++ after := by
    rw [List.append_assoc]
    exact hbefore.dropWhile_append (hcore.head?_append after)
  rw [trim, hdrop, rdropWhile_append_blank hafter, List.rdropWhile_eq_self_iff]
  intro hne hwhite
  rw [hcore.last _ (List.getLast?_eq_some_getLast hne)] at hwhite
  exact Bool.false_ne_true hwhite

theorem SpacedField.trim_chars (f : SpacedField) : trim f.chars = f.text :=
  trim_append f.before_blank f.isField.toTrimmed f.after_blank

/-- No comma stands inside brackets: as many brackets are closed before it as are opened. -/
def OuterCommas (ks : List Token.Kind) : Prop :=
  ∀ i < ks.length, ks[i]? = some .comma → depth (ks.take i) = 0

instance (ks : List Token.Kind) : Decidable (OuterCommas ks) :=
  inferInstanceAs (Decidable (∀ i < ks.length, ks[i]? = some .comma → depth (ks.take i) = 0))

/-- Every comma has one space behind it and no other blank beside it. -/
def PlainCommas (cs : List Char) : Prop :=
  ∀ i < cs.length, cs[i]? = some ',' → (∃ c ∈ (cs.take i).getLast?, isWhite c = false) ∧
    cs[i + 1]? = some ' ' ∧ ∃ d ∈ cs[i + 2]?, isWhite d = false

instance (cs : List Char) : Decidable (PlainCommas cs) :=
  decidable_of_iff (∀ i < cs.length, cs[i]? = some ',' →
    (cs.take i).getLast?.any (!isWhite ·) = true ∧ cs[i + 1]? = some ' ' ∧
      cs[i + 2]?.any (!isWhite ·) = true) (by simp [PlainCommas, Option.any_eq_true])

theorem OuterCommas.depth_eq {ks a b : List Token.Kind} (h : OuterCommas ks)
    (hks : ks = a ++ .comma :: b) : depth a = 0 := by
  have hcomma := h a.length (by simp [hks]) (by simp [hks])
  rwa [hks, List.take_left] at hcomma

theorem OuterCommas.right {a b : List Token.Kind} (h : OuterCommas (a ++ b))
    (hdepth : depth a = 0) : OuterCommas b := by
  intro i hi hcomma
  have hat : (a ++ b)[a.length + i]? = some .comma := by
    rw [List.getElem?_append_right (Nat.le_add_right _ _), Nat.add_sub_cancel_left, hcomma]
  have hline := h (a.length + i) (by simp [hi]) hat
  rwa [List.take_length_add_append, depth_append, hdepth, Int.zero_add] at hline

theorem comma_mem_tokenKinds {cs : List Char} (h : ',' ∈ cs) :
    Token.Kind.comma ∈ tokenKinds cs := by
  obtain ⟨a, b, rfl⟩ := List.append_of_mem h
  rw [tokenKinds_mark (by decide) (by decide) (by decide)]
  simp [Token.Kind.ofChar]

theorem comma_notMem_of_outerCommas {f : SpacedField} {rest : List Token.Kind}
    (h : OuterCommas (tokenKinds f.text ++ rest)) : ',' ∉ f.text := by
  intro hcomma
  obtain ⟨a, b, hab⟩ := List.append_of_mem (comma_mem_tokenKinds hcomma)
  apply f.isField.tokens.no_outer_comma a b hab
  exact h.depth_eq (b := b ++ rest) (by simp [hab])

theorem comma_notMem_of_mem {fs : List SpacedField} (h : OuterCommas (tokenKinds (listChars fs))) :
    ∀ f ∈ fs, ',' ∉ f.text := by
  induction fs with
  | nil => simp
  | cons f fs ih =>
      by_cases hfs : fs = []
      · subst hfs
        rw [listChars_singleton, f.tokenKinds_chars, ← List.append_nil (tokenKinds f.text)] at h
        intro g hg
        rw [List.mem_singleton.mp hg]
        exact comma_notMem_of_outerCommas h
      · rw [tokenKinds_listChars_cons f hfs] at h
        intro g hg
        rcases List.mem_cons.mp hg with rfl | hg
        · exact comma_notMem_of_outerCommas h
        · have hdepth : depth (tokenKinds f.text ++ [.comma]) = 0 := by
            rw [depth_append, f.isField.tokens.balanced.depth_eq]
            rfl
          rw [← List.singleton_append, ← List.append_assoc] at h
          exact ih (h.right hdepth) g hg

/-- Without inner commas, splitting at every comma finds the fields with the blanks around them. -/
theorem splitOn_listChars {fs : List SpacedField} (hne : fs ≠ []) (h : ∀ f ∈ fs, ',' ∉ f.text) :
    (listChars fs).splitOn ',' = fs.map (·.chars) := by
  apply List.splitOn_intercalate
  · intro cs hcs
    obtain ⟨f, hf, rfl⟩ := List.mem_map.mp hcs
    have hbefore := f.before_blank.mark_notMem (m := ',') (by decide)
    have hafter := f.after_blank.mark_notMem (m := ',') (by decide)
    simp [SpacedField.chars, hbefore, h f hf, hafter]
  · simpa using hne

theorem Trimmed.append {a b : List Char} (ha : Trimmed a) (hb : Trimmed b) (between : List Char) :
    Trimmed (a ++ between ++ b) where
  ne_nil := by simp [ha.ne_nil]
  first := by
    rw [List.append_assoc]
    exact ha.head?_append _
  last c hc := by
    rw [List.getLast?_append_of_ne_nil _ hb.ne_nil] at hc
    exact hb.last c hc

theorem trimmed_intercalate {texts : List (List Char)} (hne : texts ≠ [])
    (h : ∀ cs ∈ texts, Trimmed cs) (separator : List Char) :
    Trimmed (separator.intercalate texts) := by
  induction texts with
  | nil => exact absurd rfl hne
  | cons cs texts ih =>
      have hcs := h cs (by simp)
      by_cases hnil : texts = []
      · subst hnil
        rwa [List.intercalate_singleton]
      · rw [List.intercalate_cons_of_ne_nil hnil]
        exact hcs.append (ih hnil fun ds hds => h ds (by simp [hds])) separator

theorem trimmed_texts {fs : List SpacedField} (hne : fs ≠ []) :
    Trimmed ([',', ' '].intercalate (fs.map (·.text))) := by
  apply trimmed_intercalate (by simpa using hne)
  intro cs hcs
  obtain ⟨f, -, rfl⟩ := List.mem_map.mp hcs
  exact f.isField.toTrimmed

theorem PlainCommas.around {cs a b : List Char} (h : PlainCommas cs) (hcs : cs = a ++ ',' :: b) :
    (∃ c ∈ a.getLast?, isWhite c = false) ∧
      ∃ d rest, b = ' ' :: d :: rest ∧ isWhite d = false := by
  obtain ⟨hbefore, hspace, d, hd, hwhite⟩ := h a.length (by simp [hcs]) (by simp [hcs])
  rw [hcs, List.take_left] at hbefore
  rw [hcs, List.getElem?_append_right (Nat.le_add_right _ _), Nat.add_sub_cancel_left] at hspace hd
  refine ⟨hbefore, ?_⟩
  match b, hspace, hd with
  | _ :: _ :: rest, hspace, hd =>
    obtain rfl := Option.some.inj hspace
    obtain rfl := Option.some.inj hd
    exact ⟨_, rest, rfl, hwhite⟩

theorem exists_listChars_eq {f : SpacedField} {fs : List SpacedField} (start : List Char)
    (h : PlainCommas (start ++ listChars (f :: fs))) :
    ∃ after, IsBlank after ∧ listChars (f :: fs) =
      f.before ++ [',', ' '].intercalate ((f :: fs).map (·.text)) ++ after := by
  induction fs generalizing f start with
  | nil => exact ⟨f.after, f.after_blank, by simp [listChars_singleton, SpacedField.chars]⟩
  | cons g gs ih =>
      have hlist := listChars_cons f (List.cons_ne_nil g gs)
      rw [hlist] at h
      obtain ⟨⟨c, hc, hwhite⟩, d, rest, hrest, hd⟩ := h.around (List.append_assoc _ _ _).symm
      have hnext : PlainCommas (start ++ f.chars ++ [','] ++ listChars (g :: gs)) := by
        simpa using h
      obtain ⟨after, hafter, htail⟩ := ih _ hnext
      -- The blank behind the comma is all that stands before the next field.
      have hbefore : g.before = [' '] := by
        have hsame : g.before ++ ([',', ' '].intercalate ((g :: gs).map (·.text)) ++ after) =
            [' '] ++ d :: rest := by
          rw [← List.append_assoc, ← htail, hrest]
          rfl
        refine (append_inj_of_isBlank g.before_blank isBlank_space ?_ ?_ hsame).1
        · exact (trimmed_texts (List.cons_ne_nil g gs)).head?_append after
        · intro e he
          rwa [← Option.some.inj he]
      have hend : f.after = [] := by
        by_contra hne
        have hlast : f.after.getLast? = some c := by
          rw [SpacedField.chars, ← List.append_assoc, List.getLast?_append_of_ne_nil _ hne] at hc
          exact hc
        rw [f.after_blank c (List.mem_of_getLast? hlast)] at hwhite
        exact absurd hwhite (by decide)
      refine ⟨after, hafter, ?_⟩
      rw [hlist, htail, SpacedField.chars, hend, hbefore]
      simp

/-- Fields between plain commas are found by splitting at the comma with its space. -/
theorem splitOnText_trim_listChars {fs : List SpacedField} (hne : fs ≠ [])
    (hcommas : ∀ f ∈ fs, ',' ∉ f.text) (h : PlainCommas (listChars fs)) :
    splitOnText ", ".toList 0 (trim (listChars fs)) = fs.map (·.text) := by
  have htrim : trim (listChars fs) = [',', ' '].intercalate (fs.map (·.text)) := by
    obtain ⟨f, gs, rfl⟩ := List.exists_cons_of_ne_nil hne
    obtain ⟨after, hafter, htext⟩ := @exists_listChars_eq f gs [] h
    rw [htext]
    exact trim_append f.before_blank (trimmed_texts hne) hafter
  have hparts : ∀ cs ∈ fs.map (·.text), ',' ∉ cs := by
    intro cs hcs
    obtain ⟨f, hf, rfl⟩ := List.mem_map.mp hcs
    exact hcommas f hf
  rw [htrim]
  exact splitOnText_intercalate (by simpa using hne) hparts [' ']

/-- A line without commas in its brackets is read as it is split: at the first `|`, then at the
commas, blanks apart. Where the commas are plain, no blanks have to be taken off its fields. -/
theorem parse_as_split {line : Nat} {text : String} {v : Variant}
    (h : Variant.parse line text = .ok v) (hcommas : OuterCommas (tokenKinds text.toList)) :
    ∃ left right, splitOnce '|' text.toList = some (left, right) ∧
      v.name = String.ofList (trim left) ∧
      v.fields = (right.splitOn ',').map (fun part => String.ofList (trim part)) ∧
      (PlainCommas right →
        v.fields = (splitOnText ", ".toList 0 (trim right)).map String.ofList) := by
  obtain ⟨l, rfl, rfl⟩ := parse_eq_ok_iff_layout.mp h
  have hchars : l.text.toList = (l.lead ++ l.name ++ l.gap) ++ '|' :: listChars l.fields := by
    rw [Layout.text, String.toList_ofList, Layout.chars]
  have hpipe : '|' ∉ l.lead ++ l.name ++ l.gap := by
    have hlead := l.lead_blank.mark_notMem (m := '|') (by decide)
    have hname := l.isWord.mark_notMem (m := '|') (by decide)
    have hgap := l.gap_blank.mark_notMem (m := '|') (by decide)
    simp [hlead, hname, hgap]
  have hfields : ∀ f ∈ l.fields, ',' ∉ f.text := by
    rw [Layout.text, String.toList_ofList, l.tokenKinds_chars] at hcommas
    exact comma_notMem_of_mem (hcommas.right (a := [.word (String.ofList l.name), .pipe]) rfl)
  refine ⟨_, _, by rw [hchars, splitOnce_append hpipe], ?_, ?_, ?_⟩
  · rw [trim_append l.lead_blank l.isWord.trimmed l.gap_blank]
    rfl
  · rw [splitOn_listChars l.fields_ne_nil hfields, List.map_map]
    simp [Layout.variant, SpacedField.trim_chars]
  · intro hplain
    rw [splitOnText_trim_listChars l.fields_ne_nil hfields hplain, List.map_map]
    rfl

/-- A bracket, an arrow and a blank inside a field do not matter. -/
theorem parse_as_split_hook :
    let text := "\u2003Hook| Expr, Box<dyn Fn(Expr) -> Größe>\t"
    let v : Variant := ⟨"Hook", ["Expr", "Box<dyn Fn(Expr) -> Größe>"]⟩
    Variant.parse 1 text = .ok v ∧ OuterCommas (tokenKinds text.toList) ∧
      PlainCommas " Expr, Box<dyn Fn(Expr) -> Größe>\t".toList ∧
      ∃ left right, splitOnce '|' text.toList = some (left, right) ∧
        v.name = String.ofList (trim left) ∧
        v.fields = (right.splitOn ',').map (fun part => String.ofList (trim part)) ∧
        v.fields = (splitOnText ", ".toList 0 (trim right)).map String.ofList := by
  intro text v
  have hparse : Variant.parse 1 text = .ok v := by decide +kernel
  have hcommas : OuterCommas (tokenKinds text.toList) := by decide +kernel
  have hplain : PlainCommas " Expr, Box<dyn Fn(Expr) -> Größe>\t".toList := by decide +kernel
  obtain ⟨left, right, hsplit, hname, hfields, hspaced⟩ := parse_as_split hparse hcommas
  have hright : right = " Expr, Box<dyn Fn(Expr) -> Größe>\t".toList := by
    have heval : splitOnce '|' text.toList =
        some ("\u2003Hook".toList, " Expr, Box<dyn Fn(Expr) -> Größe>\t".toList) := by
      decide +kernel
    rw [heval] at hsplit
    exact (Prod.mk.inj (Option.some.inj hsplit)).2.symm
  exact ⟨hparse, hcommas, hplain, left, right, hsplit, hname, hfields, hspaced (hright ▸ hplain)⟩

end TaggedUnion
