import TaggedUnion.Proofs.Line.Stages
import TaggedUnion.Proofs.Line.TokenPlaces
import TaggedUnion.Proofs.Schema.SourceLines

/-!
# Where faults are found

A fault of a line is found at a token or behind the last character. The places of open brackets are
carried along while a field is read, and they are those of tokens as well; a name that is declared
twice is the first token of its line. So a fault of a text that is not one of the text as a whole
points into the first of its node lines that cannot be declared.
-/

namespace TaggedUnion

open Text Unicode

/-- The column is where a token of the line starts, or one past the end of the line. -/
def PointsInto (line : Nat) (text : String) (column : Nat) : Prop :=
  (∃ t ∈ (Scanner.start line text).tokens, ∃ before slice after,
      t.StandsFor line text before slice after ∧ column = 1 + before.length) ∨
    column = text.toList.length + 1

theorem PointsInto.bounds {line column : Nat} {text : String} (h : PointsInto line text column) :
    1 ≤ column ∧ column ≤ text.toList.length + 1 := by
  obtain ⟨t, -, before, slice, after, ht, rfl⟩ | rfl := h
  · have hlength := congrArg List.length ht.text_eq
    simp only [List.length_append] at hlength
    omega
  · omega

namespace Grammar

theorem mem_track {openings : List Opening} {t : Token} {o : Opening} (h : o ∈ track openings t) :
    o ∈ openings ∨ o.place = t.place := by
  unfold track at h
  split at h
  · rcases List.mem_cons.mp h with rfl | h
    · exact .inr rfl
    · exact .inl h
  · exact .inl (List.mem_of_mem_tail h)
  · exact .inl h

theorem mem_trackAll {openings : List Opening} {ts : List Token} {o : Opening}
    (h : o ∈ trackAll openings ts) : o ∈ openings ∨ ∃ t ∈ ts, o.place = t.place := by
  induction ts generalizing openings with
  | nil => exact .inl h
  | cons t ts ih =>
      rcases ih h with hopen | ⟨u, hu, hplace⟩
      · rcases mem_track hopen with hopen | hplace
        · exact .inl hopen
        · exact .inr ⟨t, by simp, hplace⟩
      · exact .inr ⟨u, by simp [hu], hplace⟩

/-- The fault of a line is found at one of its tokens or at its end. -/
theorem FaultFrom.place_eq {final : Token} {s : Stage} {ts : List Token} {e : Fault}
    (h : FaultFrom final s [] ts e) :
    e.place = some final.place ∨ ∃ t ∈ ts, e.place = some t.place := by
  cases h with
  | @refused before after t _ _ _ _ hat => exact .inr ⟨t, by simp, hat.place_eq⟩
  | @unfinished _ _ _ _ _ hat =>
      have hplace := hat.place_eq
      cases hopen : trackAll [] ts with
      | nil =>
          rw [hopen] at hplace
          exact .inl hplace
      | cons o os =>
          rw [hopen] at hplace
          have ho : o ∈ trackAll [] ts := by simp [hopen]
          rcases mem_trackAll ho with ho | ⟨t, ht, hto⟩
          · simp at ho
          · exact .inr ⟨t, ht, hplace.trans (congrArg some hto)⟩

end Grammar

theorem pointsInto_of_mem_tokens {line : Nat} {text : String} {t : Token}
    (h : t ∈ (Scanner.start line text).tokens) :
    ∃ column, t.place = ⟨line, column⟩ ∧ PointsInto line text column := by
  obtain ⟨before, slice, after, hstands⟩ := Scanner.exists_standsFor h
  exact ⟨_, hstands.place_eq, .inl ⟨t, h, before, slice, after, hstands, rfl⟩⟩

theorem Variant.parse_error_pointsInto {line : Nat} {text : String} {e : Fault}
    (h : Variant.parse line text = .error e) :
    ∃ column, e.place = some ⟨line, column⟩ ∧ PointsInto line text column := by
  obtain ⟨rest, ho⟩ := (LineReader.read_eq_error_iff _).mp h
  have hend : ∀ t ∈ (Scanner.start line text).tokens, t.kind ≠ .endOfLine := fun t ht =>
    Scanner.kind_ne_endOfLine_of_mem_locate ht
  rcases (Grammar.faultFrom_of_outline hend ho).place_eq with hplace | ⟨t, ht, hplace⟩
  · refine ⟨text.toList.length + 1, ?_, .inr rfl⟩
    have hfinal := congrArg Token.place (Scanner.final_start line text)
    rw [hplace, String.length_toList, Nat.add_comm]
    exact congrArg some hfinal
  · obtain ⟨column, hcolumn, hpoints⟩ := pointsInto_of_mem_tokens ht
    exact ⟨column, hplace.trans (congrArg some hcolumn), hpoints⟩

/-- The name of a variant is the first token of its line. -/
theorem pointsInto_nameColumn {line : Nat} {text : String} {v : Variant}
    (h : Variant.parse line text = .ok v) : PointsInto line text (nameColumn v.name text) := by
  obtain ⟨o, rest, ho, -⟩ := parse_eq_ok_iff.mp h
  obtain ⟨n, d, listed, htokens, -⟩ := Grammar.outline_eq_ok_iff.mp ho
  obtain ⟨slice, after, hstands⟩ := Scanner.standsFor_first htokens
  exact .inl ⟨_, by rw [htokens]; simp, _, _, _, hstands, nameColumn_of_parse h⟩

theorem declare_error_pointsInto {seen : List Declared} {l : NumberedLine} {e : Fault}
    (h : declare seen l = .error e) :
    ∃ column, e.place = some ⟨l.number, column⟩ ∧ PointsInto l.number l.text column := by
  cases hv : Variant.parse l.number l.text with
  | error e' =>
      rw [declare_of_error hv] at h
      obtain rfl := Except.error.inj h
      exact Variant.parse_error_pointsInto hv
  | ok v =>
      cases hfind : seen.find? fun s => s.variant.name == v.name with
      | some d =>
          rw [declare_of_found hv hfind] at h
          obtain rfl := Except.error.inj h
          exact ⟨_, rfl, pointsInto_nameColumn hv⟩
      | none =>
          have hfresh : ∀ s ∈ seen, s.variant.name ≠ v.name := by simpa using hfind
          simp [declare_of_fresh hv hfresh] at h

/-- The line is the first that cannot be declared, with the fault. -/
def FirstFault (ls : List NumberedLine) (l : NumberedLine) (e : Fault) : Prop :=
  ∃ before after ds, ls = before ++ l :: after ∧ collect [] before = (ds, none) ∧
    declare ds.reverse l = .error e

theorem exists_declare_error {seen : List Declared} {ls : List NumberedLine} {e : Fault}
    (h : (collect seen ls).2 = some e) :
    ∃ before l after ds, ls = before ++ l :: after ∧ collect seen before = (ds, none) ∧
      declare (ds.reverse ++ seen) l = .error e := by
  induction ls generalizing seen with
  | nil => simp [collect] at h
  | cons l ls ih =>
      cases hd : declare seen l with
      | error e' =>
          rw [collect_cons_error hd] at h
          obtain rfl := Option.some.inj h
          exact ⟨[], l, ls, [], rfl, rfl, hd⟩
      | ok d =>
          rw [collect_cons_ok hd] at h
          obtain ⟨before, l', after, ds, rfl, hbefore, he⟩ := ih h
          refine ⟨l :: before, l', after, d :: ds, rfl, ?_, ?_⟩
          · rw [collect_cons_ok hd, hbefore]
          · simpa using he

namespace Loading

/-- A fault is one of the schema as a whole, or that of the first line that cannot be declared. -/
theorem ofNumbered_eq_error_cases {base : String} {ls : List NumberedLine} {e : Fault}
    (h : (ofNumbered base ls).result = .error e) :
    ((isIdentifier base = false ∨ ls = []) ∧ e.place = none) ∨
      (isIdentifier base = true ∧ ∃ l, FirstFault ls l e) := by
  cases hbase : isIdentifier base with
  | false =>
      rw [ofNumbered_of_not_isIdentifier hbase] at h
      obtain rfl := Except.error.inj h
      exact .inl ⟨.inl rfl, rfl⟩
  | true =>
      cases hfault : (collect [] ls).2 with
      | some e' =>
          rw [ofNumbered_of_fault hbase hfault] at h
          obtain rfl := Except.error.inj h
          obtain ⟨before, l, after, ds, hls, hbefore, he⟩ := exists_declare_error hfault
          exact .inr ⟨rfl, l, before, after, ds, hls, hbefore, by simpa using he⟩
      | none =>
          left
          obtain ⟨ds, hds⟩ : ∃ ds, collect [] ls = (ds, none) := ⟨_, Prod.ext rfl hfault⟩
          cases ds with
          | nil =>
              obtain rfl := List.forall₂_nil_right_iff.mp (collect_eq_none_iff.mp hds).1
              rw [ofNumbered_nil hbase] at h
              obtain rfl := Except.error.inj h
              exact ⟨.inr rfl, rfl⟩
          | cons d ds => simp [ofNumbered_of_collect hbase hds] at h

end Loading

theorem NumberedLine.ofSource_eq_nil_iff {source : String} :
    ofSource source = [] ↔ ∀ line ∈ lines source.toList, IsIdle line := by
  rw [List.eq_nil_iff_forall_not_mem]
  constructor
  · intro h line hline
    by_contra hidle
    obtain ⟨i, hi⟩ := List.mem_iff_getElem?.mp hline
    exact h ⟨i + 1, String.ofList line⟩ (mem_ofSource_iff.mpr ⟨by simp, by simpa using hi,
      by simpa using hidle⟩)
  · intro h l hl
    obtain ⟨-, hline, hidle⟩ := mem_ofSource_iff.mp hl
    exact hidle (h _ (List.mem_of_getElem? hline))

/-- A fault of a text has no place if it concerns the text as a whole, and else one in the first
node line that cannot be declared. -/
theorem Loading.ofSource_eq_error_cases {base source : String} {e : Fault}
    (h : (ofSource base source).result = .error e) :
    ((isIdentifier base = false ∨ ∀ line ∈ lines source.toList, IsIdle line) ∧ e.place = none) ∨
      (¬ (isIdentifier base = false ∨ ∀ line ∈ lines source.toList, IsIdle line) ∧
        ∃ number column line, e.place = some ⟨number, column⟩ ∧ 1 ≤ number ∧
          (lines source.toList)[number - 1]? = some line ∧
          FirstFault (NumberedLine.ofSource source) ⟨number, String.ofList line⟩ e ∧
          PointsInto number (String.ofList line) column) := by
  rw [← NumberedLine.ofSource_eq_nil_iff]
  obtain ⟨hwhole, hplace⟩ | ⟨hbase, ⟨number, text⟩, hfirst⟩ := ofNumbered_eq_error_cases h
  · exact .inl ⟨hwhole, hplace⟩
  · right
    obtain ⟨before, after, ds, hls, -, herror⟩ := id hfirst
    have hmem : ⟨number, text⟩ ∈ NumberedLine.ofSource source := by simp [hls]
    obtain ⟨hpos, hline, -⟩ := NumberedLine.mem_ofSource_iff.mp hmem
    obtain ⟨column, hplace, hpoints⟩ := declare_error_pointsInto herror
    refine ⟨?_, number, column, text.toList, hplace, hpos, hline, ?_, ?_⟩
    · simp [hbase, hls]
    · simpa using hfirst
    · simpa using hpoints

end TaggedUnion
