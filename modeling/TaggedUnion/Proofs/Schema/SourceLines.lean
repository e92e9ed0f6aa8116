import Mathlib.Logic.Relation
import TaggedUnion.Proofs.Line.Renumbering
import TaggedUnion.Proofs.Schema.Acceptance
import TaggedUnion.Proofs.Text.LineEnds

/-!
# A text and the list of its node lines

A text loads as the list of its node lines does, up to the numbers of the lines. Blank lines and
comments only move these numbers: whatever is done to them, the schema stays the same, and so does a
fault, which is still found in the same column of the same node line. How the lines are ended does
not even move the numbers.

The numbers of the lines are changed by a function, and loading is followed through the change: one
line, all lines, the schema.
-/

namespace TaggedUnion

open Text Unicode

def NumberedLine.renumber (f : Nat → Nat) (l : NumberedLine) : NumberedLine :=
  ⟨f l.number, l.text⟩

def Declared.renumber (f : Nat → Nat) (d : Declared) : Declared :=
  ⟨f d.line, d.variant⟩

theorem find?_renumber (f : Nat → Nat) (name : String) (seen : List Declared) :
    ((seen.map (Declared.renumber f)).find? fun d => d.variant.name == name) =
      (seen.find? fun d => d.variant.name == name).map (Declared.renumber f) := by
  rw [List.find?_map]
  rfl

theorem declare_renumber (f : Nat → Nat) (seen : List Declared) (l : NumberedLine) :
    declare (seen.map (Declared.renumber f)) (l.renumber f) =
      ((declare seen l).mapError (Fault.renumber f)).map (Declared.renumber f) := by
  have hparse := Variant.parse_renumber f l.number l.text
  cases hv : Variant.parse l.number l.text with
  | error e =>
      rw [hv] at hparse
      rw [declare_of_error (l := l) hv, declare_of_error (l := l.renumber f) hparse]
      rfl
  | ok v =>
      rw [hv] at hparse
      have hfind := find?_renumber f v.name seen
      cases hd : seen.find? fun d => d.variant.name == v.name with
      | some d =>
          rw [hd] at hfind
          rw [declare_of_found (l := l) hv hd, declare_of_found (l := l.renumber f) hparse hfind]
          rfl
      | none =>
          rw [hd] at hfind
          have hfresh : ∀ s ∈ seen, s.variant.name ≠ v.name := by simpa using hd
          have hfresh' : ∀ s ∈ seen.map (Declared.renumber f), s.variant.name ≠ v.name := by
            simpa using hfind
          rw [declare_of_fresh (l := l) hv hfresh,
            declare_of_fresh (l := l.renumber f) hparse hfresh']
          rfl

theorem collect_renumber (f : Nat → Nat) (seen : List Declared) (ls : List NumberedLine) :
    collect (seen.map (Declared.renumber f)) (ls.map (NumberedLine.renumber f)) =
      ((collect seen ls).1.map (Declared.renumber f),
        (collect seen ls).2.map (Fault.renumber f)) := by
  induction ls generalizing seen with
  | nil => rfl
  | cons l ls ih =>
      have hdeclare := declare_renumber f seen l
      cases hd : declare seen l with
      | error e =>
          rw [hd] at hdeclare
          rw [List.map_cons, collect_cons_error hd, collect_cons_error hdeclare]
          rfl
      | ok d =>
          rw [hd] at hdeclare
          have hmore := ih (d :: seen)
          rw [List.map_cons] at hmore
          rw [List.map_cons, collect_cons_ok hd, collect_cons_ok hdeclare, hmore]
          rfl

/-- Under other numbers, lines load to the same schema or fail with the same fault, renumbered. -/
theorem Loading.ofNumbered_renumber (f : Nat → Nat) (base : String) (ls : List NumberedLine) :
    (ofNumbered base (ls.map (NumberedLine.renumber f))).result =
      (ofNumbered base ls).result.mapError (Fault.renumber f) := by
  have hcollect := collect_renumber f [] ls
  rw [List.map_nil] at hcollect
  unfold ofNumbered
  rw [hcollect]
  obtain ⟨declared, fault⟩ := collect [] ls
  cases isIdentifier base with
  | false => rfl
  | true =>
      cases fault with
      | some e => rfl
      | none =>
          cases declared with
          | nil => rfl
          | cons d ds =>
              simp [Except.mapError, Declared.renumber, Function.comp_def]

theorem collect_fault {seen : List Declared} {ls : List NumberedLine} {e : Fault}
    (h : (collect seen ls).2 = some e) :
    ∃ l ∈ ls, Variant.parse l.number l.text = .error e ∨
      ∃ column name n, e = .located ⟨l.number, column⟩ (.duplicate name n) ∧
        ((∃ d ∈ seen, d.line = n) ∨ ∃ l' ∈ ls, l'.number = n) := by
  induction ls generalizing seen with
  | nil => simp [collect] at h
  | cons l ls ih =>
      cases hv : Variant.parse l.number l.text with
      | error e' =>
          rw [collect_cons_error (declare_of_error hv seen)] at h
          obtain rfl := Option.some.inj h
          exact ⟨l, by simp, .inl hv⟩
      | ok v =>
          cases hfind : seen.find? fun s => s.variant.name == v.name with
          | some d =>
              rw [collect_cons_error (declare_of_found hv hfind)] at h
              obtain rfl := Option.some.inj h
              have hseen := List.mem_of_find?_eq_some hfind
              exact ⟨l, by simp, .inr ⟨_, _, _, rfl, .inl ⟨d, hseen, rfl⟩⟩⟩
          | none =>
              have hfresh : ∀ s ∈ seen, s.variant.name ≠ v.name := by simpa using hfind
              rw [collect_cons_ok (declare_of_fresh hv hfresh)] at h
              obtain ⟨l', hl', he | ⟨column, name, n, rfl, hn⟩⟩ := ih h
              · exact ⟨l', by simp [hl'], .inl he⟩
              · refine ⟨l', by simp [hl'], .inr ⟨column, name, n, rfl, ?_⟩⟩
                rcases hn with ⟨d, hd, rfl⟩ | ⟨l'', hl'', rfl⟩
                · rcases List.mem_cons.mp hd with rfl | hd
                  · exact .inr ⟨l, by simp, rfl⟩
                  · exact .inl ⟨d, hd, rfl⟩
                · exact .inr ⟨l'', by simp [hl''], rfl⟩

/-- What can be wrong with numbered lines: the schema as a whole, or one of the lines. -/
theorem Loading.fault_cases {base : String} {ls : List NumberedLine} {e : Fault}
    (h : (ofNumbered base ls).result = .error e) :
    e = .general (.badBase base) ∨ e = .general (.noVariants base) ∨
      ∃ l ∈ ls, ∃ column cause, e = .located ⟨l.number, column⟩ cause ∧
        ((cause.category ≠ .duplicateVariant ∧ (cause = .emptyLine → IsBlank l.text.toList)) ∨
          ∃ name, ∃ l' ∈ ls, cause = .duplicate name l'.number) := by
  cases hbase : isIdentifier base with
  | false =>
      rw [ofNumbered_of_not_isIdentifier hbase] at h
      exact .inl (Except.error.inj h).symm
  | true =>
      right
      cases hfault : (collect [] ls).2 with
      | some e' =>
          rw [ofNumbered_of_fault hbase hfault] at h
          obtain rfl := Except.error.inj h
          right
          obtain ⟨l, hl, he | ⟨column, name, n, rfl, hn⟩⟩ := collect_fault hfault
          · obtain ⟨column, cause, rfl, hcategory, hempty⟩ := Variant.parse_error_cases he
            exact ⟨l, hl, column, cause, rfl, .inl ⟨hcategory, hempty⟩⟩
          · obtain ⟨d, hd, -⟩ | ⟨l', hl', rfl⟩ := hn
            · simp at hd
            · exact ⟨l, hl, column, _, rfl, .inr ⟨name, l', hl', rfl⟩⟩
      | none =>
          left
          obtain ⟨ds, hds⟩ : ∃ ds, collect [] ls = (ds, none) := ⟨_, Prod.ext rfl hfault⟩
          cases ds with
          | nil =>
              have hls : ls = [] := List.forall₂_nil_right_iff.mp (collect_eq_none_iff.mp hds).1
              subst hls
              rw [ofNumbered_nil hbase] at h
              exact (Except.error.inj h).symm
          | cons d ds => simp [ofNumbered_of_collect hbase hds] at h

/-- Two diagnostics tell the same about lists of lines with the same texts: each names a line by the
number it has in its own list. -/
structure Diagnostic.Corresponds (ls ls' : List NumberedLine) (d d' : Diagnostic) : Prop where
  category_eq : d'.category = d.category
  column_eq : d'.column = d.column
  line : (d.line = none ∧ d'.line = none) ∨
    ∃ (i : Nat) (l l' : NumberedLine), ls[i]? = some l ∧ ls'[i]? = some l' ∧ l'.text = l.text ∧
      d.line = some l.number ∧ d'.line = some l'.number
  text : (d.category ≠ .duplicateVariant ∧ d'.text = d.text) ∨
    ∃ (name : String) (j : Nat) (l m : NumberedLine), ls[j]? = some l ∧ ls'[j]? = some m ∧
      d.text = s!"Duplicate variant '{name}' (first declared on line {l.number})" ∧
      d'.text = s!"Duplicate variant '{name}' (first declared on line {m.number})"

namespace NumberedLine

def numberAt (ls : List NumberedLine) (i : Nat) : Nat :=
  (ls[i - 1]?.map (·.number)).getD 0

theorem map_text_ofLines (texts : List String) : (ofLines texts).map (·.text) = texts := by
  apply List.ext_getElem?
  intro i
  simp only [List.getElem?_map, getElem?_ofLines, Option.map_map, Function.comp_def, Option.map_id']

/-- Any numbering comes from that which counts from one. -/
theorem ofLines_renumber (ls : List NumberedLine) :
    (ofLines (ls.map (·.text))).map (renumber (numberAt ls)) = ls := by
  apply List.ext_getElem?
  intro i
  rw [List.getElem?_map, getElem?_ofLines, List.getElem?_map]
  cases hl : ls[i]? with
  | none => rfl
  | some l => simp [renumber, numberAt, hl]

theorem getElem?_of_mem_ofLines {ls : List NumberedLine} {l : NumberedLine}
    (h : l ∈ ofLines (ls.map (·.text))) :
    ∃ i l', ls[i]? = some l' ∧ l'.text = l.text ∧ numberAt ls l.number = l'.number ∧
      l.number = i + 1 := by
  obtain ⟨i, hi⟩ := List.mem_iff_getElem?.mp h
  rw [getElem?_ofLines, List.getElem?_map] at hi
  cases hl : ls[i]? with
  | none => simp [hl] at hi
  | some l' =>
      obtain rfl : (⟨i + 1, l'.text⟩ : NumberedLine) = l := by simpa [hl] using hi
      exact ⟨i, l', hl, rfl, by simp [numberAt, hl], rfl⟩

end NumberedLine

/-- A cause without a line in it is told in the same words under all numbers. -/
theorem Cause.renumber_of_category_ne {cause : Cause} (h : cause.category ≠ .duplicateVariant)
    (f : Nat → Nat) : cause.renumber f = cause := by
  cases cause <;> first | rfl | simp [category] at h

namespace Loading

/-- Lists of lines with the same texts load to the same schema, or to faults that correspond. -/
theorem ofNumbered_corresponds (base : String) {ls ls' : List NumberedLine}
    (h : ls.map (·.text) = ls'.map (·.text)) :
    (∃ s, (ofNumbered base ls).result = .ok s ∧ (ofNumbered base ls').result = .ok s) ∨
      ∃ e e', (ofNumbered base ls).result = .error e ∧ (ofNumbered base ls').result = .error e' ∧
        Diagnostic.Corresponds ls ls' e.diagnostic e'.diagnostic := by
  have hls := ofNumbered_renumber (NumberedLine.numberAt ls) base
    (NumberedLine.ofLines (ls.map (·.text)))
  have hls' := ofNumbered_renumber (NumberedLine.numberAt ls') base
    (NumberedLine.ofLines (ls'.map (·.text)))
  rw [NumberedLine.ofLines_renumber] at hls hls'
  rw [← h] at hls'
  cases hresult : (ofNumbered base (NumberedLine.ofLines (ls.map (·.text)))).result with
  | ok s =>
      rw [hresult] at hls hls'
      exact .inl ⟨s, hls, hls'⟩
  | error e =>
      rw [hresult] at hls hls'
      refine .inr ⟨_, _, hls, hls', ?_⟩
      -- A line of either list is found from its position in the list that counts from one.
      have hfind : ∀ l ∈ NumberedLine.ofLines (ls.map (·.text)), ∃ (i : Nat) (k k' : NumberedLine),
          ls[i]? = some k ∧ ls'[i]? = some k' ∧ k'.text = k.text ∧
            NumberedLine.numberAt ls l.number = k.number ∧
            NumberedLine.numberAt ls' l.number = k'.number := by
        intro l hl
        obtain ⟨i, k, hk, htext, hnumber, hi⟩ := NumberedLine.getElem?_of_mem_ofLines hl
        rw [h] at hl
        obtain ⟨i', k', hk', htext', hnumber', hi'⟩ := NumberedLine.getElem?_of_mem_ofLines hl
        obtain rfl : i = i' := by omega
        exact ⟨i, k, k', hk, hk', htext'.trans htext.symm, hnumber, hnumber'⟩
      obtain rfl | rfl | ⟨l, hl, column, cause, rfl, hcause⟩ := fault_cases hresult
      · exact ⟨rfl, rfl, .inl ⟨rfl, rfl⟩, .inl ⟨by simp [Fault.diagnostic, Fault.renumber,
          Fault.general, Cause.renumber, Cause.category, Diagnostic.general], rfl⟩⟩
      · exact ⟨rfl, rfl, .inl ⟨rfl, rfl⟩, .inl ⟨by simp [Fault.diagnostic, Fault.renumber,
          Fault.general, Cause.renumber, Cause.category, Diagnostic.general], rfl⟩⟩
      · obtain ⟨i, k, k', hk, hk', htext, hnumber, hnumber'⟩ := hfind l hl
        have hline : ∀ f c, ((Fault.located ⟨l.number, column⟩ c).renumber f).diagnostic =
            .located (c.renumber f).category (c.renumber f).message (f l.number) column :=
          fun f c => rfl
        rw [hline, hline, hnumber, hnumber']
        obtain ⟨hcategory, -⟩ | ⟨name, l'', hl'', rfl⟩ := hcause
        · rw [Cause.renumber_of_category_ne hcategory, Cause.renumber_of_category_ne hcategory]
          exact ⟨rfl, rfl, .inr ⟨i, k, k', hk, hk', htext, rfl, rfl⟩, .inl ⟨hcategory, rfl⟩⟩
        · obtain ⟨j, m, m', hm, hm', -, hj, hj'⟩ := hfind l'' hl''
          refine ⟨rfl, rfl, .inr ⟨i, k, k', hk, hk', htext, rfl, rfl⟩,
            .inr ⟨name, j, m, m', hm, hm', ?_, ?_⟩⟩
          · rw [← hj]
            rfl
          · rw [← hj']
            rfl

end Loading

def IsIdle (line : List Char) : Prop :=
  IsBlank line ∨ ∃ w r, IsBlank w ∧ line = w ++ '#' :: r

/-- One change to lines that hold no node. -/
inductive IdleEdit : List (List Char) → List (List Char) → Prop
  | insert {line : List Char} (before after : List (List Char)) : IsIdle line →
      IdleEdit (before ++ after) (before ++ line :: after)
  | delete {line : List Char} (before after : List (List Char)) : IsIdle line →
      IdleEdit (before ++ line :: after) (before ++ after)
  | change {line line' : List Char} (before after : List (List Char)) : IsIdle line →
      IsIdle line' → IdleEdit (before ++ line :: after) (before ++ line' :: after)

namespace NumberedLine

/-- The lines that hold a node are neither blank nor comments. -/
theorem holdsNode_eq_false_iff {l : NumberedLine} :
    l.holdsNode = false ↔ IsIdle l.text.toList := by
  have hparts := List.takeWhile_append_dropWhile (p := isWhite) (l := l.text.toList)
  have hlead : IsBlank (l.text.toList.takeWhile isWhite) := fun c hc => List.mem_takeWhile_imp hc
  constructor
  · intro h
    cases hrest : l.text.toList.dropWhile isWhite with
    | nil => exact .inl (List.dropWhile_eq_nil_iff.mp hrest)
    | cons c r =>
        have hc : c = '#' := by simpa [holdsNode, hrest] using h
        rw [hrest, hc] at hparts
        exact .inr ⟨_, r, hlead, hparts.symm⟩
  · rintro (hblank | ⟨w, r, hw, htext⟩)
    · have hrest := List.dropWhile_eq_nil_iff.mpr hblank
      simp [holdsNode, hrest]
    · have hrest : l.text.toList.dropWhile isWhite = '#' :: r := by
        rw [htext, List.dropWhile_append_of_pos hw,
          List.dropWhile_cons_of_neg (by simp [isWhite_of_mark (show '#' ∈ marks by decide)])]
      simp [holdsNode, hrest]

theorem holdsNode_iff {l : NumberedLine} : l.holdsNode = true ↔ ¬ IsIdle l.text.toList := by
  rw [← holdsNode_eq_false_iff, Bool.not_eq_false]

theorem mem_ofSource_iff {source : String} {l : NumberedLine} :
    l ∈ ofSource source ↔ 0 < l.number ∧
      (lines source.toList)[l.number - 1]? = some l.text.toList ∧ ¬ IsIdle l.text.toList := by
  rw [ofSource, List.mem_filter, holdsNode_iff, ← and_assoc, and_congr_left_iff]
  intro _
  rw [List.mem_iff_getElem?]
  simp only [getElem?_ofLines, List.getElem?_map]
  constructor
  · rintro ⟨i, hi⟩
    cases hline : (lines source.toList)[i]? with
    | none => simp [hline] at hi
    | some cs =>
        obtain rfl : (⟨i + 1, String.ofList cs⟩ : NumberedLine) = l := by simpa [hline] using hi
        exact ⟨Nat.succ_pos i, by simpa using hline⟩
  · rintro ⟨hpos, hline⟩
    refine ⟨l.number - 1, ?_⟩
    have hnumber : l.number - 1 + 1 = l.number := by omega
    simp [hline, hnumber]

theorem pairwise_ofSource (source : String) :
    (ofSource source).Pairwise fun l l' => l.number < l'.number := by
  apply List.Pairwise.filter
  rw [List.pairwise_iff_getElem]
  intro i j hi hj hij
  have hget : ∀ (k : Nat) (hk : k < (ofLines ((lines source.toList).map String.ofList)).length),
      (ofLines ((lines source.toList).map String.ofList))[k].number = k + 1 := by
    intro k hk
    have hline := List.getElem?_eq_getElem hk
    rw [getElem?_ofLines] at hline
    obtain ⟨text, -, heq⟩ := Option.map_eq_some_iff.mp hline
    rw [← heq]
  rw [hget i hi, hget j hj]
  omega

theorem map_text_ofSource (source : String) :
    (ofSource source).map (·.text) =
      ((lines source.toList).filter fun cs => holdsNode ⟨0, String.ofList cs⟩).map
        String.ofList := by
  calc (ofSource source).map (·.text)
      = ((ofLines ((lines source.toList).map String.ofList)).map (·.text)).filter
          (fun text => holdsNode ⟨0, text⟩) := by
        rw [List.filter_map]
        rfl
    _ = ((lines source.toList).map String.ofList).filter (fun text => holdsNode ⟨0, text⟩) := by
        rw [map_text_ofLines]
    _ = _ := by
        rw [List.filter_map]
        rfl

end NumberedLine

theorem IdleEdit.filter_eq {as bs : List (List Char)} (h : IdleEdit as bs) :
    (as.filter fun cs => NumberedLine.holdsNode ⟨0, String.ofList cs⟩) =
      bs.filter fun cs => NumberedLine.holdsNode ⟨0, String.ofList cs⟩ := by
  have hidle : ∀ {cs}, IsIdle cs → NumberedLine.holdsNode ⟨0, String.ofList cs⟩ = false := by
    intro cs hcs
    apply NumberedLine.holdsNode_eq_false_iff.mpr
    simpa using hcs
  cases h with
  | insert before after hline => simp [hidle hline]
  | delete before after hline => simp [hidle hline]
  | change before after hline hline' => simp [hidle hline, hidle hline']

/-- Changes to blank lines and comments keep the texts of the node lines. -/
theorem map_text_of_idleEdits {source source' : String}
    (h : Relation.ReflTransGen IdleEdit (lines source.toList) (lines source'.toList)) :
    (NumberedLine.ofSource source).map (·.text) = (NumberedLine.ofSource source').map (·.text) := by
  rw [NumberedLine.map_text_ofSource, NumberedLine.map_text_ofSource]
  congr 1
  generalize lines source'.toList = bs at h
  induction h with
  | refl => rfl
  | tail _ hedit ih => exact ih.trans hedit.filter_eq

namespace Cause

/-- The fixed words that messages start with, other than that of an empty line. -/
def openings : List String :=
  ["Expected variant name, found ", "Expected '|' after variant '", "Empty field in variant '",
   "Unexpected '|' in fields of variant '", "Unmatched '", "Unclosed ", "Unexpected ",
   "Duplicate variant '", "Base type name '", "Element type name '", "Schema for '"]

def Opens (words message : String) : Prop :=
  ∃ rest, message = words ++ rest

theorem Opens.append {words message : String} (h : Opens words message) (more : String) :
    Opens words (message ++ more) := by
  obtain ⟨rest, rfl⟩ := h
  exact ⟨rest ++ more, String.append_assoc⟩

theorem exists_opening {cause : Cause} (h : cause ≠ .emptyLine) :
    ∃ words ∈ openings, Opens words cause.message := by
  cases cause with
  | emptyLine => exact absurd rfl h
  | nameExpected found => exact ⟨_, List.mem_of_getElem? (i := 0) rfl, _, rfl⟩
  | endsAfterName variant => exact ⟨_, List.mem_of_getElem? (i := 1) rfl, .append ⟨_, rfl⟩ _⟩
  | secondWord variant found =>
      exact ⟨_, List.mem_of_getElem? (i := 1) rfl, .append (.append ⟨_, rfl⟩ _) _⟩
  | delimiterExpected variant found =>
      exact ⟨_, List.mem_of_getElem? (i := 1) rfl, .append (.append ⟨_, rfl⟩ _) _⟩
  | emptyField variant => exact ⟨_, List.mem_of_getElem? (i := 2) rfl, .append ⟨_, rfl⟩ _⟩
  | strayPipe variant => exact ⟨_, List.mem_of_getElem? (i := 3) rfl, .append ⟨_, rfl⟩ _⟩
  | unmatched bracket variant =>
      exact ⟨_, List.mem_of_getElem? (i := 4) rfl, .append (.append (.append ⟨_, rfl⟩ _) _) _⟩
  | unclosed bracket variant => exact ⟨_, List.mem_of_getElem? (i := 5) rfl, .append ⟨_, rfl⟩ _⟩
  | trailing found variant => exact ⟨_, List.mem_of_getElem? (i := 6) rfl, .append ⟨_, rfl⟩ _⟩
  | duplicate variant firstLine =>
      exact ⟨_, List.mem_of_getElem? (i := 7) rfl, .append (.append (.append ⟨_, rfl⟩ _) _) _⟩
  | badBase name => exact ⟨_, List.mem_of_getElem? (i := 8) rfl, .append ⟨_, rfl⟩ _⟩
  | badElement name => exact ⟨_, List.mem_of_getElem? (i := 9) rfl, .append ⟨_, rfl⟩ _⟩
  | noVariants base => exact ⟨_, List.mem_of_getElem? (i := 10) rfl, .append ⟨_, rfl⟩ _⟩

theorem message_ne_empty {cause : Cause} (h : cause ≠ .emptyLine) :
    cause.message ≠ "Empty node specification" := by
  intro hmessage
  obtain ⟨words, hmem, rest, hrest⟩ := exists_opening h
  have hstart : words.toList <+: "Empty node specification".toList := by
    rw [← hmessage, hrest, String.toList_append]
    exact List.prefix_append _ _
  have hnone : ∀ w ∈ openings, ¬ w.toList <+: "Empty node specification".toList := by decide
  exact hnone words hmem hstart

end Cause

namespace Loading

theorem ofSource_message_ne {base source : String} {e : Fault}
    (h : (ofSource base source).result = .error e) :
    e.diagnostic.text ≠ "Empty node specification" := by
  have hcause : e.cause ≠ .emptyLine := by
    obtain rfl | rfl | ⟨l, hl, column, cause, rfl, hcause⟩ := fault_cases h
    · simp [Fault.general]
    · simp [Fault.general]
    · obtain ⟨-, hempty⟩ | ⟨name, l', -, rfl⟩ := hcause
      · intro hc
        exact (NumberedLine.mem_ofSource_iff.mp hl).2.2 (.inl (hempty hc))
      · simp [Fault.located]
  have htext : e.diagnostic.text = e.cause.message := by
    cases e with
    | mk cause place => cases place <;> rfl
  rw [htext]
  exact Cause.message_ne_empty hcause

/-- A text loads as the list of its node lines does, with every line under its number in the text.
Changes to blank lines and comments move these numbers and nothing else, and no node line is told to
be empty. -/
theorem ofSource_as_ofLines (base source : String) :
    let kept := NumberedLine.ofSource source
    (∀ l, l ∈ kept ↔ 0 < l.number ∧ (lines source.toList)[l.number - 1]? = some l.text.toList ∧
      ¬ IsBlank l.text.toList ∧ ∀ w r, IsBlank w → l.text.toList ≠ w ++ '#' :: r) ∧
    (kept.Pairwise fun l l' => l.number < l'.number) ∧
    ((∃ s, (ofLines base (kept.map (·.text))).result = .ok s ∧
        (ofSource base source).result = .ok s) ∨
      ∃ e e', (ofLines base (kept.map (·.text))).result = .error e ∧
        (ofSource base source).result = .error e' ∧
        Diagnostic.Corresponds (NumberedLine.ofLines (kept.map (·.text))) kept e.diagnostic
          e'.diagnostic) ∧
    (∀ source', Relation.ReflTransGen IdleEdit (lines source.toList) (lines source'.toList) →
      (∃ s, (ofSource base source).result = .ok s ∧ (ofSource base source').result = .ok s) ∨
        ∃ e e', (ofSource base source).result = .error e ∧
          (ofSource base source').result = .error e' ∧
          Diagnostic.Corresponds kept (NumberedLine.ofSource source') e.diagnostic e'.diagnostic) ∧
    ∀ e, (ofSource base source).result = .error e →
      e.diagnostic.text ≠ "Empty node specification" := by
  intro kept
  refine ⟨?_, NumberedLine.pairwise_ofSource source, ?_, ?_, fun e => ofSource_message_ne⟩
  · intro l
    rw [NumberedLine.mem_ofSource_iff]
    simp only [IsIdle, not_or, not_exists, not_and, ne_eq]
  · apply ofNumbered_corresponds
    rw [NumberedLine.map_text_ofLines]
  · intro source' hedits
    exact ofNumbered_corresponds base (map_text_of_idleEdits hedits)

/-- A text loads in the same way however it is written. -/
theorem ofSource_writing (base : String) {source written : String}
    (hplain : PlainEnds source.toList) (h : WrittenAs source.toList written.toList) :
    ofSource base written = ofSource base source := by
  have hlines : NumberedLine.ofSource written = NumberedLine.ofSource source := by
    rw [NumberedLine.ofSource, h.lines_eq hplain, NumberedLine.ofSource]
  rw [ofSource, hlines, ofSource]

/-- With `\r\n` at the end of every line, a text has the same schema, or the same fault in the same
place. -/
theorem ofSource_widened (base source : String) (h : '\r' ∉ source.toList) :
    ofSource base (String.ofList (widenLineEnds source.toList)) = ofSource base source := by
  apply ofSource_writing base (plainEnds_of_return_notMem h)
  rw [String.toList_ofList]
  exact writtenAs_widenLineEnds source.toList

/-- A fault at the end of a line is found before the return. -/
theorem ofSource_widened_unfinished :
    let source := "A | B\n\n # x\nC |\n"
    let written := "A | B\r\n\r\n # x\r\nC |\r\n"
    '\r' ∉ source.toList ∧ String.ofList (widenLineEnds source.toList) = written ∧
      (ofSource "Expr" written).result = .error (.located ⟨4, 4⟩ (.emptyField "C")) := by
  intro source written
  have hreturn : '\r' ∉ source.toList := by decide
  have hwritten : String.ofList (widenLineEnds source.toList) = written := by decide
  refine ⟨hreturn, hwritten, ?_⟩
  rw [← hwritten, ofSource_widened "Expr" source hreturn]
  decide +kernel

end Loading

end TaggedUnion
