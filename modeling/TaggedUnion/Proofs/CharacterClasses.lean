import Mathlib.Data.List.DropRight
import TaggedUnion.Line.Word
import TaggedUnion.Unicode.WhiteSpace

/-!
# Blanks, words and marks

The tables of white space and of word characters have no code point in common, so a blank never
belongs to a word. The marks with a role in a node line belong to neither table.

Texts are told apart by the same classes: blank ones, words, and trimmed ones, which have no blank
at either end. Blanks in front of anything else can be taken off in one way only.
-/

namespace TaggedUnion.Unicode

/-- No range of one table meets a range of the other. -/
def Ranges.apart (rs ss : Ranges) : Bool :=
  rs.all fun r => ss.all fun s => r.2 < s.1 || s.2 < r.1

theorem Ranges.covers_eq_false_of_apart {rs ss : Ranges} {c : Char} (h : rs.apart ss = true)
    (hc : rs.covers c = true) : ss.covers c = false := by
  rw [Bool.eq_false_iff]
  intro hs
  obtain ⟨r, hr, hr₁, hr₂⟩ := covers_iff.mp hc
  obtain ⟨s, hs, hs₁, hs₂⟩ := covers_iff.mp hs
  have hrs := List.all_eq_true.mp (List.all_eq_true.mp h r hr) s hs
  simp only [Bool.or_eq_true, decide_eq_true_eq] at hrs
  omega

theorem whiteSpace_apart_alphabetic : whiteSpace.apart alphabetic = true := by decide +kernel

theorem whiteSpace_apart_numeric : whiteSpace.apart numeric = true := by decide +kernel

theorem isWhite_underscore : isWhite '_' = false := by decide

/-- A blank is not part of a word. -/
theorem isWordChar_eq_false_of_isWhite {c : Char} (h : isWhite c = true) :
    isWordChar c = false := by
  have ha : isAlphabetic c = false := Ranges.covers_eq_false_of_apart whiteSpace_apart_alphabetic h
  have hn : isNumeric c = false := Ranges.covers_eq_false_of_apart whiteSpace_apart_numeric h
  have hu : c ≠ '_' := by
    rintro rfl
    exact Bool.false_ne_true (isWhite_underscore.symm.trans h)
  simp [isWordChar, isAlphanumeric, ha, hn, hu]

theorem isWhite_eq_false_of_isWordChar {c : Char} (h : isWordChar c = true) :
    isWhite c = false := by
  rw [Bool.eq_false_iff]
  intro hw
  rw [isWordChar_eq_false_of_isWhite hw] at h
  exact Bool.false_ne_true h

/-- The characters, blanks and word characters apart, that a line or a declaration gives a role. -/
def marks : List Char :=
  ['|', ',', '<', '>', '(', ')', '[', ']', '-', '#']

theorem mark_classes : ∀ c ∈ marks, isWhite c = false ∧ isWordChar c = false := by
  have hall : (marks.all fun c => !isWhite c && !isWordChar c) = true := by decide +kernel
  simpa using hall

theorem isWhite_of_mark {c : Char} (h : c ∈ marks) : isWhite c = false :=
  (mark_classes c h).1

theorem isWordChar_of_mark {c : Char} (h : c ∈ marks) : isWordChar c = false :=
  (mark_classes c h).2

end TaggedUnion.Unicode

namespace TaggedUnion

open Unicode

/-- A possibly empty run of white space. -/
def IsBlank (cs : List Char) : Prop :=
  ∀ c ∈ cs, isWhite c = true

/-- A run of letters, digits and underscores that is not empty. -/
structure IsWord (cs : List Char) : Prop where
  ne_nil : cs ≠ []
  isWordChar : ∀ c ∈ cs, isWordChar c = true

/-- A text that is not empty and neither starts nor ends with white space. -/
structure Trimmed (cs : List Char) : Prop where
  ne_nil : cs ≠ []
  first : ∀ c ∈ cs.head?, isWhite c = false
  last : ∀ c ∈ cs.getLast?, isWhite c = false

theorem IsBlank.nil : IsBlank [] := by
  intro c hc
  simp at hc

theorem isBlank_space : IsBlank [' '] := by
  intro c hc
  rw [List.mem_singleton.mp hc]
  decide

theorem IsBlank.eq_nil {cs : List Char} (h : IsBlank cs) (hf : ∀ c ∈ cs.head?, isWhite c = false) :
    cs = [] := by
  cases cs with
  | nil => rfl
  | cons c cs =>
      have hc : isWhite c = false := hf c rfl
      rw [h c (by simp)] at hc
      exact absurd hc (by decide)

theorem IsBlank.mark_notMem {cs : List Char} (h : IsBlank cs) {m : Char} (hm : m ∈ marks) :
    m ∉ cs := by
  intro hmem
  have hwhite := h m hmem
  rw [isWhite_of_mark hm] at hwhite
  exact Bool.false_ne_true hwhite

theorem IsWord.mark_notMem {cs : List Char} (h : IsWord cs) {m : Char} (hm : m ∈ marks) :
    m ∉ cs := by
  intro hmem
  have hword := h.isWordChar m hmem
  rw [isWordChar_of_mark hm] at hword
  exact Bool.false_ne_true hword

theorem IsWord.trimmed {cs : List Char} (h : IsWord cs) : Trimmed cs where
  ne_nil := h.ne_nil
  first c hc := isWhite_eq_false_of_isWordChar (h.isWordChar c (List.mem_of_mem_head? hc))
  last c hc := isWhite_eq_false_of_isWordChar (h.isWordChar c (List.mem_of_mem_getLast? hc))

theorem Trimmed.head?_append {cs : List Char} (h : Trimmed cs) (rest : List Char) :
    ∀ c ∈ (cs ++ rest).head?, isWhite c = false := by
  intro c hc
  rw [List.head?_append_of_ne_nil _ h.ne_nil] at hc
  exact h.first c hc

/-- Blanks are dropped up to the first character that is none. -/
theorem IsBlank.dropWhile_append {w x : List Char} (hw : IsBlank w)
    (hx : ∀ c ∈ x.head?, isWhite c = false) : (w ++ x).dropWhile isWhite = x := by
  rw [List.dropWhile_append_of_pos hw]
  cases x with
  | nil => rfl
  | cons c x => simp [hx c rfl]

/-- Blanks at both ends of a text can be taken off. -/
theorem exists_trimmed {cs : List Char} (h : ¬ IsBlank cs) :
    ∃ before core after, cs = before ++ core ++ after ∧ IsBlank before ∧ Trimmed core ∧
      IsBlank after := by
  have hrest : cs.dropWhile isWhite ≠ [] := fun hn => h (List.dropWhile_eq_nil_iff.mp hn)
  have hfirst : ∀ c ∈ (cs.dropWhile isWhite).head?, isWhite c = false := by
    intro c hc
    have hnot := List.head?_dropWhile_not isWhite cs
    rw [Option.mem_def.mp hc] at hnot
    exact hnot
  have hparts := List.rdropWhile_append_rtakeWhile (p := isWhite) (l := cs.dropWhile isWhite)
  have hafter : IsBlank ((cs.dropWhile isWhite).rtakeWhile isWhite) := fun c hc =>
    List.mem_rtakeWhile_imp hc
  have hcore : (cs.dropWhile isWhite).rdropWhile isWhite ≠ [] := by
    intro hn
    rw [hn, List.nil_append] at hparts
    rw [hparts] at hafter
    exact hrest (hafter.eq_nil hfirst)
  refine ⟨cs.takeWhile isWhite, (cs.dropWhile isWhite).rdropWhile isWhite,
    (cs.dropWhile isWhite).rtakeWhile isWhite, ?_, ?_, ⟨hcore, ?_, ?_⟩, hafter⟩
  · rw [List.append_assoc, hparts, List.takeWhile_append_dropWhile]
  · exact fun c hc => List.mem_takeWhile_imp hc
  · intro c hc
    apply hfirst c
    rw [← hparts, List.head?_append_of_ne_nil _ hcore]
    exact hc
  · intro c hc
    have hlast := List.rdropWhile_last_not isWhite _ hcore
    rw [List.getLast?_eq_some_getLast hcore] at hc
    rw [Option.mem_some_iff.mp hc] at hlast
    simpa using hlast

/-- Blanks in front of two texts that do not start with one are the same if the wholes are. -/
theorem append_inj_of_isBlank {a b x y : List Char} (ha : IsBlank a) (hb : IsBlank b)
    (hx : ∀ c ∈ x.head?, isWhite c = false) (hy : ∀ c ∈ y.head?, isWhite c = false)
    (h : a ++ x = b ++ y) : a = b ∧ x = y := by
  induction a generalizing b with
  | nil =>
      have hb' : b = [] := by
        apply hb.eq_nil
        intro c hc
        apply hx c
        rw [← List.nil_append x, h]
        cases b with
        | nil => simp at hc
        | cons d b => exact hc
      subst hb'
      exact ⟨rfl, h⟩
  | cons c a ih =>
      cases b with
      | nil =>
          have hc : isWhite c = false := hy c (by rw [← List.nil_append y, ← h]; rfl)
          rw [ha c (by simp)] at hc
          exact absurd hc (by decide)
      | cons d b =>
          obtain ⟨rfl, htail⟩ := List.cons.inj h
          obtain ⟨rfl, rfl⟩ := ih (fun e he => ha e (by simp [he]))
            (fun e he => hb e (by simp [he])) htail
          exact ⟨rfl, rfl⟩

end TaggedUnion
