import Mathlib.Data.List.Chain
import TaggedUnion.Line.Piece
import TaggedUnion.Proofs.CharacterClasses

/-!
# Where a line is cut

A list of pieces is a cut of its own text exactly if every piece holds characters of its class and
no two neighbours could have been joined. Both conditions are local: they pass to every stretch of
a cut, and two cuts side by side are a cut if the characters at the border do not attract each
other. So a stretch of a line is cut on its own as it is cut inside the line.
-/

namespace TaggedUnion.Piece

open Unicode

/-- The two characters in a row always belong to one piece. -/
def attract (x y : Char) : Bool :=
  (isWordChar x && isWordChar y) || (x == '-' && y == '>')

def first : Piece → Char
  | blank c => c
  | word c _ => c
  | arrow => '-'
  | single c => c

def last : Piece → Char
  | blank c => c
  | word c cs => (c :: cs).getLast (List.cons_ne_nil c cs)
  | arrow => '>'
  | single c => c

/-- The characters of the piece are of the class it stands for. -/
def Pure : Piece → Prop
  | blank c => isWhite c = true
  | word c cs => ∀ d ∈ c :: cs, isWordChar d = true
  | arrow => True
  | single c => isWhite c = false ∧ isWordChar c = false

/-- No character at the end of one piece attracts the first one of the next. -/
def Apart (p q : Piece) : Prop :=
  attract p.last q.first = false

/-- Nothing in the pieces has to be cut further or joined. -/
structure WellCut (ps : List Piece) : Prop where
  pure : ∀ p ∈ ps, p.Pure
  apart : ps.IsChain Apart

theorem attract_of_isWhite_left {x : Char} (h : isWhite x = true) (y : Char) :
    attract x y = false := by
  have hx : x ≠ '-' := by
    rintro rfl
    rw [isWhite_of_mark (by decide)] at h
    exact Bool.false_ne_true h
  simp [attract, isWordChar_eq_false_of_isWhite h, hx]

theorem attract_of_isWhite_right {y : Char} (x : Char) (h : isWhite y = true) :
    attract x y = false := by
  have hy : y ≠ '>' := by
    rintro rfl
    rw [isWhite_of_mark (by decide)] at h
    exact Bool.false_ne_true h
  simp [attract, isWordChar_eq_false_of_isWhite h, hy]

/-- What a character attracts is either part of its word or the tip of its arrow. -/
theorem attract_eq_false {x y : Char} (hw : isWordChar x = false ∨ isWordChar y = false)
    (ha : x ≠ '-' ∨ y ≠ '>') : attract x y = false := by
  rcases hw with hw | hw <;> rcases ha with ha | ha <;> simp [attract, hw, ha]

theorem head?_text (p : Piece) : p.text.head? = some p.first := by
  cases p <;> rfl

theorem getLast?_text (p : Piece) : p.text.getLast? = some p.last := by
  cases p with
  | word c cs => exact List.getLast?_eq_some_getLast (List.cons_ne_nil c cs)
  | blank c => rfl
  | arrow => rfl
  | single c => rfl

theorem WellCut.nil : WellCut [] :=
  ⟨by simp, List.isChain_nil⟩

theorem WellCut.stretch {ps qs : List Piece} (h : WellCut qs) (hi : ps <:+: qs) : WellCut ps :=
  ⟨fun p hp => h.pure p (hi.subset hp), List.IsChain.infix h.apart hi⟩

theorem WellCut.tail {p : Piece} {ps : List Piece} (h : WellCut (p :: ps)) : WellCut ps :=
  h.stretch (List.suffix_cons p ps).isInfix

theorem WellCut.cons {p : Piece} {ps : List Piece} (hp : p.Pure) (hps : WellCut ps)
    (ha : ∀ q ∈ ps.head?, Apart p q) : WellCut (p :: ps) := by
  refine ⟨?_, ?_⟩
  · intro q hq
    rcases List.mem_cons.mp hq with rfl | hq
    · exact hp
    · exact hps.pure q hq
  · exact List.isChain_cons.mpr ⟨ha, hps.apart⟩

def alone (c : Char) : Piece :=
  if isWhite c then blank c else if isWordChar c then word c [] else single c

@[simp] theorem last_alone (c : Char) : (alone c).last = c := by
  unfold alone
  split_ifs <;> rfl

theorem pure_alone (c : Char) : (alone c).Pure := by
  unfold alone
  split_ifs with hwhite hword
  · exact hwhite
  · simpa [Pure] using hword
  · exact ⟨by simpa using hwhite, by simpa using hword⟩

theorem alone_of_mark {c : Char} (h : c ∈ marks) : alone c = single c := by
  simp [alone, isWhite_of_mark h, isWordChar_of_mark h]

/-- A character that the next piece does not attract makes a piece of its own. -/
theorem push_eq_alone {c : Char} {ps : List Piece}
    (h : ∀ q ∈ ps.head?, q.Pure ∧ attract c q.first = false) : push c ps = alone c :: ps := by
  by_cases hwhite : isWhite c = true
  · simp [push, alone, hwhite]
  by_cases hword : isWordChar c = true
  · cases ps with
    | nil => simp [push, alone, hwhite, hword]
    | cons q qs =>
        obtain ⟨hq, ha⟩ := h q rfl
        cases q with
        | word d ds =>
            have hd : isWordChar d = true := hq d (by simp)
            simp [attract, first, hword, hd] at ha
        | blank d => simp [push, alone, hwhite, hword]
        | arrow => simp [push, alone, hwhite, hword]
        | single d => simp [push, alone, hwhite, hword]
  · cases ps with
    | nil => simp [push, alone, hwhite, hword]
    | cons q qs =>
        obtain ⟨-, ha⟩ := h q rfl
        cases q with
        | single d =>
            by_cases hd : d = '>'
            · subst hd
              have hc : c ≠ '-' := by rintro rfl; simp [attract, first] at ha
              simp [push, alone, hwhite, hword, hc]
            · simp [push, alone, hwhite, hword, hd]
        | blank d => simp [push, alone, hwhite, hword]
        | word d ds => simp [push, alone, hwhite, hword]
        | arrow => simp [push, alone, hwhite, hword]

/-- What attracts the character in front of it is a word or the tip of an arrow. -/
theorem push_of_attract {c : Char} {q : Piece} (qs : List Piece) (hq : q.Pure)
    (ha : attract c q.first = true) :
    (∃ d ds, q = word d ds ∧ isWordChar c = true ∧ push c (q :: qs) = word c (d :: ds) :: qs) ∨
      (q = single '>' ∧ c = '-' ∧ push c (q :: qs) = arrow :: qs) := by
  simp only [attract, Bool.or_eq_true, Bool.and_eq_true, beq_iff_eq] at ha
  rcases ha with ⟨hc, hf⟩ | ⟨rfl, hf⟩
  · have hwhite := isWhite_eq_false_of_isWordChar hc
    cases q with
    | word d ds => exact .inl ⟨d, ds, rfl, hc, by simp [push, hwhite, hc]⟩
    | blank d => simp [first, isWordChar_eq_false_of_isWhite hq] at hf
    | arrow => simp [first, isWordChar_of_mark (show '-' ∈ marks by decide)] at hf
    | single d => simp [first, hq.2] at hf
  · have hwhite := isWhite_of_mark (show '-' ∈ marks by decide)
    have hword := isWordChar_of_mark (show '-' ∈ marks by decide)
    cases q with
    | single d =>
        obtain rfl : d = '>' := hf
        exact .inr ⟨rfl, rfl, by simp [push, hwhite, hword]⟩
    | blank d =>
        obtain rfl : d = '>' := hf
        simp [Pure, isWhite_of_mark (show '>' ∈ marks by decide)] at hq
    | arrow => simp [first] at hf
    | word d ds =>
        obtain rfl : d = '>' := hf
        simp [Pure, isWordChar_of_mark (show '>' ∈ marks by decide)] at hq

theorem push_wellCut (c : Char) {ps : List Piece} (h : WellCut ps) : WellCut (push c ps) := by
  by_cases ha : ∀ q ∈ ps.head?, attract c q.first = false
  · rw [push_eq_alone fun q hq => ⟨h.pure q (List.mem_of_mem_head? hq), ha q hq⟩]
    refine .cons (pure_alone c) h ?_
    intro q hq
    rw [Apart, last_alone]
    exact ha q hq
  · obtain ⟨q, qs, rfl, hq⟩ : ∃ q qs, ps = q :: qs ∧ attract c q.first = true := by
      cases ps with
      | nil => simp at ha
      | cons q qs => exact ⟨q, qs, rfl, by simpa using ha⟩
    have hpure := h.pure q (by simp)
    -- The piece grows at its front only, so it stands apart from the next one as before.
    have hnext := (List.isChain_cons.mp h.apart).1
    obtain ⟨d, ds, rfl, hc, hpush⟩ | ⟨rfl, rfl, hpush⟩ := push_of_attract qs hpure hq
    · rw [hpush]
      refine .cons ?_ h.tail hnext
      intro e he
      rcases List.mem_cons.mp he with rfl | he
      · exact hc
      · exact hpure e he
    · rw [hpush]
      exact .cons trivial h.tail hnext

theorem split_wellCut (cs : List Char) : WellCut (split cs) := by
  induction cs with
  | nil => exact .nil
  | cons c cs ih => exact push_wellCut c ih

/-- Pushing the characters of a word one by one gives the word back. -/
theorem foldr_push_word {c : Char} {cs : List Char} {ps : List Piece}
    (h : WellCut (word c cs :: ps)) : (c :: cs).foldr push ps = word c cs :: ps := by
  have hpure := h.pure (word c cs) (by simp)
  induction cs generalizing c with
  | nil =>
      have hnext := (List.isChain_cons.mp h.apart).1
      have hc : isWordChar c = true := hpure c (by simp)
      rw [List.foldr_cons, List.foldr_nil, push_eq_alone]
      · simp [alone, isWhite_eq_false_of_isWordChar hc, hc]
      · intro q hq
        exact ⟨h.tail.pure q (List.mem_of_mem_head? hq), hnext q hq⟩
  | cons d ds ih =>
      have hc : isWordChar c = true := hpure c (by simp)
      have hds : (word d ds).Pure := fun e he => hpure e (List.mem_cons_of_mem c he)
      have hnext := (List.isChain_cons.mp h.apart).1
      rw [List.foldr_cons, ih (.cons hds h.tail hnext) hds]
      simp [push, isWhite_eq_false_of_isWordChar hc, hc]

theorem foldr_push_text {p : Piece} {ps : List Piece} (h : WellCut (p :: ps)) :
    p.text.foldr push ps = p :: ps := by
  have hpure := h.pure p (by simp)
  have hnext : ∀ q ∈ ps.head?, q.Pure ∧ attract p.last q.first = false := fun q hq =>
    ⟨h.tail.pure q (List.mem_of_mem_head? hq), (List.isChain_cons.mp h.apart).1 q hq⟩
  cases p with
  | blank c =>
      have hc : isWhite c = true := hpure
      simp [text, push, hc]
  | word c cs => exact foldr_push_word h
  | arrow =>
      have htip : push '>' ps = single '>' :: ps := by
        rw [push_eq_alone (c := '>') hnext, alone_of_mark (by decide)]
      rw [text, List.foldr_cons, List.foldr_cons, List.foldr_nil, htip]
      simp [push, isWhite_of_mark (show '-' ∈ marks by decide),
        isWordChar_of_mark (show '-' ∈ marks by decide)]
  | single c =>
      rw [text, List.foldr_cons, List.foldr_nil, push_eq_alone (c := c) hnext]
      simp [alone, hpure.1, hpure.2]

/-- Well-cut pieces are the cut of their text. -/
theorem split_flatMap_text {ps : List Piece} (h : WellCut ps) : split (ps.flatMap text) = ps := by
  induction ps with
  | nil => rfl
  | cons p ps ih =>
      have hps : (ps.flatMap text).foldr push [] = ps := ih h.tail
      rw [split, List.flatMap_cons, List.foldr_append, hps]
      exact foldr_push_text h

theorem split_eq_nil_iff {cs : List Char} : split cs = [] ↔ cs = [] := by
  constructor
  · intro h
    rw [← flatMap_text_split cs, h]
    rfl
  · rintro rfl
    rfl

theorem head?_split (cs : List Char) : (split cs).head?.map first = cs.head? := by
  conv_rhs => rw [← flatMap_text_split cs]
  cases split cs with
  | nil => rfl
  | cons p ps => simp [List.head?_append, head?_text]

theorem getLast?_split (cs : List Char) : (split cs).getLast?.map last = cs.getLast? := by
  conv_rhs => rw [← flatMap_text_split cs]
  rcases List.eq_nil_or_concat (split cs) with h | ⟨ps, p, h⟩
  · simp [h]
  · simp [h, getLast?_text]

/-- Two texts are cut apart if the characters at the border do not attract each other. -/
theorem split_append {a b : List Char}
    (h : ∀ x ∈ a.getLast?, ∀ y ∈ b.head?, attract x y = false) :
    split (a ++ b) = split a ++ split b := by
  have hcut : WellCut (split a ++ split b) := by
    refine ⟨?_, List.isChain_append.mpr
      ⟨(split_wellCut a).apart, (split_wellCut b).apart, ?_⟩⟩
    · intro p hp
      rcases List.mem_append.mp hp with hp | hp
      · exact (split_wellCut a).pure p hp
      · exact (split_wellCut b).pure p hp
    · intro p hp q hq
      apply h
      · rw [← getLast?_split]
        exact Option.mem_map_of_mem last hp
      · rw [← head?_split]
        exact Option.mem_map_of_mem first hq
  have htext := split_flatMap_text hcut
  rwa [List.flatMap_append, flatMap_text_split, flatMap_text_split] at htext

end TaggedUnion.Piece
