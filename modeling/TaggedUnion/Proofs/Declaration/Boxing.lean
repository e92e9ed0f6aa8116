import TaggedUnion.Declaration.Module
import TaggedUnion.Proofs.Line.Layout

/-!
# Stored types

A field is boxed only if its text is a type name. A boxed text is no type name, so boxing a second
time changes nothing, and it is again a field: its brackets are those of one pair around a word.
-/

namespace TaggedUnion

open Unicode

theorem isWord_of_isIdentifier {s : String} (h : isIdentifier s = true) : IsWord s.toList := by
  cases hs : s.toList with
  | nil => simp [isIdentifier, hs] at h
  | cons c cs =>
      simp only [isIdentifier, hs, Bool.and_eq_true, List.all_eq_true] at h
      refine ⟨by simp, ?_⟩
      intro d hd
      rcases List.mem_cons.mp hd with rfl | hd
      · have hfirst := h.1
        simp only [Bool.or_eq_true, beq_iff_eq] at hfirst
        rcases hfirst with halpha | rfl
        · simp [isWordChar, isAlphanumeric, halpha]
        · simp [isWordChar]
      · exact h.2 d hd

/-- A pair of brackets around a word, behind a word. -/
theorem tokenKinds_boxed {cs : List Char} (h : IsWord cs) :
    tokenKinds ("Box".toList ++ ('<' :: (cs ++ ['>']))) =
      [.word "Box", .opener '<', .word (String.ofList cs), .closer '>'] := by
  have hbox : IsWord "Box".toList := isWord_of_isIdentifier (by decide +kernel)
  have hmark : ∀ m ∈ marks, tokenKinds [m] = [Token.Kind.ofChar m] := by
    intro m hm
    rw [tokenKinds_eq, Piece.split_mark hm]
    rfl
  -- A bracket attracts no character, and is attracted by none but the `-` that `>` would follow.
  have hright : ∀ x ∈ cs.getLast?, ∀ y ∈ ['>'].head?, Piece.attract x y = false := by
    intro x hx y hy
    obtain rfl : '>' = y := Option.some.inj hy
    refine Piece.attract_eq_false (.inr (isWordChar_of_mark (by decide))) (.inl ?_)
    intro hdash
    subst hdash
    exact h.mark_notMem (by decide) (List.mem_of_mem_getLast? hx)
  have hleft : ∀ x ∈ ['<'].getLast?, ∀ y ∈ (cs ++ ['>']).head?, Piece.attract x y = false := by
    intro x hx y _
    obtain rfl : '<' = x := Option.some.inj hx
    exact Piece.attract_eq_false (.inl (isWordChar_of_mark (by decide))) (.inl (by decide))
  have houter : ∀ x ∈ "Box".toList.getLast?, ∀ y ∈ ('<' :: (cs ++ ['>'])).head?,
      Piece.attract x y = false := by
    intro x _ y hy
    obtain rfl : '<' = y := Option.some.inj hy
    exact Piece.attract_eq_false (.inr (isWordChar_of_mark (by decide))) (.inr (by decide))
  rw [tokenKinds_append houter, ← List.singleton_append, tokenKinds_append hleft,
    tokenKinds_append hright, tokenKinds_of_isWord hbox, tokenKinds_of_isWord h,
    hmark '<' (by decide), hmark '>' (by decide)]
  rfl

theorem isField_boxed {f : String} (h : IsWord f.toList) :
    IsField ("Box<" ++ f ++ ">").toList := by
  have hchars : ("Box<" ++ f ++ ">").toList = "Box".toList ++ ('<' :: (f.toList ++ ['>'])) := by
    simp
  refine ⟨⟨by simp, ?_, ?_⟩, ?_⟩
  · intro c hc
    obtain rfl : 'B' = c := by simpa using hc
    decide
  · intro c hc
    rw [String.toList_append, List.getLast?_append_of_ne_nil _ (by simp)] at hc
    obtain rfl : '>' = c := by simpa using hc
    decide
  · rw [hchars, tokenKinds_boxed h, Grammar.fieldTokens_iff_passAll (by simp)]
    simp [Grammar.passAll, Grammar.pass, closingOf]

namespace UnionNames

/-- Both names are names a type can have. -/
structure Legal (names : UnionNames) : Prop where
  base : isIdentifier names.base = true
  element : isIdentifier names.element = true

theorem legal_make {base : String} {element : Option String} (hbase : isIdentifier base = true)
    (helement : ∀ e ∈ element, isIdentifier e = true) : (make base element).Legal := by
  cases element with
  | none => exact ⟨hbase, hbase⟩
  | some e => exact ⟨hbase, helement e rfl⟩

/-- A field is boxed if it is the union itself, or a leading element. -/
theorem storedType_eq (names : UnionNames) (position : Nat) (field : String) :
    names.storedType position field =
      if position = 0 ∧ field = names.element ∨ field = names.base then "Box<" ++ field ++ ">"
      else field := by
  by_cases hlead : position = 0 ∧ field = names.element
  · obtain ⟨rfl, rfl⟩ := hlead
    simp [storedType, storage, reasons, BoxReason.all, BoxReason.applies]
  · by_cases hself : field = names.base
    · simp [storedType, storage, reasons, BoxReason.all, BoxReason.applies, hself]
    · simp [storedType, storage, reasons, BoxReason.all, BoxReason.applies, hlead, hself]

section Legal
variable {names : UnionNames} (hnames : names.Legal)
include hnames

theorem isWord_of_boxed {position : Nat} {field : String}
    (h : position = 0 ∧ field = names.element ∨ field = names.base) : IsWord field.toList := by
  rcases h with ⟨-, rfl⟩ | rfl
  · exact isWord_of_isIdentifier hnames.element
  · exact isWord_of_isIdentifier hnames.base

theorem isField_storedType {field : String} (h : IsField field.toList) (position : Nat) :
    IsField (names.storedType position field).toList := by
  rw [storedType_eq]
  split_ifs with hbox
  · exact isField_boxed (isWord_of_boxed hnames hbox)
  · exact h

/-- Nothing is boxed twice. -/
theorem storedType_storedType (position : Nat) (field : String) :
    names.storedType position (names.storedType position field) =
      names.storedType position field := by
  rw [storedType_eq names position field]
  split_ifs with hbox
  · rw [storedType_eq, if_neg]
    -- A type name holds no `<`.
    intro hagain
    have hword := isWord_of_boxed hnames hagain
    exact hword.mark_notMem (m := '<') (by decide) (by simp)
  · rw [storedType_eq, if_neg hbox]

end Legal

theorem newline_notMem_storedType {field : String} (h : '\n' ∉ field.toList) (names : UnionNames)
    (position : Nat) : '\n' ∉ (names.storedType position field).toList := by
  rw [storedType_eq]
  split_ifs
  · simpa using h
  · exact h

end UnionNames

end TaggedUnion
