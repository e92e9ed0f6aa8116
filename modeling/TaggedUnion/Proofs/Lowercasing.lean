import TaggedUnion.Proofs.CharacterClasses
import TaggedUnion.Unicode.Lowercase

/-!
# What lowercasing can bring in

Every small letter that lowercasing puts for another character comes after the punctuation of the
first code points: it is `a` or a later character. So a text in lower case has no mark from there
that the text did not have, and it is never empty unless the text was.

In particular the lower case of a word has no `/` and no `.`.
-/

namespace TaggedUnion.Unicode

/-- The images of a row are letters, from the first to the last. -/
def CaseRow.Proper (r : CaseRow) : Prop :=
  'a'.toNat ≤ r.image ∧
    (r.image + (r.last - r.first) < 0xD800 ∨
      0xDFFF < r.image ∧ r.image + (r.last - r.first) < 0x110000)

instance (r : CaseRow) : Decidable r.Proper :=
  inferInstanceAs (Decidable (_ ∧ _))

theorem lowerRows_proper : ∀ r ∈ lowerRows, r.Proper := by decide +kernel

theorem CaseRow.Proper.toNat_lower {r : CaseRow} {c : Char} (h : r.Proper)
    (hc : r.covers c = true) : (r.lower c).toNat = r.image + (c.toNat - r.first) := by
  simp only [covers, Bool.and_eq_true, decide_eq_true_eq] at hc
  have hvalid : (r.image + (c.toNat - r.first)).isValidChar := by
    obtain ⟨-, hlow | ⟨hhigh, hlast⟩⟩ := h
    · left
      omega
    · right
      omega
  rw [lower, Char.ofNat, dif_pos hvalid]
  rfl

/-- A character stays, or becomes letters. -/
theorem mem_lowerChar {c d : Char} (h : d ∈ lowerChar c) : d = c ∨ 'a'.toNat ≤ d.toNat := by
  unfold lowerChar at h
  split_ifs at h with hdotted
  · right
    simp only [List.mem_cons, List.not_mem_nil, or_false] at h
    rcases h with rfl | rfl
    · decide
    · decide
  · cases hfind : lowerRows.find? (CaseRow.covers · c) with
    | none =>
        rw [hfind] at h
        exact .inl (List.mem_singleton.mp h)
    | some r =>
        rw [hfind] at h
        have hproper := lowerRows_proper r (List.mem_of_find?_eq_some hfind)
        have hcovers : r.covers c = true := List.find?_some (p := (CaseRow.covers · c)) hfind
        obtain rfl := List.mem_singleton.mp h
        right
        rw [hproper.toNat_lower hcovers]
        exact Nat.le_add_right_of_le hproper.1

theorem lowerChar_ne_nil (c : Char) : lowerChar c ≠ [] := by
  unfold lowerChar
  split_ifs
  · simp
  · split <;> simp

theorem mem_lowercaseFrom {before cs : List Char} {d : Char} (h : d ∈ lowercaseFrom before cs) :
    d ∈ cs ∨ 'a'.toNat ≤ d.toNat := by
  induction cs generalizing before with
  | nil => simp [lowercaseFrom] at h
  | cons c after ih =>
      rw [lowercaseFrom, List.mem_append] at h
      rcases h with h | h
      · split_ifs at h
        · obtain rfl := List.mem_singleton.mp h
          exact .inr (by decide)
        · rcases mem_lowerChar h with rfl | hletter
          · exact .inl (by simp)
          · exact .inr hletter
      · rcases ih h with hmem | hletter
        · exact .inl (List.mem_cons_of_mem c hmem)
        · exact .inr hletter

theorem lowercaseFrom_ne_nil {cs : List Char} (before : List Char) (h : cs ≠ []) :
    lowercaseFrom before cs ≠ [] := by
  obtain ⟨c, after, rfl⟩ := List.exists_cons_of_ne_nil h
  rw [lowercaseFrom]
  apply List.append_ne_nil_of_left_ne_nil
  split_ifs
  · simp
  · exact lowerChar_ne_nil c

theorem lowercase_ne_empty {s : String} (h : s.toList ≠ []) : lowercase s ≠ "" := by
  intro hempty
  have hchars := congrArg String.toList hempty
  rw [lowercase, String.toList_ofList] at hchars
  exact lowercaseFrom_ne_nil [] h hchars

/-- A character before the letters is in the lower case of a text only if it is in the text. -/
theorem notMem_lowercase {s : String} {c : Char} (hc : c.toNat < 'a'.toNat) (h : c ∉ s.toList) :
    c ∉ (lowercase s).toList := by
  intro hmem
  rw [lowercase, String.toList_ofList] at hmem
  rcases mem_lowercaseFrom hmem with hmem | hletter
  · exact h hmem
  · omega

end TaggedUnion.Unicode

namespace TaggedUnion

open Unicode

/-- What stands between or for the names in a path is not part of a word. -/
theorem isWordChar_separator : ∀ c ∈ ['/', '.'], isWordChar c = false := by
  have hall : (['/', '.'].all fun c => !isWordChar c) = true := by decide +kernel
  simpa using hall

theorem IsWord.lowercase_notMem {s : String} {c : Char} (h : IsWord s.toList)
    (hc : c ∈ ['/', '.']) : c ∉ (lowercase s).toList := by
  have hlow : c.toNat < 'a'.toNat := by
    simp only [List.mem_cons, List.not_mem_nil, or_false] at hc
    rcases hc with rfl | rfl
    · decide
    · decide
  apply notMem_lowercase hlow
  intro hmem
  have hword := h.isWordChar c hmem
  rw [isWordChar_separator c hc] at hword
  exact Bool.false_ne_true hword

end TaggedUnion
