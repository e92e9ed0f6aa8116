import Mathlib.Data.List.Basic
import TaggedUnion.Text.Lines

/-!
# Texts made of lines

A line holds no line feed. A line that does not end in a carriage return comes back unchanged from a
text that it was put into, whether a line feed ends it or the text does.
-/

namespace TaggedUnion.Text

def intoFirst (c : Char) : List (List Char) → List (List Char)
  | [] => [[c]]
  | l :: ls => (c :: l) :: ls

/-- A character that is no part of a line end belongs to the first line. -/
theorem lines_cons {c : Char} {r : List Char} (hc : c ≠ '\n')
    (hr : ∀ r', c = '\r' → r ≠ '\n' :: r') : lines (c :: r) = intoFirst c (lines r) := by
  rw [lines]
  · cases lines r <;> rfl
  · exact hc
  · exact hr

theorem newline_notMem_intoFirst {c : Char} {ls : List (List Char)} (hc : c ≠ '\n')
    (h : ∀ l ∈ ls, '\n' ∉ l) : ∀ l ∈ intoFirst c ls, '\n' ∉ l := by
  cases ls with
  | nil => simp [intoFirst, hc.symm]
  | cons l ls =>
      intro l' hl'
      rcases List.mem_cons.mp hl' with rfl | hl'
      · simp [hc.symm, h l (by simp)]
      · exact h l' (by simp [hl'])

theorem newline_notMem_of_mem_lines {cs : List Char} : ∀ l ∈ lines cs, '\n' ∉ l := by
  induction cs using lines.induct with
  | case1 => simp [lines]
  | case2 r ih =>
      rw [lines]
      simpa using ih
  | case3 r ih =>
      rw [lines]
      simpa using ih
  | case4 c r hc hcr _ ih =>
      rw [lines_cons hc hcr]
      exact newline_notMem_intoFirst hc ih
  | case5 c r hc hcr l ls _ ih =>
      rw [lines_cons hc hcr]
      exact newline_notMem_intoFirst hc ih

/-- A line feed ends a line. -/
theorem lines_append_newline {a : List Char} (hn : '\n' ∉ a) (hr : a.getLast? ≠ some '\r')
    (b : List Char) : lines (a ++ '\n' :: b) = a :: lines b := by
  induction a with
  | nil => rw [List.nil_append, lines]
  | cons c a ih =>
      have hc : c ≠ '\n' := fun h => hn (by simp [h])
      have hnext : ∀ r', c = '\r' → a ++ '\n' :: b ≠ '\n' :: r' := by
        rintro r' rfl h
        cases a with
        | nil => simp at hr
        | cons d a => exact hn (by simp [(List.cons.inj h).1])
      have hlast : a.getLast? ≠ some '\r' := by
        cases a with
        | nil => simp
        | cons d a => simpa using hr
      rw [List.cons_append, lines_cons hc hnext, ih (fun h => hn (by simp [h])) hlast]
      rfl

theorem lines_eq_singleton {a : List Char} (hn : '\n' ∉ a) (hne : a ≠ []) : lines a = [a] := by
  induction a with
  | nil => exact absurd rfl hne
  | cons c a ih =>
      have hc : c ≠ '\n' := fun h => hn (by simp [h])
      have hnext : ∀ r', c = '\r' → a ≠ '\n' :: r' := by
        rintro r' - rfl
        exact hn (by simp)
      rw [lines_cons hc hnext]
      by_cases ha : a = []
      · subst ha
        rfl
      · rw [ih (fun h => hn (by simp [h])) ha]
        rfl

/-- A text that can stand as a line: it keeps its end and does not vanish at the end of a text. -/
structure IsLine (l : List Char) : Prop where
  ne_nil : l ≠ []
  newline_notMem : '\n' ∉ l
  getLast?_ne : l.getLast? ≠ some '\r'

theorem lines_ne_nil {cs : List Char} (h : cs ≠ []) : lines cs ≠ [] := by
  cases cs using lines.fun_cases with
  | case1 => exact absurd rfl h
  | case2 r => simp [lines]
  | case3 r => simp [lines]
  | case4 c r hc hcr l =>
      rw [lines_cons hc hcr]
      cases lines r <;> simp [intoFirst]
  | case5 c r hc hcr l =>
      rw [lines_cons hc hcr]
      cases lines r <;> simp [intoFirst]

theorem intoFirst_append {c : Char} {ls : List (List Char)} (h : ls ≠ [])
    (more : List (List Char)) : intoFirst c (ls ++ more) = intoFirst c ls ++ more := by
  cases ls with
  | nil => exact absurd rfl h
  | cons l ls => rfl

/-- Behind a line feed, lines start anew. -/
theorem lines_append_of_getLast? {a : List Char} (h : a.getLast? = some '\n') (b : List Char) :
    lines (a ++ b) = lines a ++ lines b := by
  -- Both cases of an ordinary character are one argument: what follows it is not empty.
  have ordinary : ∀ c r, c ≠ '\n' → (∀ r', c = '\r' → r ≠ '\n' :: r') →
      (r.getLast? = some '\n' → lines (r ++ b) = lines r ++ lines b) →
      (c :: r).getLast? = some '\n' → lines (c :: r ++ b) = lines (c :: r) ++ lines b := by
    intro c r hc hcr ih h
    have hr : r ≠ [] := by
      rintro rfl
      exact hc (by simpa using h)
    have hnext : ∀ r', c = '\r' → r ++ b ≠ '\n' :: r' := by
      obtain ⟨d, r, rfl⟩ := List.exists_cons_of_ne_nil hr
      rintro r' rfl hd
      obtain ⟨rfl, -⟩ := List.cons.inj hd
      exact hcr r rfl rfl
    rw [List.cons_append, lines_cons hc hnext, lines_cons hc hcr,
      ih (by rwa [List.getLast?_cons_of_ne_nil hr] at h), intoFirst_append (lines_ne_nil hr)]
  induction a using lines.induct with
  | case1 => simp at h
  | case2 r ih =>
      rw [List.cons_append, lines, lines, List.cons_append]
      by_cases hr : r = []
      · subst hr
        rfl
      · rw [ih (by simpa [List.getLast?_cons_of_ne_nil hr] using h)]
  | case3 r ih =>
      rw [List.cons_append, List.cons_append, lines, lines, List.cons_append]
      by_cases hr : r = []
      · subst hr
        rfl
      · rw [ih (by simpa [List.getLast?_cons_of_ne_nil hr] using h)]
  | case4 c r hc hcr _ ih => exact ordinary c r hc hcr ih h
  | case5 c r hc hcr l ls _ ih => exact ordinary c r hc hcr ih h

/-- Lines that a line feed ends are read as these lines. -/
theorem lines_flatMap_append {ls : List (List Char)} (h : ∀ l ∈ ls, IsLine l) (b : List Char) :
    lines (ls.flatMap (· ++ ['\n']) ++ b) = ls ++ lines b := by
  induction ls with
  | nil => rfl
  | cons l ls ih =>
      have hl := h l (by simp)
      have htext : (l :: ls).flatMap (· ++ ['\n']) ++ b =
          l ++ '\n' :: (ls.flatMap (· ++ ['\n']) ++ b) := by simp
      rw [htext, lines_append_newline hl.newline_notMem hl.getLast?_ne,
        ih fun l' hl' => h l' (by simp [hl']), List.cons_append]

/-- Lines with line feeds between them are read as these lines. -/
theorem lines_intercalate {ls : List (List Char)} (h : ∀ l ∈ ls, IsLine l) :
    lines (['\n'].intercalate ls) = ls := by
  induction ls with
  | nil => rfl
  | cons l ls ih =>
      have hl := h l (by simp)
      by_cases hls : ls = []
      · subst hls
        rw [List.intercalate_singleton]
        exact lines_eq_singleton hl.newline_notMem hl.ne_nil
      · rw [List.intercalate_cons_of_ne_nil hls, List.append_assoc, List.singleton_append,
          lines_append_newline hl.newline_notMem hl.getLast?_ne,
          ih fun l' hl' => h l' (by simp [hl'])]

end TaggedUnion.Text
