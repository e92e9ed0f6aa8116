import Mathlib.Data.List.Chain
import Mathlib.Data.List.Pairwise
import TaggedUnion.Proofs.Text.Lines

/-!
# Texts up to their line ends

A text can be written with a carriage return before some of its line feeds. Normalizing takes these
returns out again, but only one before each line feed, so a return that the text has there itself is
lost as well. A text without such a return is what all of its writings, and nothing else, normalize
to, and its lines are those of its writings.
-/

namespace TaggedUnion.Text

/-- The second text is the first, with `\r\n` in place of some of its line feeds. -/
inductive WrittenAs : List Char → List Char → Prop
  | nil : WrittenAs [] []
  | keep (c : Char) {text written : List Char} : WrittenAs text written →
      WrittenAs (c :: text) (c :: written)
  | widen {text written : List Char} : WrittenAs text written →
      WrittenAs ('\n' :: text) ('\r' :: '\n' :: written)

/-- No carriage return stands directly before a line feed. -/
def PlainEnds (cs : List Char) : Prop :=
  cs.IsChain fun c d => c = '\r' → d ≠ '\n'

theorem PlainEnds.not_infix {cs : List Char} (h : PlainEnds cs) : ¬ ['\r', '\n'] <:+: cs := by
  intro hin
  have hpair : List.IsChain _ ['\r', '\n'] := List.IsChain.infix h hin
  exact List.isChain_pair.mp hpair rfl rfl

theorem plainEnds_of_return_notMem {cs : List Char} (h : '\r' ∉ cs) : PlainEnds cs := by
  apply List.Pairwise.isChain
  apply List.pairwise_of_forall_mem_list
  intro c hc d _ hreturn
  exact absurd (hreturn ▸ hc) h

theorem plainEnds_of_newline_notMem {cs : List Char} (h : '\n' ∉ cs) : PlainEnds cs := by
  apply List.Pairwise.isChain
  apply List.pairwise_of_forall_mem_list
  intro c _ d hd _ hfeed
  exact h (hfeed ▸ hd)

theorem PlainEnds.append {a b : List Char} (ha : PlainEnds a) (hb : PlainEnds b)
    (hborder : a.getLast? = some '\r' → b.head? ≠ some '\n') : PlainEnds (a ++ b) := by
  refine List.isChain_append.mpr ⟨ha, hb, ?_⟩
  intro c hc d hd hreturn hfeed
  subst hreturn hfeed
  exact hborder hc hd

/-- Lines that line feeds end have no other line ends. -/
theorem plainEnds_flatMap_append {ls : List (List Char)} {b : List Char}
    (h : ∀ l ∈ ls, IsLine l) (hb : PlainEnds b) :
    PlainEnds (ls.flatMap (· ++ ['\n']) ++ b) := by
  induction ls with
  | nil => exact hb
  | cons l ls ih =>
      have hl := h l (by simp)
      have hmore := ih fun l' hl' => h l' (by simp [hl'])
      have hfeed : PlainEnds ['\n'] := plainEnds_of_return_notMem (by decide)
      have htext : (l :: ls).flatMap (· ++ ['\n']) ++ b =
          l ++ (['\n'] ++ (ls.flatMap (· ++ ['\n']) ++ b)) := by simp
      rw [htext]
      apply (plainEnds_of_newline_notMem hl.newline_notMem).append
      · exact hfeed.append hmore (by simp)
      · intro hreturn
        exact absurd hreturn hl.getLast?_ne

/-- Whatever a text is, it is a writing of what it normalizes to. -/
theorem writtenAs_normalizeLineEnds (x : List Char) : WrittenAs (normalizeLineEnds x) x := by
  induction x using normalizeLineEnds.induct with
  | case1 => exact .nil
  | case2 r ih =>
      rw [normalizeLineEnds]
      exact .widen ih
  | case3 c r hcr ih =>
      rw [normalizeLineEnds]
      · exact .keep c ih
      · exact hcr

theorem WrittenAs.refl (t : List Char) : WrittenAs t t := by
  induction t with
  | nil => exact .nil
  | cons c t ih => exact .keep c ih

/-- A return that no line feed follows in a text is followed by none in its writings. -/
theorem WrittenAs.ne_newline {c : Char} {t x : List Char} (h : WrittenAs t x)
    (ht : PlainEnds (c :: t)) (r : List Char) (hc : c = '\r') : x ≠ '\n' :: r := by
  intro hx
  subst hc hx
  cases h with
  | keep _ _ => exact (List.isChain_cons_cons.mp ht).1 rfl rfl

/-- A writing of a text without returns before its line feeds normalizes to that text. -/
theorem WrittenAs.normalizeLineEnds_eq {t x : List Char} (h : WrittenAs t x) (ht : PlainEnds t) :
    normalizeLineEnds x = t := by
  induction h with
  | nil => rfl
  | keep c hwritten ih =>
      rw [normalizeLineEnds, ih ht.tail]
      exact hwritten.ne_newline ht
  | widen _ ih => rw [normalizeLineEnds, ih ht.tail]

theorem normalizeLineEnds_eq_self {t : List Char} (ht : PlainEnds t) : normalizeLineEnds t = t :=
  (WrittenAs.refl t).normalizeLineEnds_eq ht

/-- Up to line ends, a text without returns before its line feeds is the same as its writings. -/
theorem normalizeLineEnds_eq_iff {t x : List Char} (ht : PlainEnds t) :
    normalizeLineEnds x = normalizeLineEnds t ↔ WrittenAs t x := by
  rw [normalizeLineEnds_eq_self ht]
  constructor
  · intro h
    rw [← h]
    exact writtenAs_normalizeLineEnds x
  · intro h
    exact h.normalizeLineEnds_eq ht

theorem WrittenAs.lines_eq {t x : List Char} (h : WrittenAs t x) (ht : PlainEnds t) :
    lines x = lines t := by
  induction h with
  | nil => rfl
  | @keep c t x hwritten ih =>
      by_cases hc : c = '\n'
      · subst hc
        rw [lines, lines, ih ht.tail]
      · rw [lines_cons hc (hwritten.ne_newline ht),
          lines_cons hc ((WrittenAs.refl t).ne_newline ht), ih ht.tail]
  | widen _ ih => rw [lines, lines, ih ht.tail]

def widenLineEnds (cs : List Char) : List Char :=
  cs.flatMap fun c => if c = '\n' then ['\r', '\n'] else [c]

theorem writtenAs_widenLineEnds (t : List Char) : WrittenAs t (widenLineEnds t) := by
  induction t with
  | nil => exact .nil
  | cons c t ih =>
      rw [widenLineEnds, List.flatMap_cons]
      split_ifs with hc
      · subst hc
        exact .widen ih
      · exact .keep c ih

-- With a return before its line feed, a text is taken for the one that is without it.
example : normalizeLineEnds ['a', '\r', '\n'] = normalizeLineEnds ['a', '\n'] := by decide

end TaggedUnion.Text
