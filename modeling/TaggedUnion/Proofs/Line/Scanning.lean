import TaggedUnion.Line.Scanner
import TaggedUnion.Proofs.Line.Cutting

/-!
# Tokens and the pieces behind them

Locating pieces is compositional: the tokens of two stretches of pieces stand side by side, and a
division of the tokens comes from a division of the pieces. The blanks at such a border may go to
either side. Tokens from the first to the last piece of a stretch without blanks at its ends cover
exactly the text of the stretch.
-/

namespace TaggedUnion

open Text Unicode

/-- The kinds of the tokens that a text has on its own. -/
def tokenKinds (text : List Char) : List Token.Kind :=
  (Scanner.start 1 (String.ofList text)).tokens.map (·.kind)

namespace Piece

theorem kind?_eq_none {p : Piece} (hp : p.Pure) (h : isWhite p.first = true) :
    p.kind? = none := by
  cases p with
  | blank c => rfl
  | word c cs =>
      have hc := isWhite_eq_false_of_isWordChar (hp c (by simp))
      rw [first, hc] at h
      exact absurd h (by decide)
  | arrow =>
      rw [first, isWhite_of_mark (by decide)] at h
      exact absurd h (by decide)
  | single c =>
      rw [first, hp.1] at h
      exact absurd h (by decide)

/-- Only a blank makes no token. -/
theorem exists_kind? {p : Piece} (hp : p.Pure)
    (h : isWhite p.first = false ∨ isWhite p.last = false) : ∃ kind, p.kind? = some kind := by
  cases p with
  | blank c => simp [first, last, show isWhite c = true from hp] at h
  | word c cs => exact ⟨_, rfl⟩
  | arrow => exact ⟨_, rfl⟩
  | single c => exact ⟨_, rfl⟩

theorem ofChar_eq_pipe {c : Char} (h : Token.Kind.ofChar c = .pipe) : c = '|' := by
  unfold Token.Kind.ofChar at h
  split at h <;> simp_all

theorem ofChar_eq_comma {c : Char} (h : Token.Kind.ofChar c = .comma) : c = ',' := by
  unfold Token.Kind.ofChar at h
  split at h <;> simp_all

theorem eq_single_of_pipe {p : Piece} (h : p.kind? = some .pipe) : p = single '|' := by
  cases p with
  | single c => rw [ofChar_eq_pipe (Option.some.inj h)]
  | blank c => simp [kind?] at h
  | word c cs => simp [kind?] at h
  | arrow => simp [kind?] at h

theorem eq_single_of_comma {p : Piece} (h : p.kind? = some .comma) : p = single ',' := by
  cases p with
  | single c => rw [ofChar_eq_comma (Option.some.inj h)]
  | blank c => simp [kind?] at h
  | word c cs => simp [kind?] at h
  | arrow => simp [kind?] at h

theorem ofChar_ne_word (c : Char) (w : String) : Token.Kind.ofChar c ≠ .word w := by
  unfold Token.Kind.ofChar
  split <;> simp

theorem ofChar_ne_endOfLine (c : Char) : Token.Kind.ofChar c ≠ .endOfLine := by
  unfold Token.Kind.ofChar
  split <;> simp

/-- The token of a word comes from the characters of its name. -/
theorem isWord_of_kind? {p : Piece} {w : String} (hp : p.Pure) (h : p.kind? = some (.word w)) :
    IsWord p.text := by
  cases p with
  | word c cs => exact ⟨List.cons_ne_nil c cs, hp⟩
  | blank c => simp [kind?] at h
  | arrow => simp [kind?] at h
  | single c => exact absurd (Option.some.inj h) (ofChar_ne_word c w)

theorem kind?_ne_endOfLine (p : Piece) : p.kind? ≠ some .endOfLine := by
  cases p with
  | single c => exact fun h => ofChar_ne_endOfLine c (Option.some.inj h)
  | blank c => simp [kind?]
  | word c cs => simp [kind?]
  | arrow => simp [kind?]

theorem isBlank_flatMap_text {ps : List Piece} (hp : ∀ p ∈ ps, p.Pure)
    (h : ∀ p ∈ ps, p.kind? = none) : IsBlank (ps.flatMap text) := by
  intro c hc
  obtain ⟨p, hmem, hc⟩ := List.mem_flatMap.mp hc
  have hk := h p hmem
  cases p with
  | blank d =>
      rw [List.mem_singleton.mp hc]
      exact hp _ hmem
  | word d ds => simp [kind?] at hk
  | arrow => simp [kind?] at hk
  | single d => simp [kind?] at hk

theorem split_of_isWord {cs : List Char} (h : IsWord cs) : ∃ c ds, cs = c :: ds ∧
    split cs = [word c ds] := by
  obtain ⟨c, ds, rfl⟩ := List.exists_cons_of_ne_nil h.ne_nil
  refine ⟨c, ds, rfl, ?_⟩
  exact foldr_push_word (.cons h.isWordChar .nil (by simp))

theorem split_mark {m : Char} (h : m ∈ marks) : split [m] = [single m] := by
  rw [split, List.foldr_cons, List.foldr_nil, push_eq_alone (by simp), alone_of_mark h]

end Piece

namespace Token

/-- The position where the last of the tokens ends; `stop` if there are none. -/
def reach (stop : Nat) : List Token → Nat
  | [] => stop
  | t :: ts => reach t.span.stop ts

def cover (ts : List Token) : Span :=
  ⟨(ts.head?.map (·.span.start)).getD 0, reach 0 ts⟩

theorem reach_append_singleton (stop : Nat) (ts : List Token) (t : Token) :
    reach stop (ts ++ [t]) = t.span.stop := by
  induction ts generalizing stop with
  | nil => rfl
  | cons u ts ih => exact ih u.span.stop

end Token

namespace Scanner

@[simp] theorem advance_offset (s : Scanner) (cs : List Char) :
    (s.advance cs).offset = s.offset + byteLength cs := rfl

@[simp] theorem token_kind (s : Scanner) (kind : Token.Kind) (cs : List Char) :
    (s.token kind cs).kind = kind := rfl

@[simp] theorem token_span (s : Scanner) (kind : Token.Kind) (cs : List Char) :
    (s.token kind cs).span = ⟨s.offset, s.offset + byteLength cs⟩ := rfl

@[simp] theorem advance_nil (s : Scanner) : s.advance [] = s := rfl

theorem advance_append (s : Scanner) (a b : List Char) :
    s.advance (a ++ b) = (s.advance a).advance b := by
  simp only [advance, List.length_append, byteLength_append, Nat.add_assoc, List.drop_drop]

theorem locate_cons_blank {p : Piece} (h : p.kind? = none) (s : Scanner) (ps : List Piece) :
    s.locate (p :: ps) = (s.advance p.text).locate ps := by
  rw [locate, h]

theorem locate_cons_token {p : Piece} {kind : Token.Kind} (h : p.kind? = some kind) (s : Scanner)
    (ps : List Piece) :
    s.locate (p :: ps) = s.token kind p.text :: (s.advance p.text).locate ps := by
  rw [locate, h]

/-- The tokens of two stretches of pieces stand side by side. -/
theorem locate_append (s : Scanner) (ps qs : List Piece) :
    s.locate (ps ++ qs) = s.locate ps ++ (s.advance (ps.flatMap Piece.text)).locate qs := by
  induction ps generalizing s with
  | nil => rfl
  | cons p ps ih =>
      simp only [List.cons_append, locate, List.flatMap_cons, advance_append, ih]
      cases p.kind? <;> rfl

theorem map_kind_locate (s : Scanner) (ps : List Piece) :
    (s.locate ps).map (·.kind) = ps.filterMap Piece.kind? := by
  induction ps generalizing s with
  | nil => rfl
  | cons p ps ih =>
      rw [locate, List.filterMap_cons]
      cases p.kind? with
      | none => exact ih _
      | some kind => simp only [List.map_cons, token_kind, ih]

/-- A division of the tokens comes from a division of the pieces. -/
theorem locate_eq_append {s : Scanner} {ps : List Piece} {as bs : List Token}
    (h : s.locate ps = as ++ bs) :
    ∃ ps₁ ps₂, ps = ps₁ ++ ps₂ ∧ s.locate ps₁ = as ∧
      (s.advance (ps₁.flatMap Piece.text)).locate ps₂ = bs := by
  induction ps generalizing s as with
  | nil =>
      obtain ⟨rfl, rfl⟩ := List.append_eq_nil_iff.mp h.symm
      exact ⟨[], [], rfl, rfl, rfl⟩
  | cons p ps ih =>
      cases as with
      | nil => exact ⟨[], p :: ps, rfl, rfl, h⟩
      | cons a as =>
          cases hk : p.kind? with
          | none =>
              rw [locate_cons_blank hk] at h
              obtain ⟨ps₁, ps₂, rfl, h₁, h₂⟩ := ih h
              refine ⟨p :: ps₁, ps₂, rfl, ?_, ?_⟩
              · rw [locate_cons_blank hk, h₁]
              · rw [List.flatMap_cons, advance_append, h₂]
          | some kind =>
              rw [locate_cons_token hk] at h
              obtain ⟨rfl, htail⟩ := List.cons.inj h
              obtain ⟨ps₁, ps₂, rfl, h₁, h₂⟩ := ih htail
              refine ⟨p :: ps₁, ps₂, rfl, ?_, ?_⟩
              · rw [locate_cons_token hk, h₁]
              · rw [List.flatMap_cons, advance_append, h₂]

theorem locate_eq_nil {s : Scanner} {ps : List Piece} (h : ∀ p ∈ ps, p.kind? = none) :
    s.locate ps = [] := by
  rw [← List.map_eq_nil_iff (f := (·.kind)), map_kind_locate, List.filterMap_eq_nil_iff]
  exact h

/-- The first token comes from the first piece that is not blank. -/
theorem locate_eq_cons {s : Scanner} {ps : List Piece} {t : Token} {ts : List Token}
    (h : s.locate ps = t :: ts) :
    ∃ pre p kind qs, ps = pre ++ p :: qs ∧ (∀ q ∈ pre, q.kind? = none) ∧ p.kind? = some kind ∧
      t = (s.advance (pre.flatMap Piece.text)).token kind p.text ∧
      (s.advance ((pre ++ [p]).flatMap Piece.text)).locate qs = ts := by
  induction ps generalizing s with
  | nil => simp [locate] at h
  | cons p ps ih =>
      cases hk : p.kind? with
      | none =>
          rw [locate_cons_blank hk] at h
          obtain ⟨pre, q, kind, qs, rfl, hpre, hq, ht, hts⟩ := ih h
          refine ⟨p :: pre, q, kind, qs, rfl, ?_, hq, ?_, ?_⟩
          · intro r hr
            rcases List.mem_cons.mp hr with rfl | hr
            · exact hk
            · exact hpre r hr
          · rw [List.flatMap_cons, advance_append, ht]
          · rw [List.cons_append, List.flatMap_cons, advance_append, hts]
      | some kind =>
          rw [locate_cons_token hk] at h
          obtain ⟨rfl, rfl⟩ := List.cons.inj h
          exact ⟨[], p, kind, ps, rfl, by simp, hk, by simp, by simp⟩

theorem locate_split_of_isBlank {w : List Char} (h : IsBlank w) (s : Scanner) :
    s.locate (Piece.split w) = [] := by
  apply locate_eq_nil
  intro p hp
  have hfirst : isWhite p.first = true := by
    apply h
    rw [← Piece.flatMap_text_split w]
    exact List.mem_flatMap.mpr ⟨p, hp, List.mem_of_mem_head? p.head?_text⟩
  exact Piece.kind?_eq_none ((Piece.split_wellCut w).pure p hp) hfirst

/-- Texts that do not attract each other at the border have their tokens side by side. -/
theorem locate_split_append {a b : List Char}
    (h : ∀ x ∈ a.getLast?, ∀ y ∈ b.head?, Piece.attract x y = false) (s : Scanner) :
    s.locate (Piece.split (a ++ b)) =
      s.locate (Piece.split a) ++ (s.advance a).locate (Piece.split b) := by
  rw [Piece.split_append h, locate_append, Piece.flatMap_text_split]

/-- Blanks in front of a text only move its tokens. -/
theorem locate_split_blank_append {w : List Char} (h : IsBlank w) (b : List Char) (s : Scanner) :
    s.locate (Piece.split (w ++ b)) = (s.advance w).locate (Piece.split b) := by
  rw [locate_split_append, locate_split_of_isBlank h, List.nil_append]
  intro x hx y _
  exact Piece.attract_of_isWhite_left (h x (List.mem_of_mem_getLast? hx)) y

/-- Blanks behind a text change none of its tokens. -/
theorem locate_split_append_blank {w : List Char} (a : List Char) (h : IsBlank w) (s : Scanner) :
    s.locate (Piece.split (a ++ w)) = s.locate (Piece.split a) := by
  rw [locate_split_append, locate_split_of_isBlank h, List.append_nil]
  intro x _ y hy
  exact Piece.attract_of_isWhite_right x (h y (List.mem_of_mem_head? hy))

/-- A mark that is no part of an arrow is a token of its own, and keeps its two sides apart. -/
theorem locate_split_mark {m : Char} (hm : m ∈ marks) (hstem : m ≠ '-') (htip : m ≠ '>')
    (a b : List Char) (s : Scanner) :
    s.locate (Piece.split (a ++ m :: b)) = s.locate (Piece.split a) ++
      (s.advance a).token (.ofChar m) [m] :: (s.advance (a ++ [m])).locate (Piece.split b) := by
  have hleft : ∀ x ∈ a.getLast?, ∀ y ∈ (m :: b).head?, Piece.attract x y = false := by
    intro x _ y hy
    obtain rfl : m = y := Option.some.inj hy
    exact Piece.attract_eq_false (.inr (isWordChar_of_mark hm)) (.inr htip)
  have hright : ∀ x ∈ [m].getLast?, ∀ y ∈ b.head?, Piece.attract x y = false := by
    intro x hx y _
    obtain rfl : m = x := Option.some.inj hx
    exact Piece.attract_eq_false (.inl (isWordChar_of_mark hm)) (.inl hstem)
  have hmark : (s.advance a).locate (Piece.split ([m] ++ b)) =
      (s.advance a).token (.ofChar m) [m] :: ((s.advance a).advance [m]).locate (Piece.split b) := by
    rw [locate_split_append hright, Piece.split_mark hm, locate_cons_token rfl]
    rfl
  rw [locate_split_append hleft, ← List.singleton_append, hmark, advance_append]

/-- A text without blanks at its ends is what its tokens cover. -/
theorem cover_locate_split {cs : List Char} (h : Trimmed cs) (s : Scanner) :
    s.locate (Piece.split cs) ≠ [] ∧
      Token.cover (s.locate (Piece.split cs)) = ⟨s.offset, s.offset + byteLength cs⟩ := by
  have hcut := Piece.split_wellCut cs
  obtain ⟨p, ps, hps⟩ := List.exists_cons_of_ne_nil (mt Piece.split_eq_nil_iff.mp h.ne_nil)
  obtain ⟨kind, hkind⟩ : ∃ kind, p.kind? = some kind := by
    apply Piece.exists_kind? (hcut.pure p (by simp [hps]))
    left
    apply h.first
    rw [← Piece.head?_split, hps]
    rfl
  have hstart : s.locate (Piece.split cs) =
      s.token kind p.text :: (s.advance p.text).locate ps := by
    rw [hps, locate_cons_token hkind]
  obtain ⟨qs, q, hqs⟩ := (List.eq_nil_or_concat (Piece.split cs)).resolve_left
    (mt Piece.split_eq_nil_iff.mp h.ne_nil)
  obtain ⟨kind', hkind'⟩ : ∃ kind, q.kind? = some kind := by
    apply Piece.exists_kind? (hcut.pure q (by simp [hqs]))
    right
    apply h.last
    rw [← Piece.getLast?_split, hqs]
    simp
  have hstop : s.locate (Piece.split cs) =
      s.locate qs ++ [(s.advance (qs.flatMap Piece.text)).token kind' q.text] := by
    rw [hqs, List.concat_eq_append, locate_append, locate_cons_token hkind']
    rfl
  refine ⟨by simp [hstart], ?_⟩
  have hbytes : byteLength cs = byteLength (qs.flatMap Piece.text) + byteLength q.text := by
    rw [← byteLength_append]
    conv_lhs => rw [← Piece.flatMap_text_split cs, hqs]
    simp
  have hreach : Token.reach 0 (s.locate (Piece.split cs)) = s.offset + byteLength cs := by
    rw [hstop, Token.reach_append_singleton, hbytes]
    simp [Nat.add_assoc]
  rw [Token.cover, hreach, hstart]
  rfl

end Scanner

theorem tokenKinds_eq (cs : List Char) :
    tokenKinds cs = (Piece.split cs).filterMap Piece.kind? := by
  rw [tokenKinds, Scanner.tokens, Scanner.map_kind_locate]
  simp [Scanner.start]

theorem endOfLine_notMem_tokenKinds (cs : List Char) : Token.Kind.endOfLine ∉ tokenKinds cs := by
  rw [tokenKinds_eq]
  intro h
  obtain ⟨p, -, hp⟩ := List.mem_filterMap.mp h
  exact p.kind?_ne_endOfLine hp

/-- Where a text stands does not matter to the kinds of its tokens. -/
theorem Scanner.map_kind_locate_split (s : Scanner) (cs : List Char) :
    (s.locate (Piece.split cs)).map (·.kind) = tokenKinds cs := by
  rw [map_kind_locate, tokenKinds_eq]

theorem tokenKinds_append {a b : List Char}
    (h : ∀ x ∈ a.getLast?, ∀ y ∈ b.head?, Piece.attract x y = false) :
    tokenKinds (a ++ b) = tokenKinds a ++ tokenKinds b := by
  simp only [tokenKinds_eq, Piece.split_append h, List.filterMap_append]

theorem tokenKinds_of_isWord {cs : List Char} (h : IsWord cs) :
    tokenKinds cs = [.word (String.ofList cs)] := by
  obtain ⟨c, ds, rfl, hsplit⟩ := Piece.split_of_isWord h
  rw [tokenKinds_eq, hsplit]
  rfl

theorem tokenKinds_blanks {before after : List Char} (hbefore : IsBlank before)
    (hafter : IsBlank after) (cs : List Char) :
    tokenKinds (before ++ cs ++ after) = tokenKinds cs := by
  rw [← (Scanner.start 1 "").map_kind_locate_split, Scanner.locate_split_append_blank _ hafter,
    Scanner.locate_split_blank_append hbefore, Scanner.map_kind_locate_split]

/-- A mark that is no part of an arrow is a token between those of its two sides. -/
theorem tokenKinds_mark {m : Char} (hm : m ∈ marks) (hstem : m ≠ '-') (htip : m ≠ '>')
    (a b : List Char) :
    tokenKinds (a ++ m :: b) = tokenKinds a ++ Token.Kind.ofChar m :: tokenKinds b := by
  have hkinds := congrArg (List.map (·.kind))
    (Scanner.locate_split_mark hm hstem htip a b (Scanner.start 1 ""))
  simpa only [List.map_append, List.map_cons, Scanner.map_kind_locate_split,
    Scanner.token_kind] using hkinds

end TaggedUnion
