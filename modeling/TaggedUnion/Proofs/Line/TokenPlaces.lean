import TaggedUnion.Line.Variant
import TaggedUnion.Proofs.Line.Scanning

/-!
# Where the tokens of a line stand

Every token stands for a stretch of its line, which its kind describes, and its place and byte range
are those of the stretch. The stretches follow one another and leave out white space only. A word is
as long as it can be, and a `>` closes a bracket unless it is the tip of an arrow.

Tokens are traced back to the pieces of the line. A byte position belongs to one piece, since no
character is empty.
-/

namespace TaggedUnion

open Text Unicode

namespace Text

theorem byteLength_toList (s : String) : byteLength s.toList = s.utf8ByteSize := by
  have hlist : ∀ cs : List Char, byteLength cs = (String.ofList cs).utf8ByteSize := by
    intro cs
    induction cs with
    | nil => rfl
    | cons c cs ih =>
        rw [byteLength, ih, String.ofList_cons, String.utf8ByteSize_append,
          String.utf8ByteSize_singleton]
  rw [hlist, String.ofList_toList]

theorem byteLength_eq_zero {cs : List Char} (h : byteLength cs = 0) : cs = [] := by
  cases cs with
  | nil => rfl
  | cons c cs =>
      have hc := c.utf8Size_pos
      simp only [byteLength] at h
      omega

/-- Of two beginnings of one text, the one with more bytes goes on where the other ends. -/
theorem exists_append_of_byteLength_le {a b x y : List Char} (h : a ++ x = b ++ y)
    (hle : byteLength a ≤ byteLength b) : ∃ m, b = a ++ m ∧ x = m ++ y := by
  rcases List.append_eq_append_iff.mp h with ⟨m, rfl, rfl⟩ | ⟨m, rfl, rfl⟩
  · exact ⟨m, rfl, rfl⟩
  · rw [byteLength_append] at hle
    have hm : m = [] := byteLength_eq_zero (by omega)
    subst hm
    exact ⟨[], by simp, rfl⟩

theorem append_inj_of_byteLength {a b x y : List Char} (h : a ++ x = b ++ y)
    (hbytes : byteLength a = byteLength b) : a = b ∧ x = y := by
  obtain ⟨m, rfl, rfl⟩ := exists_append_of_byteLength_le h hbytes.le
  rw [byteLength_append] at hbytes
  have hm : m = [] := byteLength_eq_zero (by omega)
  subst hm
  exact ⟨by simp, rfl⟩

/-- A character that starts inside the bytes of a stretch is part of the stretch. -/
theorem mem_of_byteLength_lt {before slice after a b : List Char} {c : Char}
    (h : before ++ slice ++ after = a ++ c :: b) (hstart : byteLength before ≤ byteLength a)
    (hstop : byteLength a < byteLength before + byteLength slice) : c ∈ slice := by
  rw [List.append_assoc] at h
  obtain ⟨m, rfl, hrest⟩ := exists_append_of_byteLength_le h hstart
  rw [byteLength_append] at hstop
  obtain ⟨more, rfl, hmore⟩ := exists_append_of_byteLength_le hrest.symm (by omega)
  cases more with
  | nil => simp at hstop
  | cons d more =>
      rw [(List.cons.inj hmore).1]
      simp

end Text

/-- The kind that a stretch of a line denotes. -/
def Denotes (slice : List Char) : Token.Kind → Prop
  | .word name => name.toList = slice ∧ IsWord slice
  | .pipe => slice = ['|']
  | .comma => slice = [',']
  | .opener c => slice = [c] ∧ c ∈ ['<', '(', '[']
  | .closer c => slice = [c] ∧ c ∈ ['>', ')', ']']
  | .arrow => slice = ['-', '>']
  | .symbol c => slice = [c] ∧ isWhite c = false ∧ isWordChar c = false ∧
      c ∉ ['|', ',', '<', '(', '[', '>', ')', ']']
  | .endOfLine => False

/-- The token stands for `slice` in a line, between `before` and `after`. -/
structure Token.StandsFor (t : Token) (line : Nat) (text : String)
    (before slice after : List Char) : Prop where
  text_eq : text.toList = before ++ slice ++ after
  slice_ne_nil : slice ≠ []
  denotes : Denotes slice t.kind
  /-- A word does not go on at either side. -/
  longest : ∀ name, t.kind = .word name →
    (∀ c ∈ before.getLast?, isWordChar c = false) ∧ ∀ c ∈ after.head?, isWordChar c = false
  place_eq : t.place = ⟨line, 1 + before.length⟩
  span_eq : t.span = ⟨byteLength before, byteLength before + byteLength slice⟩
  span_text : t.span.text text = String.ofList slice

namespace Piece

theorem text_ne_nil (p : Piece) : p.text ≠ [] := by
  cases p <;> simp [text]

theorem denotes_of_kind? {p : Piece} {kind : Token.Kind} (hp : p.Pure) (h : p.kind? = some kind) :
    Denotes p.text kind := by
  cases p with
  | blank c => simp [kind?] at h
  | word c cs =>
      obtain rfl := Option.some.inj h
      exact ⟨by simp [text], List.cons_ne_nil c cs, hp⟩
  | arrow =>
      obtain rfl := Option.some.inj h
      rfl
  | single c =>
      obtain rfl := Option.some.inj h
      unfold Token.Kind.ofChar
      split
      case h_9 => exact ⟨rfl, hp.1, hp.2, by simp_all⟩
      all_goals simp [Denotes, text]

/-- Of the pieces, blanks are those that hold white space. -/
theorem isWhite_eq_isNone_kind? {p : Piece} {c : Char} (hp : p.Pure) (h : c ∈ p.text) :
    isWhite c = p.kind?.isNone := by
  cases p with
  | blank d =>
      obtain rfl := List.mem_singleton.mp h
      exact hp
  | word d ds => exact isWhite_eq_false_of_isWordChar (hp c h)
  | arrow =>
      have hmark : c ∈ marks := by
        simp only [text, List.mem_cons, List.not_mem_nil, or_false] at h
        rcases h with rfl | rfl <;> decide
      exact isWhite_of_mark hmark
  | single d =>
      obtain rfl := List.mem_singleton.mp h
      exact hp.1

theorem exists_piece_at {ps : List Piece} {a b : List Char} {c : Char}
    (h : ps.flatMap text = a ++ c :: b) :
    ∃ ps₁ p ps₂ a' b', ps = ps₁ ++ p :: ps₂ ∧ p.text = a' ++ c :: b' ∧
      a = ps₁.flatMap text ++ a' := by
  induction ps generalizing a with
  | nil => simp at h
  | cons p ps ih =>
      rw [List.flatMap_cons] at h
      rcases List.append_eq_append_iff.mp h with ⟨m, rfl, hm⟩ | ⟨m, hp, hm⟩
      · obtain ⟨ps₁, q, ps₂, a', b', rfl, hq, rfl⟩ := ih hm
        exact ⟨p :: ps₁, q, ps₂, a', b', rfl, hq, by simp⟩
      · cases m with
        | nil =>
            rw [List.nil_append] at hm
            obtain ⟨ps₁, q, ps₂, a', b', rfl, hq, ha⟩ := ih (a := []) hm.symm
            refine ⟨p :: ps₁, q, ps₂, a', b', rfl, hq, ?_⟩
            rw [List.flatMap_cons, List.append_assoc, ← ha, hp, List.append_nil, List.append_nil]
        | cons d m =>
            obtain ⟨rfl, -⟩ := List.cons.inj hm
            exact ⟨[], p, ps, a, m, rfl, hp, rfl⟩

section Neighbours
variable {ps₁ ps₂ : List Piece} {p : Piece}

/-- The character in front of a piece does not attract the piece. -/
theorem WellCut.attract_before (h : WellCut (ps₁ ++ p :: ps₂)) {x : Char}
    (hx : x ∈ (ps₁.flatMap text).getLast?) : attract x p.first = false := by
  rcases List.eq_nil_or_concat ps₁ with rfl | ⟨qs, q, rfl⟩
  · simp at hx
  · have hlast : q.last = x := by simpa [getLast?_text] using hx
    have hapart := (List.isChain_append.mp h.apart).2.2 q (by simp) p (by simp)
    rw [← hlast]
    exact hapart

theorem WellCut.attract_after (h : WellCut (ps₁ ++ p :: ps₂)) {y : Char}
    (hy : y ∈ (ps₂.flatMap text).head?) : attract p.last y = false := by
  cases ps₂ with
  | nil => simp at hy
  | cons q qs =>
      have hfirst : q.first = y := by simpa [head?_text] using hy
      have hchain := (List.isChain_append.mp h.apart).2.1
      rw [← hfirst]
      exact (List.isChain_cons.mp hchain).1 q rfl

end Neighbours

theorem isWordChar_of_attract {x y : Char} (h : attract x y = false) :
    (isWordChar y = true → isWordChar x = false) ∧
      (isWordChar x = true → isWordChar y = false) := by
  simp only [attract, Bool.or_eq_false_iff, Bool.and_eq_false_iff] at h
  constructor
  · intro hy
    simpa [hy] using h.1
  · intro hx
    simpa [hx] using h.1

end Piece

namespace Scanner

theorem mem_locate_iff {s : Scanner} {ps : List Piece} {t : Token} :
    t ∈ s.locate ps ↔ ∃ ps₁ p ps₂ kind, ps = ps₁ ++ p :: ps₂ ∧ p.kind? = some kind ∧
      t = (s.advance (ps₁.flatMap Piece.text)).token kind p.text := by
  constructor
  · intro h
    obtain ⟨as, bs, hts⟩ := List.append_of_mem h
    obtain ⟨qs₁, qs₂, rfl, -, htail⟩ := locate_eq_append hts
    obtain ⟨pre, p, kind, qs, rfl, -, hkind, rfl, -⟩ := locate_eq_cons htail
    exact ⟨qs₁ ++ pre, p, qs, kind, by simp, hkind, by simp [advance_append]⟩
  · rintro ⟨ps₁, p, ps₂, kind, rfl, hkind, rfl⟩
    rw [locate_append, locate_cons_token hkind]
    simp

theorem kind_ne_endOfLine_of_mem_locate {s : Scanner} {ps : List Piece} {t : Token}
    (h : t ∈ s.locate ps) : t.kind ≠ .endOfLine := by
  obtain ⟨ps₁, p, ps₂, kind, -, hkind, rfl⟩ := mem_locate_iff.mp h
  intro hend
  exact p.kind?_ne_endOfLine (hkind.trans (congrArg some hend))

theorem offset_le_of_mem_locate {s : Scanner} {ps : List Piece} {t : Token}
    (h : t ∈ s.locate ps) : s.offset ≤ t.span.start := by
  obtain ⟨ps₁, p, ps₂, kind, -, -, rfl⟩ := mem_locate_iff.mp h
  simp

theorem pairwise_locate (s : Scanner) (ps : List Piece) :
    (s.locate ps).Pairwise fun t u => t.span.stop ≤ u.span.start := by
  induction ps generalizing s with
  | nil => exact .nil
  | cons p ps ih =>
      cases hk : p.kind? with
      | none =>
          rw [locate_cons_blank hk]
          exact ih _
      | some kind =>
          rw [locate_cons_token hk, List.pairwise_cons]
          refine ⟨?_, ih _⟩
          intro u hu
          exact offset_le_of_mem_locate hu

theorem tokens_start (line : Nat) (text : String) :
    (start line text).tokens = (start line text).locate (Piece.split text.toList) := rfl

theorem standsFor_token (line : Nat) {text : String} {ps₁ ps₂ : List Piece} {p : Piece}
    {kind : Token.Kind} (hps : Piece.split text.toList = ps₁ ++ p :: ps₂)
    (hkind : p.kind? = some kind) :
    (((start line text).advance (ps₁.flatMap Piece.text)).token kind p.text).StandsFor line text
      (ps₁.flatMap Piece.text) p.text (ps₂.flatMap Piece.text) := by
  have hcut := Piece.split_wellCut text.toList
  rw [hps] at hcut
  have hpure := hcut.pure p (by simp)
  have htext : text.toList = ps₁.flatMap Piece.text ++ p.text ++ ps₂.flatMap Piece.text := by
    rw [← Piece.flatMap_text_split text.toList, hps]
    simp
  have hspan : (((start line text).advance (ps₁.flatMap Piece.text)).token kind p.text).span =
      ⟨byteLength (ps₁.flatMap Piece.text),
        byteLength (ps₁.flatMap Piece.text) + byteLength p.text⟩ := by
    simp [start]
  refine ⟨htext, p.text_ne_nil, Piece.denotes_of_kind? hpure hkind, ?_, rfl, hspan, ?_⟩
  · intro name hname
    obtain rfl : kind = .word name := hname
    have hword := Piece.isWord_of_kind? hpure hkind
    constructor
    · intro c hc
      apply (Piece.isWordChar_of_attract (hcut.attract_before hc)).1
      exact hword.isWordChar _ (List.mem_of_mem_head? p.head?_text)
    · intro c hc
      apply (Piece.isWordChar_of_attract (hcut.attract_after hc)).2
      exact hword.isWordChar _ (List.mem_of_mem_getLast? p.getLast?_text)
  · rw [hspan, Span.text, htext, cut_append]

theorem exists_standsFor {line : Nat} {text : String} {t : Token}
    (h : t ∈ (start line text).tokens) :
    ∃ before slice after, t.StandsFor line text before slice after := by
  rw [tokens_start] at h
  obtain ⟨ps₁, p, ps₂, kind, hps, hkind, rfl⟩ := mem_locate_iff.mp h
  exact ⟨_, _, _, standsFor_token line hps hkind⟩

/-- The first token stands behind the blanks that its line starts with. -/
theorem standsFor_first {line : Nat} {text : String} {t : Token} {ts : List Token}
    (h : (start line text).tokens = t :: ts) :
    ∃ slice after, t.StandsFor line text (text.toList.takeWhile isWhite) slice after := by
  obtain ⟨pre, p, kind, qs, hps, hpre, hkind, rfl, -⟩ := locate_eq_cons h
  have hpure : ∀ q ∈ pre ++ p :: qs, q.Pure := hps ▸ (Piece.split_wellCut text.toList).pure
  have hblank : IsBlank (pre.flatMap Piece.text) :=
    Piece.isBlank_flatMap_text (fun q hq => hpure q (by simp [hq])) hpre
  have hstands := standsFor_token line hps hkind
  have hlead : text.toList.takeWhile isWhite = pre.flatMap Piece.text := by
    obtain ⟨c, cs, hc⟩ := List.exists_cons_of_ne_nil p.text_ne_nil
    have hwhite : isWhite c = false := by
      rw [Piece.isWhite_eq_isNone_kind? (hpure p (by simp)) (by simp [hc]), hkind]
      rfl
    rw [hstands.text_eq, List.append_assoc, List.takeWhile_append_of_pos hblank, hc]
    simp [hwhite]
  rw [hlead]
  exact ⟨_, _, hstands⟩

/-- A character is part of a token unless it is white space. -/
theorem covered_iff (line : Nat) {text : String} {before after : List Char} {c : Char}
    (h : text.toList = before ++ c :: after) :
    (∃ t ∈ (start line text).tokens,
        t.span.start ≤ byteLength before ∧ byteLength before < t.span.stop) ↔
      isWhite c = false := by
  have hcut := Piece.split_wellCut text.toList
  constructor
  · rintro ⟨t, ht, hstart, hstop⟩
    rw [tokens_start] at ht
    obtain ⟨ps₁, p, ps₂, kind, hps, hkind, rfl⟩ := mem_locate_iff.mp ht
    have hstands := standsFor_token line hps hkind
    rw [hstands.span_eq] at hstart hstop
    have hmem : c ∈ p.text :=
      mem_of_byteLength_lt (hstands.text_eq.symm.trans h) hstart hstop
    rw [Piece.isWhite_eq_isNone_kind? (hcut.pure p (by simp [hps])) hmem, hkind]
    rfl
  · intro hc
    obtain ⟨ps₁, p, ps₂, a, b, hps, hp, rfl⟩ :=
      Piece.exists_piece_at ((Piece.flatMap_text_split text.toList).trans h)
    have hwhite := Piece.isWhite_eq_isNone_kind? (hcut.pure p (by simp [hps]))
      (show c ∈ p.text by simp [hp])
    obtain ⟨kind, hkind⟩ := Option.isSome_iff_exists.mp
      (Option.isNone_eq_false_iff.mp (hwhite.symm.trans hc))
    refine ⟨_, mem_locate_iff.mpr ⟨ps₁, p, ps₂, kind, hps, hkind, rfl⟩, ?_⟩
    rw [(standsFor_token line hps hkind).span_eq, hp, byteLength_append, byteLength_append]
    have hsize := c.utf8Size_pos
    simp only [byteLength]
    omega

/-- A `>` closes a bracket unless a `-` stands before it. -/
theorem closes_iff (line : Nat) {text : String} {before after : List Char}
    (h : text.toList = before ++ '>' :: after) :
    (∃ t ∈ (start line text).tokens,
        t.kind = .closer '>' ∧ t.span.start = byteLength before) ↔
      before.getLast? ≠ some '-' := by
  have hcut := Piece.split_wellCut text.toList
  constructor
  · rintro ⟨t, ht, hclose, hspan⟩ hdash
    rw [tokens_start] at ht
    obtain ⟨ps₁, p, ps₂, kind, hps, hkind, rfl⟩ := mem_locate_iff.mp ht
    have hstands := standsFor_token line hps hkind
    obtain rfl : kind = .closer '>' := hclose
    rw [hstands.span_eq] at hspan
    have hline := hstands.text_eq.symm.trans h
    rw [List.append_assoc] at hline
    obtain ⟨hbefore, -⟩ := append_inj_of_byteLength hline hspan
    have hfirst : p.first = '>' := by
      have hhead := p.head?_text
      rw [show p.text = ['>'] from hstands.denotes.1] at hhead
      exact (Option.some.inj hhead).symm
    rw [hps] at hcut
    have hapart := hcut.attract_before (x := '-') (by rw [hbefore]; exact hdash)
    rw [hfirst] at hapart
    simp [Piece.attract] at hapart
  · intro hdash
    obtain ⟨ps₁, p, ps₂, a, b, hps, hp, rfl⟩ :=
      Piece.exists_piece_at ((Piece.flatMap_text_split text.toList).trans h)
    have hpure := hcut.pure p (by simp [hps])
    have hmem : '>' ∈ p.text := by simp [hp]
    cases p with
    | blank d =>
        have hwhite := Piece.isWhite_eq_isNone_kind? hpure hmem
        rw [isWhite_of_mark (by decide)] at hwhite
        exact absurd hwhite (by simp [Piece.kind?])
    | word d ds =>
        have hword := hpure '>' hmem
        rw [isWordChar_of_mark (by decide)] at hword
        exact absurd hword (by decide)
    | arrow =>
        -- The tip of an arrow has the stem before it.
        exfalso
        cases a with
        | nil => simp [Piece.text] at hp
        | cons d a =>
            obtain ⟨rfl, htip⟩ := List.cons.inj hp
            cases a with
            | nil => exact hdash (by simp)
            | cons e a => simp at htip
    | single d =>
        obtain rfl := List.mem_singleton.mp hmem
        have ha : a = [] := by
          cases a with
          | nil => rfl
          | cons e a => simp [Piece.text] at hp
        subst ha
        refine ⟨_, mem_locate_iff.mpr ⟨ps₁, _, ps₂, _, hps, rfl, rfl⟩, rfl, ?_⟩
        rw [(standsFor_token line hps rfl).span_eq, List.append_nil]

theorem final_start (line : Nat) (text : String) : (start line text).final =
    ⟨.endOfLine, ⟨line, 1 + text.length⟩, ⟨text.utf8ByteSize, text.utf8ByteSize⟩⟩ := by
  simp [final, finish, token, advance, start, byteLength, byteLength_toList, String.length_toList]

theorem scan_finish (s : Scanner) : s.finish.scan = ([s.final], s.finish) := by
  have hrest : s.finish.rest = [] := by simp [finish, advance]
  have hstay : s.finish.finish = s.finish := by
    rw [finish, hrest, advance_nil]
  have htokens : s.finish.tokens = [] := by rw [tokens, hrest]; rfl
  rw [scan, htokens, final, hstay]
  rfl

/-- Every further scan gives the end of the line alone. -/
theorem scan_iterate_succ (s : Scanner) (n : Nat) :
    ((fun r => r.scan.2)^[n + 1] s).scan.1 = [s.final] := by
  have hstay : ∀ n, (fun r : Scanner => r.scan.2)^[n + 1] s = s.finish := by
    intro n
    induction n with
    | zero => rfl
    | succ n ih => rw [Function.iterate_succ_apply', ih, scan_finish]
  rw [hstay, scan_finish]

/-- The tokens of a line, exactly: each stands for a stretch of the line, the stretches follow one
another and leave out nothing but white space, and a `>` closes a bracket unless a `-` stands before
it. One token for the end of the line comes last, and it is all that another scan gives. -/
theorem scan_exact (line : Nat) (text : String) :
    ∃ ts final, (start line text).scan.1 = ts ++ [final] ∧
      final = ⟨.endOfLine, ⟨line, 1 + text.length⟩, ⟨text.utf8ByteSize, text.utf8ByteSize⟩⟩ ∧
      (∀ t ∈ ts, t.kind ≠ .endOfLine ∧
        ∃ before slice after, t.StandsFor line text before slice after) ∧
      (ts.Pairwise fun t u => t.span.stop ≤ u.span.start) ∧
      (∀ before c after, text.toList = before ++ c :: after →
        ((∃ t ∈ ts, t.span.start ≤ byteLength before ∧ byteLength before < t.span.stop) ↔
          isWhite c = false)) ∧
      (∀ before after, text.toList = before ++ '>' :: after →
        ((∃ t ∈ ts, t.kind = .closer '>' ∧ t.span.start = byteLength before) ↔
          before.getLast? ≠ some '-')) ∧
      ∀ n, ((fun s => s.scan.2)^[n + 1] (start line text)).scan.1 = [final] := by
  refine ⟨_, _, rfl, final_start line text, ?_, pairwise_locate _ _, ?_, ?_,
    scan_iterate_succ _⟩
  · intro t ht
    rw [tokens_start] at ht
    obtain ⟨ps₁, p, ps₂, kind, hps, hkind, rfl⟩ := mem_locate_iff.mp ht
    exact ⟨kind_ne_endOfLine_of_mem_locate ht, _, _, _, standsFor_token line hps hkind⟩
  · intro before c after h
    exact covered_iff line h
  · intro before after h
    exact closes_iff line h

end Scanner

end TaggedUnion
