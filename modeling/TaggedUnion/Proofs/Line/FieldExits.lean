import TaggedUnion.Proofs.Line.Positions
import TaggedUnion.Proofs.Line.Renumbering

/-!
# How a field ends

A field is read in a loop. Each round passes one token, moves the end of the field behind it and
keeps the open brackets. There are five ways out: the end of the line, a comma outside all brackets,
a `|`, a bracket that closes nothing, and, behind the loop, a bracket that is still open. Only the
first two give a field, and both leave a comma or the end of the line ahead. So when no further
comma is found the line has ended, and the check for this behind the fields always passes.

The tokens may be any list that ends with an end of the line, and reading may start at any of them.
-/

namespace TaggedUnion

open Text

namespace Grammar

structure FieldLoop where
  /-- The end of the field, as far as it has been read. -/
  stop : Nat
  openings : List Opening
  ahead : List Token
  deriving DecidableEq, Repr

namespace FieldLoop

def result (variant : String) (l : FieldLoop) : EStateM.Result Fault (List Token) Nat :=
  fieldRest variant l.stop l.openings l.ahead

/-- The next round, unless the loop is left here. -/
def round? (l : FieldLoop) : Option FieldLoop :=
  match l.ahead with
  | [] => none
  | t :: ts =>
    if (pass (bracketsOf l.openings) t.kind).isSome then
      some ⟨t.span.stop, track l.openings t, ts⟩
    else none

/-- Rounds of the loop that pass some tokens. -/
inductive Rounds : FieldLoop → List Token → FieldLoop → Prop
  | done (l : FieldLoop) : Rounds l [] l
  | round {stop : Nat} {openings : List Opening} {t : Token} {ts passed : List Token}
      {next last : FieldLoop} : round? ⟨stop, openings, t :: ts⟩ = some next →
      Rounds next passed last → Rounds ⟨stop, openings, t :: ts⟩ (t :: passed) last

section Round
variable {stop : Nat} {openings : List Opening} {t : Token} {ts : List Token} {next : FieldLoop}

theorem round?_eq_some (h : round? ⟨stop, openings, t :: ts⟩ = some next) :
    ∃ brackets, pass (bracketsOf openings) t.kind = some brackets ∧
      next = ⟨t.span.stop, track openings t, ts⟩ := by
  simp only [round?] at h
  split_ifs at h with hpass
  obtain ⟨brackets, hbrackets⟩ := Option.isSome_iff_exists.mp hpass
  exact ⟨brackets, hbrackets, (Option.some.inj h).symm⟩

theorem round?_of_pass {brackets : List Char}
    (h : pass (bracketsOf openings) t.kind = some brackets) :
    round? ⟨stop, openings, t :: ts⟩ = some ⟨t.span.stop, track openings t, ts⟩ := by
  simp [round?, h]

theorem result_of_round (variant : String) (h : round? ⟨stop, openings, t :: ts⟩ = some next) :
    result variant ⟨stop, openings, t :: ts⟩ = next.result variant := by
  obtain ⟨brackets, hpass, rfl⟩ := round?_eq_some h
  exact fieldRest_of_pass ts hpass

end Round

namespace Rounds
variable {l last : FieldLoop} {passed : List Token}

theorem result_eq (h : Rounds l passed last) (variant : String) :
    l.result variant = last.result variant := by
  induction h with
  | done l => rfl
  | round hround _ ih => exact (result_of_round variant hround).trans ih

theorem ahead_eq (h : Rounds l passed last) : l.ahead = passed ++ last.ahead := by
  induction h with
  | done l => rfl
  | round hround _ ih =>
      obtain ⟨brackets, -, rfl⟩ := round?_eq_some hround
      exact congrArg (List.cons _) ih

theorem stop_eq (h : Rounds l passed last) : last.stop = Token.reach l.stop passed := by
  induction h with
  | done l => rfl
  | round hround _ ih =>
      obtain ⟨brackets, -, rfl⟩ := round?_eq_some hround
      exact ih

theorem passAll_eq (h : Rounds l passed last) :
    passAll (bracketsOf l.openings) (passed.map (·.kind)) = some (bracketsOf last.openings) := by
  induction h with
  | done l => rfl
  | round hround _ ih =>
      obtain ⟨brackets, hpass, rfl⟩ := round?_eq_some hround
      rw [List.map_cons, passAll, hpass, Option.bind_some, ← bracketsOf_track hpass]
      exact ih

theorem kind_ne_endOfLine (h : Rounds l passed last) : ∀ t ∈ passed, t.kind ≠ .endOfLine := by
  induction h with
  | done l => simp
  | round hround _ ih =>
      obtain ⟨brackets, hpass, rfl⟩ := round?_eq_some hround
      refine List.forall_mem_cons.mpr ⟨?_, ih⟩
      intro hk
      simp [hk, pass] at hpass

end Rounds

/-- The ways out of the loop. What is ahead stays there, and there is a field only at a comma or the
end of the line, and only with all brackets closed. -/
theorem result_of_round?_eq_none {l : FieldLoop} (h : l.round? = none) (variant : String) :
    (l.openings = [] ∧ Stops l.ahead ∧ l.result variant = .ok l.stop l.ahead) ∨
      ∃ e, l.result variant = .error e l.ahead := by
  obtain ⟨stop, openings, ahead⟩ := l
  have hend : ∀ ts, (openings = [] ∧ fieldEnd variant stop openings ts = .ok stop ts) ∨
      ∃ e, fieldEnd variant stop openings ts = .error e ts := by
    intro ts
    cases openings with
    | nil => exact .inl ⟨rfl, rfl⟩
    | cons o os => exact .inr ⟨_, rfl⟩
  cases ahead with
  | nil =>
      rcases hend [] with ⟨hclosed, hok⟩ | herror
      · exact .inl ⟨hclosed, by simp [Stops], hok⟩
      · exact .inr herror
  | cons t ts =>
      have hpass : pass (bracketsOf openings) t.kind = none := by simpa [round?] using h
      simp only [result]
      rcases fieldRest_of_not_pass variant stop ts hpass with
        ⟨hk, hclosed, hr⟩ | ⟨hk, hr⟩ | ⟨-, hr⟩ | ⟨c, -, hr⟩
      · exact .inl ⟨hclosed, by simp [Stops, hk], hr⟩
      · rw [hr]
        rcases hend (t :: ts) with ⟨hclosed, hok⟩ | herror
        · exact .inl ⟨hclosed, by simp [Stops, hk], hok⟩
        · exact .inr herror
      · exact .inr ⟨_, hr⟩
      · exact .inr ⟨_, hr⟩

theorem exists_rounds (l : FieldLoop) :
    ∃ passed last, Rounds l passed last ∧ last.round? = none := by
  obtain ⟨stop, openings, ahead⟩ := l
  induction ahead generalizing stop openings with
  | nil => exact ⟨[], _, .done _, rfl⟩
  | cons t ts ih =>
      cases hpass : pass (bracketsOf openings) t.kind with
      | none => exact ⟨[], _, .done _, by simp [round?, hpass]⟩
      | some brackets =>
          obtain ⟨passed, last, hrounds, hlast⟩ := ih t.span.stop (track openings t)
          exact ⟨t :: passed, last, .round (round?_of_pass hpass) hrounds, hlast⟩

/-- The loop gives a field exactly if its rounds end with all brackets closed, before a comma or the
end of the line. -/
theorem result_eq_ok_iff {l : FieldLoop} {variant : String} {stop : Nat} {rest : List Token} :
    l.result variant = .ok stop rest ↔
      Stops rest ∧ ∃ passed, Rounds l passed ⟨stop, [], rest⟩ := by
  constructor
  · intro h
    obtain ⟨passed, last, hrounds, hlast⟩ := l.exists_rounds
    rw [hrounds.result_eq] at h
    rcases result_of_round?_eq_none hlast variant with ⟨hclosed, hstops, hok⟩ | ⟨e, herror⟩
    · obtain ⟨rfl, rfl⟩ := EStateM.Result.ok.inj (hok.symm.trans h)
      refine ⟨hstops, passed, ?_⟩
      rwa [← hclosed]
    · simp [herror] at h
  · intro ⟨hstops, passed, hrounds⟩
    rw [hrounds.result_eq]
    exact fieldRest_of_stops hstops

end FieldLoop

/-- A field is what the loop gives that starts, with no bracket open, at a token other than those
that end a field. -/
theorem field_eq_ok_iff_result {final : Token} {variant : String} {ts rest : List Token}
    {s : Span} :
    field final variant ts = .ok s rest ↔
      ∃ t ∈ ts.head?, t.kind ≠ .comma ∧ t.kind ≠ .endOfLine ∧ s.start = t.span.start ∧
        FieldLoop.result variant ⟨s.start, [], ts⟩ = .ok s.stop rest := by
  cases ts with
  | nil => simp [field]
  | cons t ts =>
      rw [field_cons_eq_ok_iff]
      simp only [List.head?_cons, Option.mem_some_iff, exists_eq_left', FieldLoop.result]
      constructor
      · intro h
        obtain ⟨⟨hcomma, hend⟩, hstart, hr⟩ := h
        rw [← hstart]
        exact ⟨hcomma, hend, rfl, hr⟩
      · intro h
        obtain ⟨hcomma, hend, hstart, hr⟩ := h
        rw [hstart] at hr
        exact ⟨⟨hcomma, hend⟩, hstart.symm, hr⟩

end Grammar

namespace LineReader

open Grammar

def skip (r : LineReader) (n : Nat) : LineReader :=
  r.moveTo (r.ahead.drop n)

/-- A field has been read: the reader has moved over the tokens `consumed`, and the field has the
range `s`. -/
structure ReadsField (r r' : LineReader) (consumed : List Token) (s : Span) : Prop where
  ahead_eq : r.ahead = consumed ++ r'.ahead
  passed_eq : r'.passed = r.passed + consumed.length
  ne_nil : consumed ≠ []
  /-- The loop starts with no bracket open, and there is none when it is left. -/
  rounds : FieldLoop.Rounds ⟨s.start, [], r.ahead⟩ consumed ⟨s.stop, [], r'.ahead⟩
  no_pipe : ∀ t ∈ consumed, t.kind ≠ .pipe
  no_outer_comma : ∀ a t b, consumed = a ++ t :: b → t.kind = .comma →
    depth (a.map (·.kind)) ≠ 0
  range : ∀ first ∈ consumed.head?, ∀ last ∈ consumed.getLast?,
    s = ⟨first.span.start, last.span.stop⟩ ∧
      ∀ a m b, r.text.toList = a ++ m ++ b → byteLength a = first.span.start →
        byteLength (a ++ m) = last.span.stop → s.text r.text = String.ofList m
  current_kind : r'.current.kind = .comma ∨ r'.current.kind = .endOfLine

theorem current_kind_iff {r : LineReader} (hfinal : r.final.kind = .endOfLine) :
    (r.current.kind = .comma ∨ r.current.kind = .endOfLine) ↔ Stops r.ahead := by
  cases h : r.ahead with
  | nil => simp [current, h, Stops, hfinal]
  | cons t ts => simp [current, h, Stops]

theorem readsField_of_rounds {r : LineReader} {consumed rest : List Token} {s : Span}
    (hfinal : r.final.kind = .endOfLine) (hne : consumed ≠ [])
    (hstart : ∀ t ∈ consumed.head?, s.start = t.span.start) (hstops : Stops rest)
    (hrounds : FieldLoop.Rounds ⟨s.start, [], r.ahead⟩ consumed ⟨s.stop, [], rest⟩) :
    r.ReadsField (r.moveTo rest) consumed s := by
  have hahead : r.ahead = consumed ++ rest := hrounds.ahead_eq
  have hkinds : FieldTokens (consumed.map (·.kind)) := by
    refine (fieldTokens_iff_passAll ?_).mpr hrounds.passAll_eq
    simpa using hrounds.kind_ne_endOfLine
  refine ⟨hahead, ?_, hne, hrounds, ?_, ?_, ?_,
    (current_kind_iff (r := r.moveTo rest) hfinal).mpr hstops⟩
  · simp only [moveTo, hahead, List.length_append]
    omega
  · intro t ht hk
    exact hkinds.no_pipe (List.mem_map.mpr ⟨t, ht, hk⟩)
  · intro a t b hab hk
    apply hkinds.no_outer_comma (a.map (·.kind)) (b.map (·.kind))
    rw [hab, List.map_append, List.map_cons, hk]
  · intro first hfirst last hlast
    have hstop : s.stop = last.span.stop := by
      have hreach : s.stop = Token.reach s.start consumed := hrounds.stop_eq
      rw [hreach, ← List.dropLast_append_getLast? last hlast]
      exact Token.reach_append_singleton s.start consumed.dropLast last
    have hrange : s = ⟨first.span.start, last.span.stop⟩ := by
      rw [← hstart first hfirst, ← hstop]
    refine ⟨hrange, ?_⟩
    intro a m b htext ha hm
    rw [hrange, Span.text, htext, ← ha, ← hm, byteLength_append, cut_append]

/-- A field is read exactly if the reader can move over its tokens. -/
theorem field_eq_ok_iff_readsField {r : LineReader} (hfinal : r.final.kind = .endOfLine)
    {variant : String} {s : Span} {rest : List Token} :
    field r.final variant r.ahead = .ok s rest ↔
      ∃ consumed, r.ReadsField (r.moveTo rest) consumed s := by
  rw [field_eq_ok_iff_result]
  constructor
  · intro ⟨t, ht, hcomma, hend, hstart, hresult⟩
    obtain ⟨hstops, consumed, hrounds⟩ := FieldLoop.result_eq_ok_iff.mp hresult
    have hahead : r.ahead = consumed ++ rest := hrounds.ahead_eq
    -- The first token ends no field, so it is not what the loop has stopped at.
    have hne : consumed ≠ [] := by
      intro hnil
      rw [hahead, hnil, List.nil_append] at ht
      rcases hstops t ht with hk | hk
      · exact hcomma hk
      · exact hend hk
    refine ⟨consumed, readsField_of_rounds hfinal hne ?_ hstops hrounds⟩
    intro u hu
    rw [hahead, List.head?_append_of_ne_nil _ hne] at ht
    rw [hstart, Option.mem_unique ht hu]
  · intro ⟨consumed, h⟩
    obtain ⟨t, ts, rfl⟩ := List.exists_cons_of_ne_nil h.ne_nil
    have hstops : Stops rest := (current_kind_iff (r := r.moveTo rest) hfinal).mp h.current_kind
    have hlast := List.getLast?_eq_some_getLast (List.cons_ne_nil t ts)
    refine ⟨t, by rw [h.ahead_eq]; rfl, ?_, ?_, ?_, ?_⟩
    · exact fun hk => h.no_outer_comma [] t ts rfl hk rfl
    · exact h.rounds.kind_ne_endOfLine t List.mem_cons_self
    · rw [(h.range t rfl _ hlast).1]
    · exact FieldLoop.result_eq_ok_iff.mpr ⟨hstops, _, h.rounds⟩

section Positions
variable {text : String} {tokens : List Token} {r : LineReader}

theorem tokens_of_ofTokens? (hr : ofTokens? text tokens = some r) :
    tokens = r.ahead ++ [r.final] ∧ r.passed = 0 ∧ r.text = text := by
  obtain ⟨final, hfinal, rfl⟩ := Option.map_eq_some_iff.mp hr
  exact ⟨(List.dropLast_append_getLast? final hfinal).symm, rfl, rfl⟩

/-- Every position of the tokens has a reader. Behind the last token there is none. -/
theorem skip_position (hr : ofTokens? text tokens = some r) (n : Nat) :
    (r.skip n).passed = min n (tokens.length - 1) ∧
      tokens[(r.skip n).passed]? = some (r.skip n).current := by
  obtain ⟨htokens, hpassed, -⟩ := tokens_of_ofTokens? hr
  have hposition : (r.skip n).passed = min n r.ahead.length := by
    simp only [skip, moveTo, List.length_drop, hpassed]
    omega
  have hlength : tokens.length - 1 = r.ahead.length := by simp [htokens]
  refine ⟨by rw [hposition, hlength], ?_⟩
  rw [hposition, htokens]
  simp only [skip, moveTo, current]
  by_cases hn : n < r.ahead.length
  · rw [Nat.min_eq_left hn.le, List.getElem?_append_left hn, List.getElem?_eq_getElem hn,
      List.drop_eq_getElem_cons hn]
    rfl
  · rw [Nat.min_eq_right (by omega), List.drop_eq_nil_of_le (by omega)]
    simp

theorem ReadsField.moveTo_eq {p q : Nat} {consumed : List Token} {s : Span}
    (h : (r.skip p).ReadsField (r.skip q) consumed s) :
    (r.skip p).moveTo (r.skip q).ahead = r.skip q := by
  have hpassed := h.passed_eq
  have hlength := congrArg List.length h.ahead_eq
  rw [List.length_append] at hlength
  have hposition : (r.skip p).passed + ((r.skip p).ahead.length - (r.skip q).ahead.length) =
      (r.skip q).passed := by omega
  simp only [moveTo, hposition]
  rfl

theorem skip_add {p : Nat} {consumed rest : List Token}
    (hahead : (r.skip p).ahead = consumed ++ rest) (hne : consumed ≠ []) :
    (r.skip p).moveTo rest = r.skip (p + consumed.length) := by
  have hpos := List.length_pos_of_ne_nil hne
  have hlength := congrArg List.length hahead
  have hdrop : r.ahead.drop (p + consumed.length) = rest := by
    rw [← List.drop_drop]
    exact (congrArg (List.drop consumed.length) hahead).trans List.drop_left
  simp only [skip, moveTo, List.length_append, List.length_drop] at hlength ⊢
  rw [hdrop]
  have hpassed : r.passed + (r.ahead.length - (r.ahead.length - p)) +
      (r.ahead.length - p - rest.length) =
        r.passed + (r.ahead.length - (r.ahead.length - (p + consumed.length))) := by omega
  rw [hpassed]

end Positions

/-- From any position of the tokens, a field is read exactly if the loop comes to a later position,
before a comma or the end of the line, with all brackets closed. So the check that nothing follows
the fields always passes, and no reading of a line ends with its fault. -/
theorem field_exits {text : String} {tokens : List Token} {r : LineReader}
    (hr : ofTokens? text tokens = some r) (hend : ∀ t ∈ tokens.getLast?, t.kind = .endOfLine)
    (variant : String) (p : Nat) :
    (∀ n, (r.skip n).passed = min n (tokens.length - 1) ∧
      tokens[(r.skip n).passed]? = some (r.skip n).current ∧ (r.skip n).text = text) ∧
    (∀ s rest, field r.final variant (r.skip p).ahead = .ok s rest ↔
      ∃ q consumed, (r.skip q).ahead = rest ∧ (r.skip p).ReadsField (r.skip q) consumed s) ∧
    (∀ spans rest, fields r.final variant (r.skip p).ahead = .ok spans rest →
      lineEnd variant rest = .ok () rest) ∧
    ∀ e, (r.skip p).read.1 = .error e → ∀ found v, e.cause ≠ .trailing found v := by
  obtain ⟨htokens, -, htext⟩ := tokens_of_ofTokens? hr
  have hfinal : (r.skip p).final.kind = .endOfLine := hend r.final (by rw [htokens]; simp)
  refine ⟨?_, ?_, ?_, ?_⟩
  · intro n
    exact ⟨(skip_position hr n).1, (skip_position hr n).2, htext⟩
  · intro s rest
    have hfield : field r.final variant (r.skip p).ahead = .ok s rest ↔
        ∃ consumed, (r.skip p).ReadsField ((r.skip p).moveTo rest) consumed s :=
      field_eq_ok_iff_readsField hfinal
    constructor
    · intro h
      obtain ⟨consumed, hreads⟩ := hfield.mp h
      have hskip := skip_add hreads.ahead_eq hreads.ne_nil
      refine ⟨p + consumed.length, consumed, ?_, ?_⟩
      · rw [← hskip]
        rfl
      · rw [← hskip]
        exact hreads
    · intro ⟨q, consumed, hrest, hreads⟩
      apply hfield.mpr
      refine ⟨consumed, ?_⟩
      rw [← hrest, hreads.moveTo_eq]
      exact hreads
  · intro spans rest h
    obtain ⟨listed, -, -, hends⟩ := fields_eq_ok_iff.mp h
    exact lineEnd_of_ends hends
  · intro e he found v hcause
    obtain ⟨rest, ho⟩ := (read_eq_error_iff _).mp he
    rcases outline_error_cases ho with ⟨place, rfl, -⟩ | ⟨t, -, -, -, rfl⟩ |
      ⟨-, -, w, -, -, place, cause, rfl, hconcerns⟩
    · simp [Fault.located] at hcause
    · simp [Fault.located] at hcause
    · obtain rfl : cause = .trailing found v := hcause
      cases hconcerns

/-- A comma in brackets and an arrow belong to a field, which ends at the next comma. -/
theorem field_exits_arrow :
    let tokens : List Token := [⟨.word "A", ⟨1, 1⟩, ⟨0, 1⟩⟩, ⟨.pipe, ⟨1, 2⟩, ⟨1, 2⟩⟩,
      ⟨.word "F", ⟨1, 3⟩, ⟨2, 3⟩⟩, ⟨.opener '(', ⟨1, 4⟩, ⟨3, 4⟩⟩, ⟨.comma, ⟨1, 5⟩, ⟨4, 5⟩⟩,
      ⟨.word "é", ⟨1, 6⟩, ⟨5, 7⟩⟩, ⟨.closer ')', ⟨1, 7⟩, ⟨7, 8⟩⟩, ⟨.arrow, ⟨1, 8⟩, ⟨8, 10⟩⟩,
      ⟨.word "C", ⟨1, 10⟩, ⟨10, 11⟩⟩, ⟨.comma, ⟨1, 11⟩, ⟨11, 12⟩⟩,
      ⟨.closer '>', ⟨1, 12⟩, ⟨12, 13⟩⟩, ⟨.endOfLine, ⟨1, 13⟩, ⟨13, 13⟩⟩,
      ⟨.pipe, ⟨1, 2⟩, ⟨1, 2⟩⟩, ⟨.endOfLine, ⟨1, 13⟩, ⟨13, 13⟩⟩]
    ∃ r, ofTokens? "A|F(,é)->C,>" tokens = some r ∧
      (∀ t ∈ tokens.getLast?, t.kind = .endOfLine) ∧
      field r.final "A" (r.skip 2).ahead = .ok ⟨2, 11⟩ (r.skip 9).ahead ∧
      (∃ q consumed, (r.skip q).ahead = (r.skip 9).ahead ∧
        (r.skip 2).ReadsField (r.skip q) consumed ⟨2, 11⟩) ∧
      Span.text ⟨2, 11⟩ "A|F(,é)->C,>" = "F(,é)->C" ∧
      (r.skip 0).read.1 = .error (.located ⟨1, 12⟩ (.unmatched '>' "A")) ∧
      ∀ p e, (r.skip p).read.1 = .error e → ∀ found v, e.cause ≠ .trailing found v := by
  intro tokens
  have hend : ∀ t ∈ tokens.getLast?, t.kind = .endOfLine := by decide
  have hr : ofTokens? "A|F(,é)->C,>" tokens = some ⟨"A|F(,é)->C,>",
      ⟨.endOfLine, ⟨1, 13⟩, ⟨13, 13⟩⟩, 0, tokens.dropLast⟩ := rfl
  refine ⟨_, hr, hend, ?_⟩
  set r : LineReader := ⟨"A|F(,é)->C,>", ⟨.endOfLine, ⟨1, 13⟩, ⟨13, 13⟩⟩, 0, tokens.dropLast⟩
  have hfield : field r.final "A" (r.skip 2).ahead = .ok ⟨2, 11⟩ (r.skip 9).ahead := rfl
  refine ⟨hfield, ((field_exits hr hend "A" 2).2.1 _ _).mp hfield, by decide +kernel,
    by decide +kernel, ?_⟩
  intro p
  exact (field_exits hr hend "A" p).2.2.2

end LineReader

end TaggedUnion
