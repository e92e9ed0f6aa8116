import TaggedUnion.Proofs.Line.Positions
import TaggedUnion.Proofs.Line.TokenPlaces

/-!
# Reading by position

A second way to read a line. All tokens are in one list, the end of the line among them, and are
looked up by position; the text of a field is cut out of the line at two byte positions; and a loop
goes round at most as often as there are tokens. Each of these steps can fail: there may be no token
at a position, a byte position may lie inside a character or behind the line, and the rounds may not
be enough. A reading that fails has no result, not even a fault.

No reading of a line fails, and its result is that of reading the tokens that are ahead. The two are
compared part by part: a guarded reader mirrors a reader of the grammar if it finds the same from
every position, and what is put together from readers that mirror each other does so, too.
-/

namespace TaggedUnion

open Text

namespace Text

/-- The byte position lies between two characters, or at an end of the text. -/
def IsBoundary (n : Nat) (cs : List Char) : Prop :=
  ∃ a b, cs = a ++ b ∧ byteLength a = n

/-- Counts bytes off, a whole character at a time. -/
def onBoundary : Nat → List Char → Bool
  | 0, _ => true
  | _ + 1, [] => false
  | n + 1, c :: cs => c.utf8Size ≤ n + 1 && onBoundary (n + 1 - c.utf8Size) cs

theorem onBoundary_iff {n : Nat} {cs : List Char} : onBoundary n cs = true ↔ IsBoundary n cs := by
  fun_induction onBoundary n cs with
  | case1 cs => exact iff_of_true rfl ⟨[], cs, rfl, rfl⟩
  | case2 n =>
      refine iff_of_false (by simp) ?_
      rintro ⟨a, b, hab, hn⟩
      obtain ⟨rfl, rfl⟩ := List.append_eq_nil_iff.mp hab.symm
      simp [byteLength] at hn
  | case3 n c cs ih =>
      rw [Bool.and_eq_true, decide_eq_true_eq, ih]
      constructor
      · rintro ⟨hc, a, b, rfl, ha⟩
        refine ⟨c :: a, b, rfl, ?_⟩
        simp only [byteLength]
        omega
      · rintro ⟨a, b, hab, ha⟩
        cases a with
        | nil => simp [byteLength] at ha
        | cons d a =>
            obtain ⟨rfl, rfl⟩ := List.cons.inj hab
            simp only [byteLength] at ha
            exact ⟨by omega, a, b, rfl, by omega⟩

instance (n : Nat) (cs : List Char) : Decidable (IsBoundary n cs) :=
  decidable_of_iff _ onBoundary_iff

/-- The characters between two byte positions, if they are positions of the text and in order. -/
def slice? (start stop : Nat) (cs : List Char) : Option (List Char) :=
  if start ≤ stop ∧ IsBoundary start cs ∧ IsBoundary stop cs then some (cut start stop cs)
  else none

end Text

/-- The text of a field. A field has at least one byte. -/
def Span.text? (s : Span) (line : String) : Option String :=
  if s.start < s.stop then (slice? s.start s.stop line.toList).map String.ofList else none

namespace Guarded

open Grammar

abbrev Reader := ExceptT Fault (StateT Nat Option)

section Steps
variable {α : Type}

def stuck : Reader α := fun _ => none

def ofOption (x : Option α) : Reader α := fun i => x.map fun a => (.ok a, i)

def look (tokens : List Token) : Reader Token := fun i => (tokens[i]?).map fun t => (.ok t, i)

def step : Reader Unit := fun i => some (.ok (), i + 1)

/-- What a reader has found, without what it leaves ahead. -/
def verdict {β : Type} (f : α → β) : EStateM.Result Fault (List Token) α → Except Fault β
  | .ok a _ => .ok (f a)
  | .error e _ => .error e

/-- Gives a reader the token at the position and nothing else. -/
def one (tokens : List Token) (r : Token → Grammar.Reader α) : Reader α := do
  let t ← look tokens
  fun i => some (verdict id (r t [t]), i + 1 - (left (r t [t])).length)

end Steps

def fieldRest (tokens : List Token) (variant : String) : Nat → Nat → List Opening → Reader Nat
  | 0, _, _ => stuck
  | rounds + 1, stop, openings => do
    let t ← look tokens
    if (pass (bracketsOf openings) t.kind).isSome then
      step
      fieldRest tokens variant rounds t.span.stop (track openings t)
    else one tokens fun _ => Grammar.fieldRest variant stop openings

def field (tokens : List Token) (text variant : String) : Reader String := do
  let t ← look tokens
  if t.kind = .comma ∨ t.kind = .endOfLine then
    throw (.located t.place (.emptyField variant))
  else
    let stop ← fieldRest tokens variant tokens.length t.span.start []
    ofOption (Span.text? ⟨t.span.start, stop⟩ text)

def fields (tokens : List Token) (text variant : String) : Nat → Reader (List String)
  | 0 => stuck
  | rounds + 1 => do
    let first ← field tokens text variant
    let t ← look tokens
    if t.kind = .comma then
      step
      let more ← fields tokens text variant rounds
      return first :: more
    else return [first]

def nodeLine (tokens : List Token) (text : String) : Reader Variant := do
  let name ← one tokens Grammar.name
  one tokens (Grammar.delimiter · name)
  let texts ← fields tokens text name tokens.length
  one tokens fun _ => Grammar.lineEnd name
  return ⟨name, texts⟩

def parse (line : Nat) (text : String) : Option (Except Fault Variant) :=
  (nodeLine (Scanner.start line text).scan.1 text 0).map (·.1)

section Binding
variable {α β : Type} {x : Reader α} {i j : Nat}

theorem bind_of_ok {a : α} (h : x i = some (.ok a, j)) (k : α → Reader β) :
    (x >>= k) i = k a j := by
  change (x i).bind _ = _
  rw [h]
  rfl

theorem bind_of_error {e : Fault} (h : x i = some (.error e, j)) (k : α → Reader β) :
    (x >>= k) i = some (.error e, j) := by
  change (x i).bind _ = _
  rw [h]
  rfl

theorem look_bind {tokens : List Token} {t : Token} (h : tokens[i]? = some t)
    (k : Token → Reader β) : (look tokens >>= k) i = k t i := by
  apply bind_of_ok
  rw [look, h]
  rfl

theorem one_eq {tokens : List Token} {t : Token} (h : tokens[i]? = some t)
    (r : Token → Grammar.Reader α) :
    one tokens r i = some (verdict id (r t [t]), i + 1 - (left (r t [t])).length) :=
  look_bind h _

end Binding

section Mirroring
variable {α β γ δ : Type} {all before ahead ts : List Token} {final t : Token}

def extend (ts : List Token) :
    EStateM.Result Fault (List Token) α → EStateM.Result Fault (List Token) α
  | .ok a rest => .ok a (rest ++ ts)
  | .error e rest => .error e (rest ++ ts)

theorem left_extend (ts : List Token) (x : EStateM.Result Fault (List Token) α) :
    left (extend ts x) = left x ++ ts := by
  cases x <;> rfl

theorem verdict_extend (f : α → β) (ts : List Token) (x : EStateM.Result Fault (List Token) α) :
    verdict f (extend ts x) = verdict f x := by
  cases x <;> rfl

/-- From any position, reading by position finds what a reader finds in the tokens from there on,
and ends before the tokens that the reader leaves ahead. -/
def Mirrors (all : List Token) (f : α → β) (g : Reader β) (r : Grammar.Reader α) : Prop :=
  ∀ before ahead, all = before ++ ahead →
    g before.length = some (verdict f (r ahead), all.length - (left (r ahead)).length)

theorem position_eq (hall : all = before ++ ahead) : all.length - ahead.length = before.length := by
  rw [hall, List.length_append]
  omega

theorem exists_before {rest : List Token} (hall : all = before ++ ahead) (h : Remains ahead rest) :
    ∃ before', all = before' ++ rest ∧ all.length - rest.length = before'.length := by
  obtain ⟨passed, rfl, -⟩ := h
  have hall' : all = (before ++ passed) ++ rest := by rw [hall, List.append_assoc]
  exact ⟨before ++ passed, hall', position_eq hall'⟩

/-- What comes second is read from the position where the first has ended. -/
theorem Mirrors.bind {f : α → β} {f' : γ → δ} {g : Reader β} {r : Grammar.Reader α}
    {k : β → Reader δ} {s : α → Grammar.Reader γ} (hg : Mirrors all f g r) (hr : StopsAtEnd r)
    (hk : ∀ a, Mirrors all f' (k (f a)) (s a)) : Mirrors all f' (g >>= k) (r >>= s) := by
  intro before ahead hall
  have hfirst := hg before ahead hall
  obtain ⟨before', hall', hposition⟩ := exists_before hall (hr ahead)
  simp only [Bind.bind, EStateM.bind]
  cases hresult : r ahead with
  | error e rest =>
      rw [hresult] at hfirst
      exact bind_of_error hfirst k
  | ok a rest =>
      rw [hresult] at hfirst hall' hposition
      have hsecond := hk a before' rest hall'
      rw [← hposition] at hsecond
      exact (bind_of_ok hfirst k).trans hsecond

theorem Mirrors.pure (f : α → β) (a : α) :
    Mirrors all f (Pure.pure (f a)) (Pure.pure a) := by
  intro before ahead hall
  change some (Except.ok (f a), before.length) = some (.ok (f a), all.length - ahead.length)
  rw [position_eq hall]

theorem getElem?_final (before : List Token) (final : Token) :
    (before ++ [final])[before.length]? = some final := by
  simp

theorem getElem?_ahead (before : List Token) (t : Token) (ts more : List Token) :
    (before ++ t :: ts ++ more)[before.length]? = some t := by
  simp

/-- A reader that looks at no more than one token. At the end of the line it looks at the token
that stands for it. -/
structure LooksAtOne (final : Token) (r : Token → Grammar.Reader α) : Prop where
  stops : ∀ t, StopsAtEnd (r t)
  cons : ∀ t ts, r final (t :: ts) = extend ts (r t [t])
  nil : r final [final] = extend [final] (r final [])

/-- One token decides what a reader does at a position. -/
theorem one_of_extend {r : Token → Grammar.Reader α} (hall : all = before ++ t :: ts)
    (hstops : StopsAtEnd (r t)) (h : r final (t :: ts) = extend ts (r t [t])) :
    one (all ++ [final]) r before.length =
      some (verdict id (r final (t :: ts)), all.length - (left (r final (t :: ts))).length) := by
  have hlength := (hstops [t]).length_le
  rw [one_eq (by rw [hall, getElem?_ahead]), h, verdict_extend, left_extend]
  rw [List.length_singleton] at hlength
  have hposition : before.length + 1 - (left (r t [t])).length =
      all.length - (left (r t [t]) ++ ts).length := by
    rw [hall]
    simp only [List.length_append, List.length_cons]
    omega
  rw [hposition]

/-- So does the end of the line. -/
theorem one_of_end {r : Token → Grammar.Reader α} (hstops : StopsAtEnd (r final))
    (h : r final [final] = extend [final] (r final [])) :
    one (all ++ [final]) r all.length =
      some (verdict id (r final []), all.length - (left (r final [])).length) := by
  have hlength := (hstops []).length_le
  rw [one_eq (getElem?_final all final), h, verdict_extend, left_extend]
  have hposition : all.length + 1 - (left (r final []) ++ [final]).length =
      all.length - (left (r final [])).length := by
    rw [List.length_append, List.length_singleton]
    omega
  rw [hposition]

theorem LooksAtOne.mirrors {r : Token → Grammar.Reader α} (h : LooksAtOne final r) :
    Mirrors all id (one (all ++ [final]) r) (r final) := by
  intro before ahead hall
  cases ahead with
  | nil =>
      rw [List.append_nil] at hall
      subst hall
      exact one_of_end (h.stops final) h.nil
  | cons t ts => exact one_of_extend hall (h.stops t) (h.cons t ts)

theorem looksAtOne_name (hfinal : final.kind = .endOfLine) : LooksAtOne final Grammar.name where
  stops t := stopsAtEnd_name t
  cons t ts := by
    rw [Grammar.name, Grammar.name]
    cases t.kind <;> rfl
  nil := by
    rw [Grammar.name, Grammar.name, hfinal]
    rfl

theorem looksAtOne_delimiter (hfinal : final.kind = .endOfLine) (variant : String) :
    LooksAtOne final (Grammar.delimiter · variant) where
  stops t := stopsAtEnd_delimiter t variant
  cons t ts := by
    rw [Grammar.delimiter, Grammar.delimiter]
    cases t.kind <;> rfl
  nil := by
    rw [Grammar.delimiter, Grammar.delimiter, hfinal]
    rfl

theorem looksAtOne_lineEnd (hfinal : final.kind = .endOfLine) (variant : String) :
    LooksAtOne final (fun _ => Grammar.lineEnd variant) where
  stops _ := stopsAtEnd_lineEnd variant
  cons t ts := by
    rw [Grammar.lineEnd, Grammar.lineEnd]
    cases t.kind <;> rfl
  nil := by
    rw [Grammar.lineEnd, Grammar.lineEnd, hfinal]
    rfl

theorem extend_fieldEnd (variant : String) (stop : Nat) (openings : List Opening)
    (us ts : List Token) :
    fieldEnd variant stop openings (us ++ ts) = extend ts (fieldEnd variant stop openings us) := by
  cases openings <;> rfl

/-- Where a field stops, the token alone decides how. -/
theorem fieldRest_extend {variant : String} {stop : Nat} {openings : List Opening}
    (h : pass (bracketsOf openings) t.kind = none) (ts : List Token) :
    Grammar.fieldRest variant stop openings (t :: ts) =
      extend ts (Grammar.fieldRest variant stop openings [t]) := by
  have halone := fieldRest_of_not_pass variant stop [] h
  rcases fieldRest_of_not_pass variant stop ts h with
    ⟨hk, -, hr⟩ | ⟨hk, hr⟩ | ⟨hk, hr⟩ | ⟨c, hk, hr⟩
  · have hstops : openings = [] ∧ Grammar.fieldRest variant stop openings [t] = .ok stop [t] := by
      simpa [hk] using halone
    rw [hr, hstops.2]
    rfl
  · have hends : Grammar.fieldRest variant stop openings [t] =
        fieldEnd variant stop openings [t] := by
      simpa [hk] using halone
    rw [hr, hends]
    exact extend_fieldEnd variant stop openings [t] ts
  · have hstray : Grammar.fieldRest variant stop openings [t] =
        .error (.located t.place (.strayPipe variant)) [t] := by
      simpa [hk] using halone
    rw [hr, hstray]
    rfl
  · have hunmatched : Grammar.fieldRest variant stop openings [t] =
        .error (.located t.place (.unmatched c variant)) [t] := by
      simpa [hk] using halone
    rw [hr, hunmatched]
    rfl

theorem mirrors_fieldRest (hfinal : final.kind = .endOfLine) (variant : String) {rounds : Nat}
    (stop : Nat) (openings : List Opening) (hall : all = before ++ ahead)
    (hrounds : ahead.length < rounds) :
    fieldRest (all ++ [final]) variant rounds stop openings before.length =
      some (verdict id (Grammar.fieldRest variant stop openings ahead),
        all.length - (left (Grammar.fieldRest variant stop openings ahead)).length) := by
  induction ahead generalizing before rounds stop openings with
  | nil =>
      obtain ⟨rounds, rfl⟩ := Nat.exists_eq_succ_of_ne_zero (Nat.ne_zero_of_lt hrounds)
      rw [List.append_nil] at hall
      subst hall
      have hstop : pass (bracketsOf openings) final.kind = none := by rw [hfinal]; rfl
      rw [fieldRest, look_bind (getElem?_final all final), hstop]
      apply one_of_end (stopsAtEnd_fieldRest variant stop openings)
      have hend : Grammar.fieldRest variant stop openings [final] =
          fieldEnd variant stop openings [final] := by
        simp only [Grammar.fieldRest, hfinal]
      exact hend.trans (extend_fieldEnd variant stop openings [] [final])
  | cons t ts ih =>
      obtain ⟨rounds, rfl⟩ := Nat.exists_eq_succ_of_ne_zero (Nat.ne_zero_of_lt hrounds)
      have ht : (all ++ [final])[before.length]? = some t := by rw [hall, getElem?_ahead]
      rw [fieldRest, look_bind ht]
      cases hpass : pass (bracketsOf openings) t.kind with
      | none =>
          exact one_of_extend hall (stopsAtEnd_fieldRest variant stop openings)
            (fieldRest_extend hpass ts)
      | some brackets =>
          rw [fieldRest_of_pass ts hpass]
          have hall' : all = (before ++ [t]) ++ ts := by rw [hall, List.append_assoc]; rfl
          have hnext := ih t.span.stop (track openings t) hall' (Nat.lt_of_succ_lt_succ hrounds)
          rw [List.length_append] at hnext
          exact hnext

end Mirroring

section Lines
variable {line : Nat} {text : String}

/-- A token starts and ends between characters, and has at least one. -/
theorem span_of_mem_tokens {t : Token} (h : t ∈ (Scanner.start line text).tokens) :
    t.span.start < t.span.stop ∧ IsBoundary t.span.start text.toList ∧
      IsBoundary t.span.stop text.toList := by
  obtain ⟨before, slice, after, hstands⟩ := Scanner.exists_standsFor h
  have hpos : byteLength slice ≠ 0 := fun hzero => hstands.slice_ne_nil (byteLength_eq_zero hzero)
  rw [hstands.span_eq]
  refine ⟨?_, ⟨before, slice ++ after, by simp [hstands.text_eq], rfl⟩,
    ⟨before ++ slice, after, hstands.text_eq, byteLength_append before slice⟩⟩
  dsimp only
  omega

theorem cover_of_infix {body : List Token} (hne : body ≠ [])
    (h : body <:+: (Scanner.start line text).tokens) :
    (Token.cover body).start < (Token.cover body).stop ∧
      IsBoundary (Token.cover body).start text.toList ∧
        IsBoundary (Token.cover body).stop text.toList := by
  obtain ⟨t, ts, rfl⟩ := List.exists_cons_of_ne_nil hne
  obtain ⟨hproper, hstart, hstop⟩ := span_of_mem_tokens (h.mem List.mem_cons_self)
  rcases List.eq_nil_or_concat ts with rfl | ⟨us, u, rfl⟩
  · exact ⟨hproper, hstart, hstop⟩
  · -- the last token decides where the range stops, and it comes behind the first
    have hlast : (Token.cover (t :: us.concat u)).stop = u.span.stop := by
      rw [List.concat_eq_append]
      exact Token.reach_append_singleton t.span.stop us u
    obtain ⟨hproper', -, hstop'⟩ := span_of_mem_tokens (h.mem (a := u) (by simp))
    have hpairwise := (Scanner.pairwise_locate _ _).sublist h.sublist
    have horder : t.span.stop ≤ u.span.start :=
      (List.pairwise_cons.mp hpairwise).1 u (by simp)
    rw [hlast]
    refine ⟨?_, hstart, hstop'⟩
    change t.span.start < u.span.stop
    omega

theorem span_of_field {variant : String} {before ahead rest : List Token} {s : Span}
    (hall : (Scanner.start line text).tokens = before ++ ahead)
    (h : Grammar.field (Scanner.start line text).final variant ahead = .ok s rest) :
    s.start < s.stop ∧ IsBoundary s.start text.toList ∧ IsBoundary s.stop text.toList := by
  obtain ⟨body, rfl, hbody, -, rfl⟩ := field_eq_ok_iff.mp h
  exact cover_of_infix hbody.ne_nil ⟨before, rest, by rw [hall, List.append_assoc]⟩

theorem text?_of_field {variant : String} {before ahead rest : List Token} {s : Span}
    (hall : (Scanner.start line text).tokens = before ++ ahead)
    (h : Grammar.field (Scanner.start line text).final variant ahead = .ok s rest) :
    s.text? text = some (s.text text) := by
  obtain ⟨hproper, hstart, hstop⟩ := span_of_field hall h
  rw [Span.text?, if_pos hproper, slice?, if_pos ⟨hproper.le, hstart, hstop⟩]
  rfl

theorem kind_final (line : Nat) (text : String) :
    (Scanner.start line text).final.kind = .endOfLine := rfl

/-- A field that is not empty from the start is read as far as reading on in it leads. -/
theorem field_cases {t : Token} (final : Token) (variant : String) (ts : List Token)
    (hempty : ¬ (t.kind = .comma ∨ t.kind = .endOfLine)) :
    (∃ e rest, Grammar.fieldRest variant t.span.start [] (t :: ts) = .error e rest ∧
      Grammar.field final variant (t :: ts) = .error e rest) ∨
    ∃ stop rest, Grammar.fieldRest variant t.span.start [] (t :: ts) = .ok stop rest ∧
      Grammar.field final variant (t :: ts) = .ok ⟨t.span.start, stop⟩ rest := by
  rw [Grammar.field]
  cases hk : t.kind with
  | comma => exact absurd (.inl hk) hempty
  | endOfLine => exact absurd (.inr hk) hempty
  | _ =>
      cases Grammar.fieldRest variant t.span.start [] (t :: ts) with
      | error e rest => exact .inl ⟨e, rest, rfl, rfl⟩
      | ok stop rest => exact .inr ⟨stop, rest, rfl, rfl⟩

theorem mirrors_field (line : Nat) (text variant : String) :
    let s := Scanner.start line text
    Mirrors s.tokens (·.text text) (field (s.tokens ++ [s.final]) text variant)
      (Grammar.field s.final variant) := by
  intro s before ahead hall
  cases ahead with
  | nil =>
      rw [List.append_nil] at hall
      rw [← hall, field, look_bind (getElem?_final _ _), if_pos (.inr (kind_final line text))]
      rfl
  | cons t ts =>
      have ht : (s.tokens ++ [s.final])[before.length]? = some t := by rw [hall, getElem?_ahead]
      rw [field, look_bind ht]
      by_cases hempty : t.kind = .comma ∨ t.kind = .endOfLine
      · have hfault : Grammar.field s.final variant (t :: ts) =
            .error (.located t.place (.emptyField variant)) (t :: ts) := by
          rw [Grammar.field]
          rcases hempty with hk | hk <;> simp [hk]
        rw [if_pos hempty, hfault, left, position_eq hall]
        rfl
      · have hrounds : (t :: ts).length < (s.tokens ++ [s.final]).length := by
          rw [hall]
          simp only [List.length_append, List.length_singleton]
          omega
        have hrest := mirrors_fieldRest (kind_final line text) variant t.span.start [] hall hrounds
        rw [if_neg hempty]
        rcases field_cases s.final variant ts hempty with
          ⟨e, rest, hresult, hfield⟩ | ⟨stop, rest, hresult, hfield⟩
        · rw [hresult] at hrest
          rw [bind_of_error hrest, hfield]
          rfl
        · rw [hresult] at hrest
          rw [bind_of_ok hrest, hfield, ofOption, id_eq, text?_of_field hall hfield]
          rfl

theorem mirrors_fields (line : Nat) (text variant : String) {rounds : Nat}
    {before ahead : List Token} (hall : (Scanner.start line text).tokens = before ++ ahead)
    (hrounds : ahead.length < rounds) :
    let s := Scanner.start line text
    fields (s.tokens ++ [s.final]) text variant rounds before.length =
      some (verdict (·.map (·.text text)) (Grammar.fields s.final variant ahead),
        s.tokens.length - (left (Grammar.fields s.final variant ahead)).length) := by
  intro s
  induction hn : ahead.length using Nat.strong_induction_on generalizing before ahead rounds with
  | h n ih =>
      obtain ⟨rounds, rfl⟩ := Nat.exists_eq_succ_of_ne_zero (Nat.ne_zero_of_lt hrounds)
      have hfirst := mirrors_field line text variant before ahead hall
      obtain ⟨before', hall', hposition⟩ :=
        exists_before hall (stopsAtEnd_field s.final variant ahead)
      rw [fields]
      cases hf : Grammar.field s.final variant ahead with
      | error e rest =>
          rw [hf] at hfirst
          rw [bind_of_error hfirst, fields_of_error hf]
          rfl
      | ok span rest =>
          rw [hf] at hfirst hall' hposition
          have hshorter := field_length_lt hf
          rw [bind_of_ok hfirst, hposition]
          rw [left] at hall'
          cases rest with
          | nil =>
              rw [List.append_nil] at hall'
              rw [← hall', look_bind (getElem?_final _ _), kind_final, if_neg (by simp),
                fields_of_stop hf (by simp)]
              rfl
          | cons u us =>
              have hu : (s.tokens ++ [s.final])[before'.length]? = some u := by
                rw [hall', getElem?_ahead]
              rw [look_bind hu]
              by_cases hk : u.kind = .comma
              · rw [List.length_cons] at hshorter
                have hall'' : s.tokens = (before' ++ [u]) ++ us := by
                  rw [hall', List.append_assoc]
                  rfl
                have hrounds' : us.length < rounds := by omega
                have hmore := ih us.length (by omega) hall'' hrounds' rfl
                rw [List.length_append, List.length_singleton] at hmore
                rw [if_pos hk, fields_of_comma hf hk]
                cases hresult : Grammar.fields s.final variant us with
                | error e rest =>
                    rw [hresult] at hmore
                    exact bind_of_error hmore _
                | ok more rest =>
                    rw [hresult] at hmore
                    exact bind_of_ok hmore _
              · rw [if_neg hk, fields_of_stop hf (by simpa using hk), left, position_eq hall']
                rfl

theorem mirrors_nodeLine (line : Nat) (text : String) :
    let s := Scanner.start line text
    Mirrors s.tokens (·.variant text) (nodeLine s.scan.1 text) (Grammar.outline s.final) := by
  intro s
  have hfinal : s.final.kind = .endOfLine := kind_final line text
  refine (looksAtOne_name hfinal).mirrors.bind (stopsAtEnd_name _) fun name => ?_
  refine (looksAtOne_delimiter hfinal name).mirrors.bind (stopsAtEnd_delimiter _ name) fun _ => ?_
  have hfields : Mirrors s.tokens (·.map (·.text text))
      (fields s.scan.1 text name s.scan.1.length) (Grammar.fields s.final name) := by
    intro before ahead hall
    apply mirrors_fields line text name hall
    have hlength := congrArg List.length hall
    rw [List.length_append] at hlength
    rw [Scanner.scan, List.length_append, List.length_singleton]
    omega
  refine hfields.bind (stopsAtEnd_fields _ name) fun spans => ?_
  refine (looksAtOne_lineEnd hfinal name).mirrors.bind (stopsAtEnd_lineEnd name) fun _ => ?_
  exact Mirrors.pure _ (⟨name, spans⟩ : Outline)

/-- Reading a line by position never fails, and finds what reading the line finds. -/
theorem parse_eq (line : Nat) (text : String) :
    parse line text = some (Variant.parse line text) := by
  have hread := mirrors_nodeLine line text [] (Scanner.start line text).tokens rfl
  rw [List.length_nil] at hread
  rw [parse, hread, Variant.parse, LineReader.read, LineReader.start]
  dsimp only
  cases Grammar.outline (Scanner.start line text).final (Scanner.start line text).tokens <;> rfl

end Lines

end Guarded

end TaggedUnion
