import TaggedUnion.Line.Variant
import TaggedUnion.Proofs.Line.Brackets
import TaggedUnion.Proofs.Line.Scanning

/-!
# Reading fields

A reader passes the tokens of a field one by one and stops at the first that the open brackets do
not pass. What it does there, and with nothing ahead, is all that decides about the field. From
this follow exact conditions for reading one field, the fields of a line, and the whole line.
-/

namespace TaggedUnion.Grammar

/-- The kinds of open brackets, without their places. -/
def bracketsOf (openings : List Opening) : List Char :=
  openings.map (·.bracket)

/-- The open brackets behind one more token, with their places. -/
def track (openings : List Opening) (t : Token) : List Opening :=
  match t.kind with
  | .opener c => ⟨c, t.place⟩ :: openings
  | .closer _ => openings.tail
  | _ => openings

def trackAll (openings : List Opening) (ts : List Token) : List Opening :=
  ts.foldl track openings

/-- The tokens ahead do not go on with a field. -/
def Stops (ts : List Token) : Prop :=
  ∀ t ∈ ts.head?, t.kind = .comma ∨ t.kind = .endOfLine

theorem bracketsOf_eq_nil {openings : List Opening} : bracketsOf openings = [] ↔ openings = [] :=
  List.map_eq_nil_iff

theorem track_of_plain {t : Token} (openings : List Opening) (ho : t.kind.isOpener = false)
    (hc : t.kind.isCloser = false) : track openings t = openings := by
  cases hk : t.kind with
  | opener c => simp [hk, Token.Kind.isOpener] at ho
  | closer c => simp [hk, Token.Kind.isCloser] at hc
  | _ => simp only [track, hk]

theorem bracketsOf_track {openings : List Opening} {t : Token} {brackets : List Char}
    (h : pass (bracketsOf openings) t.kind = some brackets) :
    bracketsOf (track openings t) = brackets := by
  obtain ⟨c, hk, rfl⟩ | ⟨o, c, hk, -, hb⟩ | ⟨ho, hc, -, -, rfl⟩ := pass_cases h
  · rw [track, hk]
    rfl
  · rw [track, hk, bracketsOf, List.map_tail]
    exact congrArg List.tail hb
  · rw [track_of_plain openings ho hc]

theorem bracketsOf_trackAll {openings : List Opening} {ts : List Token} {brackets : List Char}
    (h : passAll (bracketsOf openings) (ts.map (·.kind)) = some brackets) :
    bracketsOf (trackAll openings ts) = brackets := by
  induction ts generalizing openings with
  | nil => exact Option.some.inj h
  | cons t ts ih =>
      obtain ⟨mid, ht, hts⟩ := Option.bind_eq_some_iff.mp h
      rw [← bracketsOf_track ht] at hts
      exact ih hts

/-- A token that the open brackets pass is passed. -/
theorem fieldRest_of_pass {variant : String} {stop : Nat} {openings : List Opening} {t : Token}
    {brackets : List Char} (ts : List Token)
    (h : pass (bracketsOf openings) t.kind = some brackets) :
    fieldRest variant stop openings (t :: ts) =
      fieldRest variant t.span.stop (track openings t) ts := by
  rw [fieldRest]
  cases hk : t.kind with
  | opener c => simp [track, hk]
  | closer c =>
      have hcloses : closes openings c = true := by
        cases openings with
        | nil => simp [hk, bracketsOf, pass] at h
        | cons o os =>
            simp only [hk, bracketsOf, List.map_cons, pass] at h
            split_ifs at h with hoc
            simpa [closes] using hoc
      simp [hcloses, track, hk]
  | comma =>
      have hne : openings ≠ [] := by
        rintro rfl
        simp [hk, bracketsOf, pass] at h
      simp [hne, track, hk]
  | pipe => simp [hk, pass] at h
  | endOfLine => simp [hk, pass] at h
  | word w => simp [track, hk]
  | arrow => simp [track, hk]
  | symbol c => simp [track, hk]

/-- What a reader does at a token that the open brackets do not pass. -/
theorem fieldRest_of_not_pass (variant : String) (stop : Nat) {openings : List Opening}
    {t : Token} (ts : List Token) (h : pass (bracketsOf openings) t.kind = none) :
    (t.kind = .comma ∧ openings = [] ∧
        fieldRest variant stop openings (t :: ts) = .ok stop (t :: ts)) ∨
      (t.kind = .endOfLine ∧
        fieldRest variant stop openings (t :: ts) = fieldEnd variant stop openings (t :: ts)) ∨
      (t.kind = .pipe ∧ fieldRest variant stop openings (t :: ts) =
        .error (.located t.place (.strayPipe variant)) (t :: ts)) ∨
      (∃ c, t.kind = .closer c ∧ fieldRest variant stop openings (t :: ts) =
        .error (.located t.place (.unmatched c variant)) (t :: ts)) := by
  rw [fieldRest]
  cases hk : t.kind with
  | opener c => simp [hk, pass] at h
  | closer c =>
      have hcloses : closes openings c = false := by
        cases openings with
        | nil => rfl
        | cons o os =>
            simp only [hk, bracketsOf, List.map_cons, pass] at h
            split_ifs at h with hoc
            simpa [closes] using hoc
      simp [hcloses]
  | comma =>
      have hnil : openings = [] := by
        simpa [hk, pass, bracketsOf] using h
      simp [hnil]
  | pipe => simp
  | endOfLine => simp
  | word w => simp [hk, pass] at h
  | arrow => simp [hk, pass] at h
  | symbol c => simp [hk, pass] at h

/-- Tokens that the open brackets pass are all passed. -/
theorem fieldRest_append {variant : String} {stop : Nat} {openings : List Opening}
    {body : List Token} {brackets : List Char} (rest : List Token)
    (h : passAll (bracketsOf openings) (body.map (·.kind)) = some brackets) :
    fieldRest variant stop openings (body ++ rest) =
      fieldRest variant (Token.reach stop body) (trackAll openings body) rest := by
  induction body generalizing stop openings with
  | nil => rfl
  | cons t body ih =>
      obtain ⟨mid, ht, hbody⟩ := Option.bind_eq_some_iff.mp h
      rw [← bracketsOf_track ht] at hbody
      rw [List.cons_append, fieldRest_of_pass _ ht, ih hbody]
      rfl

/-- With all brackets closed, a field ends where the tokens stop it. -/
theorem fieldRest_of_stops {variant : String} {stop : Nat} {rest : List Token} (h : Stops rest) :
    fieldRest variant stop [] rest = .ok stop rest := by
  cases rest with
  | nil => rfl
  | cons t ts =>
      rw [fieldRest]
      rcases h t rfl with hk | hk
      · simp [hk]
      · simp [hk, fieldEnd]

theorem fieldRest_eq_ok {variant : String} {stop stop' : Nat} {openings : List Opening}
    {ts rest : List Token} (h : fieldRest variant stop openings ts = .ok stop' rest) :
    ∃ body, ts = body ++ rest ∧ passAll (bracketsOf openings) (body.map (·.kind)) = some [] ∧
      Stops rest ∧ stop' = Token.reach stop body := by
  induction ts generalizing stop openings with
  | nil =>
      cases openings with
      | nil =>
          obtain ⟨rfl, rfl⟩ : stop = stop' ∧ [] = rest := by simpa [fieldRest, fieldEnd] using h
          exact ⟨[], rfl, rfl, by simp [Stops], rfl⟩
      | cons o os => simp [fieldRest, fieldEnd] at h
  | cons t ts ih =>
      cases ha : pass (bracketsOf openings) t.kind with
      | some brackets =>
          rw [fieldRest_of_pass ts ha] at h
          obtain ⟨body, rfl, hbody, hstops, rfl⟩ := ih h
          refine ⟨t :: body, rfl, ?_, hstops, rfl⟩
          rw [List.map_cons, passAll, ha, Option.bind_some, ← bracketsOf_track ha]
          exact hbody
      | none =>
          rcases fieldRest_of_not_pass variant stop ts ha with
            ⟨hk, rfl, hr⟩ | ⟨hk, hr⟩ | ⟨-, hr⟩ | ⟨c, -, hr⟩
          · rw [hr] at h
            obtain ⟨rfl, rfl⟩ : stop = stop' ∧ t :: ts = rest := by simpa using h
            exact ⟨[], rfl, rfl, by simp [Stops, hk], rfl⟩
          · rw [hr] at h
            cases openings with
            | nil =>
                obtain ⟨rfl, rfl⟩ : stop = stop' ∧ t :: ts = rest := by
                  simpa [fieldEnd] using h
                exact ⟨[], rfl, rfl, by simp [Stops, hk], rfl⟩
            | cons o os => simp [fieldEnd] at h
          · simp [hr] at h
          · simp [hr] at h

/-- Tokens that make up a field by themselves. -/
structure IsBody (body : List Token) : Prop where
  ne_nil : body ≠ []
  passed : passAll [] (body.map (·.kind)) = some []

/-- A field starts at a token that does not end it. -/
theorem field_cons_eq_ok_iff {final : Token} {variant : String} {t : Token}
    {ts rest : List Token} {s : Span} :
    field final variant (t :: ts) = .ok s rest ↔
      (t.kind ≠ .comma ∧ t.kind ≠ .endOfLine) ∧ t.span.start = s.start ∧
        fieldRest variant t.span.start [] (t :: ts) = .ok s.stop rest := by
  obtain ⟨start, stop⟩ := s
  rw [field]
  cases hk : t.kind with
  | comma => simp
  | endOfLine => simp
  | _ => cases fieldRest variant t.span.start [] (t :: ts) <;> simp [and_assoc]

/-- A field goes on up to a comma or the end, with all of its brackets closed. -/
theorem field_eq_ok_iff {final : Token} {variant : String} {ts rest : List Token} {s : Span} :
    field final variant ts = .ok s rest ↔
      ∃ body, ts = body ++ rest ∧ IsBody body ∧ Stops rest ∧ s = Token.cover body := by
  constructor
  · intro h
    cases ts with
    | nil => simp [field] at h
    | cons t ts =>
        obtain ⟨⟨hcomma, hend⟩, hstart, hr⟩ := field_cons_eq_ok_iff.mp h
        obtain ⟨body, hts, hbody, hstops, hstop⟩ := fieldRest_eq_ok hr
        cases body with
        | nil =>
            rw [List.nil_append] at hts
            subst hts
            rcases hstops t rfl with hk | hk
            · exact absurd hk hcomma
            · exact absurd hk hend
        | cons u body =>
            obtain ⟨rfl, -⟩ := List.cons.inj hts
            refine ⟨t :: body, hts, ⟨by simp, hbody⟩, hstops, ?_⟩
            obtain ⟨start, stop⟩ := s
            simp only at hstart hstop
            rw [← hstart, hstop]
            rfl
  · rintro ⟨body, rfl, hbody, hstops, rfl⟩
    obtain ⟨t, body, rfl⟩ := List.exists_cons_of_ne_nil hbody.ne_nil
    have hpass : passAll (bracketsOf []) ((t :: body).map (·.kind)) = some [] := hbody.passed
    have hclosed := bracketsOf_eq_nil.mp (bracketsOf_trackAll hpass)
    have hread : fieldRest variant t.span.start [] (t :: body ++ rest) =
        .ok (Token.reach t.span.stop body) rest := by
      rw [fieldRest_append rest hpass, hclosed, fieldRest_of_stops hstops]
      rfl
    obtain ⟨mid, ht, -⟩ := Option.bind_eq_some_iff.mp hbody.passed
    refine field_cons_eq_ok_iff.mpr ⟨⟨?_, ?_⟩, rfl, hread⟩
    · intro hk
      simp [hk, pass] at ht
    · intro hk
      simp [hk, pass] at ht

section Fields
variable {final : Token} {variant : String} {ts rest : List Token} {s : Span}

theorem fields_of_error {e : Fault} (h : field final variant ts = .error e rest) :
    fields final variant ts = .error e rest := by
  rw [fields]
  split <;> simp_all

theorem fields_of_stop (h : field final variant ts = .ok s rest)
    (hrest : ∀ t ∈ rest.head?, t.kind ≠ .comma) : fields final variant ts = .ok [s] rest := by
  rw [fields]
  cases rest with
  | nil => split <;> simp_all
  | cons t rest =>
      have ht := hrest t rfl
      split <;> simp_all

theorem fields_of_comma {t : Token} (h : field final variant ts = .ok s (t :: rest))
    (ht : t.kind = .comma) :
    fields final variant ts =
      match fields final variant rest with
      | .ok more rest' => .ok (s :: more) rest'
      | .error e rest' => .error e rest' := by
  rw [fields]
  cases hmore : fields final variant rest <;> split <;> simp_all

end Fields

theorem exists_comma {ts : List Token} (h : ¬ ∀ t ∈ ts.head?, t.kind ≠ .comma) :
    ∃ comma rest, ts = comma :: rest ∧ comma.kind = .comma := by
  cases ts with
  | nil => simp at h
  | cons t ts => exact ⟨t, ts, rfl, by simpa using h⟩

/-- Tokens of one or more fields divided by commas, with the range of each field. -/
inductive FieldList : List Token → List Span → Prop
  | one {body : List Token} : IsBody body → FieldList body [Token.cover body]
  | more {body ts : List Token} {comma : Token} {spans : List Span} : IsBody body →
      comma.kind = .comma → FieldList ts spans →
      FieldList (body ++ comma :: ts) (Token.cover body :: spans)

/-- The tokens ahead do not go on with the line. -/
def Ends (ts : List Token) : Prop :=
  ∀ t ∈ ts.head?, t.kind = .endOfLine

theorem Ends.stops {ts : List Token} (h : Ends ts) : Stops ts :=
  fun t ht => .inr (h t ht)

theorem FieldList.fields {listed rest : List Token} {spans : List Span}
    (h : FieldList listed spans) (hrest : Ends rest) (final : Token) (variant : String) :
    fields final variant (listed ++ rest) = .ok spans rest := by
  induction h with
  | @one body hbody =>
      apply fields_of_stop (field_eq_ok_iff.mpr ⟨body, rfl, hbody, hrest.stops, rfl⟩)
      intro t ht hk
      simp [hrest t ht] at hk
  | @more body ts comma spans hbody hcomma _ ih =>
      have hfield : field final variant (body ++ comma :: (ts ++ rest)) =
          .ok (Token.cover body) (comma :: (ts ++ rest)) :=
        field_eq_ok_iff.mpr ⟨body, rfl, hbody, by simp [Stops, hcomma], rfl⟩
      rw [List.append_assoc, List.cons_append, fields_of_comma hfield hcomma, ih]

theorem fieldList_of_fields {final : Token} {variant : String} {ts rest : List Token}
    {spans : List Span} (h : fields final variant ts = .ok spans rest) :
    ∃ listed, ts = listed ++ rest ∧ FieldList listed spans ∧ Ends rest := by
  -- What is left behind a comma is shorter, but no part of the list that a recursion would give.
  induction hn : ts.length using Nat.strong_induction_on generalizing ts spans with
  | h n ih =>
      cases hf : field final variant ts with
      | error e r => simp [fields_of_error hf] at h
      | ok s r =>
          obtain ⟨body, rfl, hbody, hstops, rfl⟩ := field_eq_ok_iff.mp hf
          by_cases hr : ∀ t ∈ r.head?, t.kind ≠ .comma
          · rw [fields_of_stop hf hr] at h
            obtain ⟨rfl, rfl⟩ : [Token.cover body] = spans ∧ r = rest := by simpa using h
            exact ⟨body, rfl, .one hbody, fun t ht => (hstops t ht).resolve_left (hr t ht)⟩
          · obtain ⟨comma, r, rfl, hcomma⟩ := exists_comma hr
            rw [fields_of_comma hf hcomma] at h
            cases hmore : fields final variant r with
            | error e rest' => simp [hmore] at h
            | ok more rest' =>
                obtain ⟨rfl, rfl⟩ : Token.cover body :: more = spans ∧ rest' = rest := by
                  simpa [hmore] using h
                have hlt : r.length < n := by
                  rw [← hn, List.length_append, List.length_cons]
                  omega
                obtain ⟨listed, rfl, hlist, hends⟩ := ih r.length hlt hmore rfl
                exact ⟨body ++ comma :: listed, by simp, .more hbody hcomma hlist, hends⟩

/-- Reading fields succeeds exactly on fields divided by commas, up to the end. -/
theorem fields_eq_ok_iff {final : Token} {variant : String} {ts rest : List Token}
    {spans : List Span} :
    fields final variant ts = .ok spans rest ↔
      ∃ listed, ts = listed ++ rest ∧ FieldList listed spans ∧ Ends rest := by
  constructor
  · exact fieldList_of_fields
  · rintro ⟨listed, rfl, hlist, hends⟩
    exact hlist.fields hends final variant

theorem outline_eq (final : Token) (ts : List Token) :
    outline final ts =
      match name final ts with
      | .error e rest => .error e rest
      | .ok variant ts₁ =>
        match delimiter final variant ts₁ with
        | .error e rest => .error e rest
        | .ok () ts₂ =>
          match fields final variant ts₂ with
          | .error e rest => .error e rest
          | .ok spans ts₃ =>
            match lineEnd variant ts₃ with
            | .error e rest => .error e rest
            | .ok () rest => .ok ⟨variant, spans⟩ rest := by
  simp only [outline, bind, EStateM.bind, pure, EStateM.pure]
  cases name final ts with
  | error e rest => rfl
  | ok variant ts₁ =>
      simp only
      cases delimiter final variant ts₁ with
      | error e rest => rfl
      | ok u ts₂ =>
          simp only
          cases fields final variant ts₂ with
          | error e rest => rfl
          | ok spans ts₃ =>
              simp only
              cases lineEnd variant ts₃ <;> rfl

theorem name_eq_ok_iff {final : Token} {ts rest : List Token} {w : String} :
    name final ts = .ok w rest ↔ ∃ t, ts = t :: rest ∧ t.kind = .word w := by
  constructor
  · intro h
    cases ts with
    | nil => simp [name] at h
    | cons t ts =>
        cases hk : t.kind with
        | word w' =>
            obtain ⟨rfl, rfl⟩ : w' = w ∧ ts = rest := by simpa [name, hk] using h
            exact ⟨t, rfl, hk⟩
        | _ => simp [name, hk] at h
  · rintro ⟨t, rfl, hk⟩
    simp [name, hk]

theorem delimiter_eq_ok_iff {final : Token} {variant : String} {ts rest : List Token} :
    delimiter final variant ts = .ok () rest ↔ ∃ t, ts = t :: rest ∧ t.kind = .pipe := by
  constructor
  · intro h
    cases ts with
    | nil => simp [delimiter] at h
    | cons t ts =>
        cases hk : t.kind with
        | pipe =>
            obtain rfl : ts = rest := by simpa [delimiter, hk] using h
            exact ⟨t, rfl, hk⟩
        | _ => simp [delimiter, hk] at h
  · rintro ⟨t, rfl, hk⟩
    simp [delimiter, hk]

/-- Nothing but the end can follow the fields. -/
theorem lineEnd_of_ends {variant : String} {rest : List Token} (h : Ends rest) :
    lineEnd variant rest = .ok () rest := by
  cases rest with
  | nil => rfl
  | cons t ts => simp [lineEnd, h t rfl]

/-- A line is read exactly if it is a word, a `|` and fields divided by commas. -/
theorem outline_eq_ok_iff {final : Token} {ts rest : List Token} {o : Outline} :
    outline final ts = .ok o rest ↔
      ∃ n d listed, ts = n :: d :: (listed ++ rest) ∧ n.kind = .word o.name ∧ d.kind = .pipe ∧
        FieldList listed o.fields ∧ Ends rest := by
  rw [outline_eq]
  constructor
  · intro h
    cases hname : name final ts with
    | error e left => simp [hname] at h
    | ok variant ts₁ =>
        obtain ⟨n, rfl, hn⟩ := name_eq_ok_iff.mp hname
        cases hdelimiter : delimiter final variant ts₁ with
        | error e left => simp [hname, hdelimiter] at h
        | ok u ts₂ =>
            obtain ⟨d, rfl, hd⟩ := delimiter_eq_ok_iff.mp hdelimiter
            cases hfields : fields final variant ts₂ with
            | error e left => simp [hname, hdelimiter, hfields] at h
            | ok spans ts₃ =>
                obtain ⟨listed, rfl, hlist, hends⟩ := fields_eq_ok_iff.mp hfields
                simp only [hname, hdelimiter, hfields, lineEnd_of_ends hends] at h
                obtain ⟨rfl, rfl⟩ := EStateM.Result.ok.inj h
                exact ⟨n, d, listed, rfl, hn, hd, hlist, hends⟩
  · rintro ⟨n, d, listed, rfl, hn, hd, hlist, hends⟩
    simp only [name_eq_ok_iff.mpr ⟨n, rfl, hn⟩, delimiter_eq_ok_iff.mpr ⟨d, rfl, hd⟩,
      hlist.fields hends, lineEnd_of_ends hends]

/-! Where a reader that fails has failed. -/

section Failing
variable {final t : Token} {variant : String} {ts rest : List Token} {e : Fault}

theorem name_eq_error_cases (h : name final (t :: ts) = .error e rest) :
    (t.kind = .endOfLine ∧ e = .located t.place .emptyLine) ∨
      ((∀ w, t.kind ≠ .word w) ∧ e = .located t.place (.nameExpected t.kind)) := by
  cases hk : t.kind with
  | word w => simp [name, hk] at h
  | endOfLine =>
      simp only [name, hk, EStateM.Result.error.injEq] at h
      exact .inl ⟨rfl, h.1.symm⟩
  | _ =>
      simp only [name, hk, EStateM.Result.error.injEq] at h
      exact .inr ⟨by simp, h.1.symm⟩

theorem delimiter_eq_error_cases (h : delimiter final variant (t :: ts) = .error e rest) :
    (t.kind = .endOfLine ∧ e = .located t.place (.endsAfterName variant)) ∨
      (∃ w, t.kind = .word w ∧ e = .located t.place (.secondWord variant w)) ∨
      (t.kind ≠ .pipe ∧ e = .located t.place (.delimiterExpected variant t.kind)) := by
  cases hk : t.kind with
  | pipe => simp [delimiter, hk] at h
  | endOfLine =>
      simp only [delimiter, hk, EStateM.Result.error.injEq] at h
      exact .inl ⟨rfl, h.1.symm⟩
  | word w =>
      simp only [delimiter, hk, EStateM.Result.error.injEq] at h
      exact .inr (.inl ⟨w, rfl, h.1.symm⟩)
  | _ =>
      simp only [delimiter, hk, EStateM.Result.error.injEq] at h
      exact .inr (.inr ⟨by simp, h.1.symm⟩)

theorem field_eq_error_cases (h : field final variant (t :: ts) = .error e rest) :
    ((t.kind = .comma ∨ t.kind = .endOfLine) ∧ e = .located t.place (.emptyField variant) ∧
        rest = t :: ts) ∨
      fieldRest variant t.span.start [] (t :: ts) = .error e rest := by
  rw [field] at h
  cases hk : t.kind with
  | comma =>
      simp only [hk, EStateM.Result.error.injEq] at h
      exact .inl ⟨.inl rfl, h.1.symm, h.2.symm⟩
  | endOfLine =>
      simp only [hk, EStateM.Result.error.injEq] at h
      exact .inl ⟨.inr rfl, h.1.symm, h.2.symm⟩
  | _ =>
      cases hr : fieldRest variant t.span.start [] (t :: ts) with
      | ok stop left => simp [hk, hr] at h
      | error e' left =>
          obtain ⟨rfl, rfl⟩ : e' = e ∧ left = rest := by simpa [hk, hr] using h
          exact .inr rfl

/-- The first field fails, or the fields behind its comma do. -/
theorem fields_eq_error_cases (h : fields final variant ts = .error e rest) :
    field final variant ts = .error e rest ∨
      ∃ s comma more, field final variant ts = .ok s (comma :: more) ∧ comma.kind = .comma ∧
        fields final variant more = .error e rest := by
  cases hf : field final variant ts with
  | error e' left =>
      obtain ⟨rfl, rfl⟩ : e' = e ∧ left = rest := by simpa [fields_of_error hf] using h
      exact .inl rfl
  | ok s left =>
      by_cases hr : ∀ t ∈ left.head?, t.kind ≠ .comma
      · simp [fields_of_stop hf hr] at h
      · obtain ⟨comma, more, rfl, hcomma⟩ := exists_comma hr
        rw [fields_of_comma hf hcomma] at h
        cases hmore : fields final variant more with
        | ok spans left => simp [hmore] at h
        | error e' left =>
            obtain ⟨rfl, rfl⟩ : e' = e ∧ left = rest := by simpa [hmore] using h
            exact .inr ⟨s, comma, more, rfl, hcomma, hmore⟩

/-- A line fails at its name, at the delimiter behind it, or at a field: behind the fields there is
nothing left to fail at. -/
theorem outline_eq_error_cases (h : outline final ts = .error e rest) :
    name final ts = .error e rest ∨
      (∃ n w more, ts = n :: more ∧ n.kind = .word w ∧ delimiter final w more = .error e rest) ∨
      ∃ n d w more, ts = n :: d :: more ∧ n.kind = .word w ∧ d.kind = .pipe ∧
        fields final w more = .error e rest := by
  rw [outline_eq] at h
  cases hname : name final ts with
  | error e' left =>
      obtain ⟨rfl, rfl⟩ : e' = e ∧ left = rest := by simpa [hname] using h
      exact .inl rfl
  | ok w ts₁ =>
      obtain ⟨n, rfl, hn⟩ := name_eq_ok_iff.mp hname
      right
      cases hdelimiter : delimiter final w ts₁ with
      | error e' left =>
          obtain ⟨rfl, rfl⟩ : e' = e ∧ left = rest := by simpa [hname, hdelimiter] using h
          exact .inl ⟨n, w, ts₁, rfl, hn, hdelimiter⟩
      | ok u ts₂ =>
          obtain ⟨d, rfl, hd⟩ := delimiter_eq_ok_iff.mp hdelimiter
          cases hfields : fields final w ts₂ with
          | error e' left =>
              obtain ⟨rfl, rfl⟩ : e' = e ∧ left = rest := by
                simpa [hname, hdelimiter, hfields] using h
              exact .inr ⟨n, d, w, ts₂, rfl, hn, hd, hfields⟩
          | ok spans ts₃ =>
              obtain ⟨listed, -, -, hends⟩ := fields_eq_ok_iff.mp hfields
              simp [hname, hdelimiter, hfields, lineEnd_of_ends hends] at h

end Failing

end TaggedUnion.Grammar

namespace TaggedUnion.LineReader

theorem read_eq_ok_iff (r : LineReader) {v : Variant} :
    r.read.1 = .ok v ↔
      ∃ o rest, Grammar.outline r.final r.ahead = .ok o rest ∧ o.variant r.text = v := by
  rw [read]
  cases Grammar.outline r.final r.ahead <;> simp

theorem read_eq_error_iff (r : LineReader) {e : Fault} :
    r.read.1 = .error e ↔ ∃ rest, Grammar.outline r.final r.ahead = .error e rest := by
  rw [read]
  cases Grammar.outline r.final r.ahead <;> simp

end TaggedUnion.LineReader
