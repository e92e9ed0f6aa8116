import TaggedUnion.Proofs.Line.FieldReading

/-!
# Stages of reading a line

Behind every token a reader is at one of a few stages, which is known from the kinds of the tokens
alone. A line can be read exactly if it brings the stages to the end of a field with no bracket
open. Otherwise its fault is at the first token that may not follow at its stage, or the line ends
too early and is at fault there or at the innermost open bracket.
-/

namespace TaggedUnion

structure Fault.At (e : Fault) (place : Place) (category : Category) : Prop where
  place_eq : e.place = some place
  category_eq : e.cause.category = category

namespace Grammar

/-- How far a line has been read. Within a field, the open brackets are known. -/
inductive Stage where
  | name
  | delimiter
  | fieldStart
  | inField (brackets : List Char)
  deriving DecidableEq, Repr

namespace Stage

def brackets : Stage → List Char
  | inField brackets => brackets
  | _ => []

def InFields (s : Stage) : Prop :=
  s = fieldStart ∨ s = inField s.brackets

/-- The stage behind one more token, if the token may follow. -/
def next : Stage → Token.Kind → Option Stage
  | name, .word _ => some delimiter
  | name, _ => none
  | delimiter, .pipe => some fieldStart
  | delimiter, _ => none
  | fieldStart, k => (pass [] k).map inField
  | inField brackets, k =>
    if k = .comma ∧ brackets = [] then some fieldStart else (pass brackets k).map inField

def run (s : Stage) : List Token.Kind → Option Stage
  | [] => some s
  | k :: ks => (s.next k).bind fun s' => s'.run ks

/-- The category of the fault at a token that may not follow. -/
def refusal : Stage → Token.Kind → Category
  | name, _ => .invalidName
  | delimiter, _ => .missingDelimiter
  | _, .comma => .emptyField
  | _, .pipe => .unexpectedToken
  | _, _ => .unbalanced

def missing : Stage → Category
  | name => .unexpectedToken
  | delimiter => .missingDelimiter
  | fieldStart => .emptyField
  | inField _ => .unbalanced

theorem run_append (s : Stage) (as bs : List Token.Kind) :
    s.run (as ++ bs) = (s.run as).bind fun s' => s'.run bs := by
  induction as generalizing s with
  | nil => rfl
  | cons a as ih =>
      rw [List.cons_append, run, run, Option.bind_assoc]
      exact Option.bind_congr fun s' _ => ih s'

theorem run_append_cons {s s₁ : Stage} {as : List Token.Kind} (h : s.run as = some s₁)
    (k : Token.Kind) (ks : List Token.Kind) :
    s.run (as ++ k :: ks) = (s₁.next k).bind fun s' => s'.run ks := by
  rw [run_append, h, Option.bind_some, run]

theorem next_of_pass {s : Stage} {k : Token.Kind} {bs : List Char}
    (hs : s.InFields) (h : pass s.brackets k = some bs) :
    s.next k = some (inField bs) := by
  rcases hs with rfl | hs
  · rw [next, show pass [] k = some bs from h]
    rfl
  · have hcomma : ¬ (k = .comma ∧ s.brackets = []) := by
      intro hk
      simp [hk.1, hk.2, pass] at h
    rw [hs, next, if_neg hcomma, h]
    rfl

theorem next_of_not_pass {s : Stage} {k : Token.Kind}
    (hs : s.InFields) (hk : k ≠ .comma)
    (h : pass s.brackets k = none) : s.next k = none := by
  rcases hs with rfl | hs
  · rw [next, show pass [] k = none from h]
    rfl
  · rw [hs, next, if_neg (fun hcomma => hk hcomma.1), h]
    rfl

/-- What one token can do. -/
theorem next_cases {s s' : Stage} {k : Token.Kind} (h : s.next k = some s') :
    ((k.isOpener = false ∧ k.isCloser = false) ∧ s.brackets = [] ∧ s'.brackets = []) ∨
      ∃ bs, pass s.brackets k = some bs ∧ s' = inField bs := by
  cases s with
  | name =>
      cases k with
      | word w =>
          obtain rfl : delimiter = s' := Option.some.inj h
          exact .inl ⟨⟨rfl, rfl⟩, rfl, rfl⟩
      | _ => simp [next] at h
  | delimiter =>
      cases k with
      | pipe =>
          obtain rfl : fieldStart = s' := Option.some.inj h
          exact .inl ⟨⟨rfl, rfl⟩, rfl, rfl⟩
      | _ => simp [next] at h
  | fieldStart =>
      obtain ⟨bs, hbs, rfl⟩ := Option.map_eq_some_iff.mp h
      exact .inr ⟨bs, hbs, rfl⟩
  | inField brackets =>
      rw [next] at h
      split_ifs at h with hcomma
      · obtain rfl : fieldStart = s' := Option.some.inj h
        rw [hcomma.1, hcomma.2]
        exact .inl ⟨⟨rfl, rfl⟩, rfl, rfl⟩
      · obtain ⟨bs, hbs, rfl⟩ := Option.map_eq_some_iff.mp h
        exact .inr ⟨bs, hbs, rfl⟩

theorem inFields_of_next {s s' : Stage} {k : Token.Kind} (hs : s.InFields)
    (h : s.next k = some s') : s'.InFields := by
  rcases hs with rfl | hs
  · obtain ⟨bs, -, rfl⟩ := Option.map_eq_some_iff.mp h
    exact .inr rfl
  · rw [hs, next] at h
    split at h
    · exact .inl (Option.some.inj h).symm
    · obtain ⟨bs, -, rfl⟩ := Option.map_eq_some_iff.mp h
      exact .inr rfl

theorem inFields_of_run {s s' : Stage} {ks : List Token.Kind} (hs : s.InFields)
    (h : s.run ks = some s') : s'.InFields := by
  induction ks generalizing s with
  | nil =>
      obtain rfl : s = s' := Option.some.inj h
      exact hs
  | cons k ks ih =>
      obtain ⟨mid, hk, hks⟩ := Option.bind_eq_some_iff.mp h
      exact ih (inFields_of_next hs hk) hks

theorem eq_delimiter_of_run {k : Token.Kind} {s : Stage} (h : name.run [k] = some s) :
    ∃ w, k = .word w ∧ s = delimiter := by
  cases k with
  | word w => exact ⟨w, rfl, (Option.some.inj h).symm⟩
  | _ => simp [run, next] at h

/-- The first two tokens of a line are a word and a `|`. -/
theorem inFields_of_two {k₁ k₂ : Token.Kind} {ks : List Token.Kind} {s : Stage}
    (h : name.run (k₁ :: k₂ :: ks) = some s) : s.InFields := by
  obtain ⟨s₁, hk₁, h₁⟩ := Option.bind_eq_some_iff.mp h
  obtain ⟨s₂, hk₂, h₂⟩ := Option.bind_eq_some_iff.mp h₁
  obtain rfl : s₁ = delimiter := by
    cases k₁ <;> simp_all [next]
  obtain rfl : s₂ = fieldStart := by
    cases k₂ <;> simp_all [next]
  exact inFields_of_run (.inl rfl) h₂

theorem refusal_of_inFields {s : Stage} (hs : s.InFields) (k : Token.Kind) :
    s.refusal k = fieldStart.refusal k := by
  rcases hs with rfl | hs
  · rfl
  · rw [hs]
    cases k <;> rfl

/-- Among the fields, only a comma, a `|` and a closing bracket can be refused. -/
theorem refusal_cases {s : Stage} {k : Token.Kind} (hs : s.InFields) (hend : k ≠ .endOfLine)
    (h : s.next k = none) :
    (k = .comma ∧ s.refusal k = .emptyField) ∨ (k = .pipe ∧ s.refusal k = .unexpectedToken) ∨
      ((∃ c, k = .closer c) ∧ s.refusal k = .unbalanced) := by
  have hpass : pass s.brackets k = none := by
    cases hp : pass s.brackets k with
    | none => rfl
    | some bs => simp [next_of_pass hs hp] at h
  rw [refusal_of_inFields hs]
  cases k with
  | comma => exact .inl ⟨rfl, rfl⟩
  | pipe => exact .inr (.inl ⟨rfl, rfl⟩)
  | closer c => exact .inr (.inr ⟨⟨c, rfl⟩, rfl⟩)
  | endOfLine => exact absurd rfl hend
  | opener c => simp [pass] at hpass
  | word w => simp [pass] at hpass
  | arrow => simp [pass] at hpass
  | symbol c => simp [pass] at hpass

/-- What holds at the start and is kept by every token holds behind all of them. -/
theorem run_invariant {P : List Token.Kind → Stage → Prop} {s₀ s : Stage} {ks : List Token.Kind}
    (hstart : P [] s₀)
    (hstep : ∀ ks s k s', P ks s → s.next k = some s' → P (ks ++ [k]) s')
    (h : s₀.run ks = some s) : P ks s := by
  induction ks using List.reverseRecOn generalizing s with
  | nil =>
      obtain rfl := Option.some.inj h
      exact hstart
  | append_singleton ks k ih =>
      rw [run_append] at h
      obtain ⟨mid, hmid, hk⟩ := Option.bind_eq_some_iff.mp h
      obtain ⟨s', hs', hrest⟩ := Option.bind_eq_some_iff.mp hk
      obtain rfl : s' = s := Option.some.inj hrest
      exact hstep ks mid k s' (ih hmid) hs'

/-- The open brackets of a stage are those that the tokens have left open. -/
theorem pending_of_run {ks : List Token.Kind} {s : Stage} (h : name.run ks = some s) :
    Pending ks s.brackets := by
  refine run_invariant (P := fun ks s => Pending ks s.brackets) ?_ ?_ h
  · exact .closed .nil
  · intro ks s k s' hpending hnext
    rcases next_cases hnext with ⟨⟨ho, hc⟩, hs, hs'⟩ | ⟨bs, hbs, rfl⟩
    · rw [hs', ← hs]
      exact hpending.append (.plain ho hc .nil)
    · exact hpending.step hbs

theorem opener_mem_of_run {ks : List Token.Kind} {s : Stage} (h : name.run ks = some s) :
    ∀ c ∈ s.brackets, Token.Kind.opener c ∈ ks := by
  refine run_invariant (P := fun ks s => ∀ c ∈ s.brackets, Token.Kind.opener c ∈ ks) ?_ ?_ h
  · simp [brackets]
  · intro ks s k s' hmem hnext c hc
    rw [List.mem_append]
    rcases next_cases hnext with ⟨-, -, hs'⟩ | ⟨bs, hbs, rfl⟩
    · simp [hs'] at hc
    · rcases pass_cases hbs with ⟨d, rfl, rfl⟩ | ⟨o, d, rfl, -, hs⟩ | ⟨-, -, -, -, rfl⟩
      · rcases List.mem_cons.mp hc with rfl | hc
        · simp
        · exact .inl (hmem c hc)
      · exact .inl (hmem c (by rw [hs]; exact List.mem_cons_of_mem o hc))
      · exact .inl (hmem c hc)

theorem exists_closing {bs : List Char} (h : ∀ c ∈ bs, c ∈ ['<', '(', '[']) :
    ∃ more, Token.Kind.endOfLine ∉ more ∧ (inField bs).run more = some (inField []) := by
  induction bs with
  | nil => exact ⟨[], by simp, rfl⟩
  | cons o bs ih =>
      obtain ⟨more, hend, hrun⟩ := ih fun c hc => h c (by simp [hc])
      obtain ⟨c, hoc⟩ : ∃ c, closingOf o = some c := by
        have ho := h o (by simp)
        simp only [List.mem_cons, List.not_mem_nil, or_false] at ho
        rcases ho with rfl | rfl | rfl
        · exact ⟨'>', rfl⟩
        · exact ⟨')', rfl⟩
        · exact ⟨']', rfl⟩
      have hnext : (inField (o :: bs)).next (.closer c) = some (inField bs) :=
        next_of_pass (.inr rfl) (by simp [pass, brackets, hoc])
      refine ⟨.closer c :: more, by simpa using hend, ?_⟩
      rw [run, hnext, Option.bind_some, hrun]

/-- From every stage there are tokens that make the line complete. -/
theorem exists_completion {ks : List Token.Kind} {s : Stage} (h : name.run ks = some s)
    (hopen : ∀ c, Token.Kind.opener c ∈ ks → c ∈ ['<', '(', '[']) :
    ∃ more, Token.Kind.endOfLine ∉ more ∧ s.run more = some (inField []) := by
  cases s with
  | name => exact ⟨[.word "", .pipe, .word ""], by simp, rfl⟩
  | delimiter => exact ⟨[.pipe, .word ""], by simp, rfl⟩
  | fieldStart => exact ⟨[.word ""], by simp, rfl⟩
  | inField bs => exact exists_closing fun c hc => hopen c (opener_mem_of_run h c hc)

theorem run_inField_of_passAll {ks : List Token.Kind} {bs bs' : List Char}
    (h : passAll bs ks = some bs') : (inField bs).run ks = some (inField bs') := by
  induction ks generalizing bs with
  | nil =>
      obtain rfl := Option.some.inj h
      rfl
  | cons k ks ih =>
      obtain ⟨mid, hk, hks⟩ := Option.bind_eq_some_iff.mp h
      have hnext : (inField bs).next k = some (inField mid) := next_of_pass (.inr rfl) hk
      rw [run, hnext, Option.bind_some, ih hks]

end Stage

theorem IsBody.run {body : List Token} (h : IsBody body) :
    Stage.fieldStart.run (body.map (·.kind)) = some (.inField []) := by
  obtain ⟨t, body, rfl⟩ := List.exists_cons_of_ne_nil h.ne_nil
  obtain ⟨mid, ht, hbody⟩ := Option.bind_eq_some_iff.mp h.passed
  have hnext : Stage.fieldStart.next t.kind = some (.inField mid) :=
    Stage.next_of_pass (.inl rfl) ht
  rw [List.map_cons, Stage.run, hnext, Option.bind_some, Stage.run_inField_of_passAll hbody]

theorem IsBody.run_comma {body : List Token} {comma : Token} (h : IsBody body)
    (hcomma : comma.kind = .comma) :
    Stage.fieldStart.run ((body ++ [comma]).map (·.kind)) = some .fieldStart := by
  rw [List.map_append, List.map_singleton, Stage.run_append_cons h.run, hcomma]
  rfl

theorem FieldList.run {listed : List Token} {spans : List Span} (h : FieldList listed spans) :
    Stage.fieldStart.run (listed.map (·.kind)) = some (.inField []) := by
  induction h with
  | one hbody => exact hbody.run
  | @more body ts comma spans hbody hcomma _ ih =>
      rw [List.append_cons, List.map_append, Stage.run_append, hbody.run_comma hcomma]
      exact ih

/-- The brackets open behind a token, with their places, are those of the stage. -/
theorem bracketsOf_trackAll_of_run {openings : List Opening} {ts : List Token} {s s' : Stage}
    (hs : bracketsOf openings = s.brackets) (h : s.run (ts.map (·.kind)) = some s') :
    bracketsOf (trackAll openings ts) = s'.brackets := by
  induction ts generalizing openings s with
  | nil =>
      obtain rfl : s = s' := Option.some.inj h
      exact hs
  | cons t ts ih =>
      obtain ⟨mid, ht, hts⟩ := Option.bind_eq_some_iff.mp h
      refine ih ?_ hts
      rcases Stage.next_cases ht with ⟨⟨ho, hc⟩, hs₀, hmid⟩ | ⟨bs, hbs, rfl⟩
      · rw [track_of_plain openings ho hc, hs, hs₀, hmid]
      · rw [← hs] at hbs
        exact bracketsOf_track hbs

/-- Where a line that ends too early is at fault. -/
def endPlace (final : Token) : List Opening → Place
  | [] => final.place
  | o :: _ => o.place

/-- What the fault of a line can be, read on from a stage: the first token that may not follow is
refused, or the line ends before it is complete. -/
inductive FaultFrom (final : Token) (s₀ : Stage) (openings : List Opening) :
    List Token → Fault → Prop
  | refused {before after : List Token} {t : Token} {s : Stage} {e : Fault} :
      s₀.run (before.map (·.kind)) = some s → s.next t.kind = none →
      e.At t.place (s.refusal t.kind) → FaultFrom final s₀ openings (before ++ t :: after) e
  | unfinished {ts : List Token} {s : Stage} {e : Fault} :
      s₀.run (ts.map (·.kind)) = some s → s ≠ .inField [] →
      e.At (endPlace final (trackAll openings ts)) s.missing → FaultFrom final s₀ openings ts e

theorem FaultFrom.head {final t : Token} {s : Stage} {e : Fault} (openings : List Opening)
    (ts : List Token) (hnext : s.next t.kind = none) (hat : e.At t.place (s.refusal t.kind)) :
    FaultFrom final s openings (t :: ts) e := by
  rw [← List.nil_append (t :: ts)]
  exact .refused rfl hnext hat

/-- Tokens that may stand in front do not change the fault. -/
theorem FaultFrom.append_left {final : Token} {s₀ s₁ : Stage} {openings : List Opening}
    {passed ts : List Token} {e : Fault} (hrun : s₀.run (passed.map (·.kind)) = some s₁)
    (h : FaultFrom final s₁ (trackAll openings passed) ts e) :
    FaultFrom final s₀ openings (passed ++ ts) e := by
  cases h with
  | refused hbefore hnext hat =>
      rw [← List.append_assoc]
      refine .refused ?_ hnext hat
      rw [List.map_append, Stage.run_append, hrun]
      exact hbefore
  | unfinished hts hne hat =>
      refine .unfinished ?_ hne ?_
      · rw [List.map_append, Stage.run_append, hrun]
        exact hts
      · rw [trackAll, List.foldl_append]
        exact hat

theorem FaultFrom.run_ne {final : Token} {s₀ : Stage} {openings : List Opening} {ts : List Token}
    {e : Fault} (h : FaultFrom final s₀ openings ts e) :
    s₀.run (ts.map (·.kind)) ≠ some (.inField []) := by
  cases h with
  | refused hbefore hnext _ =>
      rw [List.map_append, List.map_cons, Stage.run_append_cons hbefore, hnext]
      simp
  | unfinished hts hne _ =>
      rw [hts]
      simpa using hne

section
variable {variant : String} {ts rest : List Token} {e : Fault}

/-- Within the fields, a token that the open brackets do not pass is refused. -/
theorem faultFrom_of_not_pass {stop : Nat} {openings : List Opening} {t : Token} {s : Stage}
    (final : Token) (hs : s.InFields)
    (hopen : bracketsOf openings = s.brackets) (hend : t.kind ≠ .endOfLine)
    (hp : pass (bracketsOf openings) t.kind = none)
    (h : fieldRest variant stop openings (t :: ts) = .error e rest) :
    FaultFrom final s openings (t :: ts) e := by
  have hnext := hp
  rw [hopen] at hnext
  rcases fieldRest_of_not_pass variant stop ts hp with
    ⟨-, -, hr⟩ | ⟨hk, -⟩ | ⟨hk, hr⟩ | ⟨c, hk, hr⟩
  · simp [hr] at h
  · exact absurd hk hend
  · rw [hr] at h
    obtain ⟨rfl, -⟩ := EStateM.Result.error.inj h
    refine .head openings ts (Stage.next_of_not_pass hs (by simp [hk]) hnext) ⟨rfl, ?_⟩
    rw [Stage.refusal_of_inFields hs, hk]
    rfl
  · rw [hr] at h
    obtain ⟨rfl, -⟩ := EStateM.Result.error.inj h
    refine .head openings ts (Stage.next_of_not_pass hs (by simp [hk]) hnext) ⟨rfl, ?_⟩
    rw [Stage.refusal_of_inFields hs, hk]
    rfl

theorem faultFrom_of_fieldRest {stop : Nat} {openings : List Opening} (final : Token)
    (hend : ∀ t ∈ ts, t.kind ≠ .endOfLine)
    (h : fieldRest variant stop openings ts = .error e rest) :
    FaultFrom final (.inField (bracketsOf openings)) openings ts e := by
  induction ts generalizing stop openings with
  | nil =>
      cases openings with
      | nil => simp [fieldRest, fieldEnd] at h
      | cons o os =>
          obtain ⟨rfl, -⟩ := EStateM.Result.error.inj h
          exact .unfinished rfl (by simp [bracketsOf]) ⟨rfl, rfl⟩
  | cons t ts ih =>
      cases hp : pass (bracketsOf openings) t.kind with
      | none => exact faultFrom_of_not_pass final (.inr rfl) rfl (hend t (by simp)) hp h
      | some bs =>
          rw [fieldRest_of_pass ts hp] at h
          have hmore := ih (fun u hu => hend u (by simp [hu])) h
          rw [bracketsOf_track hp] at hmore
          have hrun : (Stage.inField (bracketsOf openings)).run ([t].map (·.kind)) =
              some (.inField bs) :=
            Stage.run_inField_of_passAll (by simp [passAll, hp])
          exact FaultFrom.append_left hrun hmore

variable {final : Token}

theorem faultFrom_of_field (hend : ∀ t ∈ ts, t.kind ≠ .endOfLine)
    (h : field final variant ts = .error e rest) : FaultFrom final .fieldStart [] ts e := by
  cases ts with
  | nil =>
      obtain ⟨rfl, -⟩ := EStateM.Result.error.inj h
      exact .unfinished rfl (by simp) ⟨rfl, rfl⟩
  | cons t ts =>
      rcases field_eq_error_cases h with ⟨hk | hk, rfl, -⟩ | hr
      · exact .head [] ts (by rw [hk]; rfl) ⟨rfl, by rw [hk]; rfl⟩
      · exact absurd hk (hend t (by simp))
      · cases hp : pass (bracketsOf []) t.kind with
        | none => exact faultFrom_of_not_pass final (.inl rfl) rfl (hend t (by simp)) hp hr
        | some bs =>
            rw [fieldRest_of_pass ts hp] at hr
            have hmore := faultFrom_of_fieldRest final (fun u hu => hend u (by simp [hu])) hr
            rw [bracketsOf_track hp] at hmore
            have hnext : Stage.fieldStart.next t.kind = some (.inField bs) :=
              Stage.next_of_pass (.inl rfl) hp
            have hrun : Stage.fieldStart.run ([t].map (·.kind)) = some (.inField bs) := by
              rw [List.map_singleton, Stage.run, hnext]
              rfl
            exact FaultFrom.append_left hrun hmore

theorem faultFrom_of_fields (hend : ∀ t ∈ ts, t.kind ≠ .endOfLine)
    (h : fields final variant ts = .error e rest) : FaultFrom final .fieldStart [] ts e := by
  induction hn : ts.length using Nat.strong_induction_on generalizing ts with
  | h n ih =>
      rcases fields_eq_error_cases h with hf | ⟨s, comma, more, hf, hcomma, hmore⟩
      · exact faultFrom_of_field hend hf
      · obtain ⟨body, rfl, hbody, -, -⟩ := field_eq_ok_iff.mp hf
        have hlt : more.length < n := by
          rw [← hn, List.length_append, List.length_cons]
          omega
        have hfault := ih more.length hlt (fun u hu => hend u (by simp [hu])) hmore rfl
        have hrun := hbody.run_comma hcomma
        -- The brackets of a field that was read are closed, so no place is carried on.
        have hclosed : trackAll [] (body ++ [comma]) = [] :=
          bracketsOf_eq_nil.mp (bracketsOf_trackAll_of_run (s := .fieldStart) rfl hrun)
        rw [List.append_cons]
        apply FaultFrom.append_left hrun
        rw [hclosed]
        exact hfault

theorem faultFrom_of_name (hend : ∀ t ∈ ts, t.kind ≠ .endOfLine)
    (h : name final ts = .error e rest) : FaultFrom final .name [] ts e := by
  cases ts with
  | nil =>
      obtain ⟨rfl, -⟩ := EStateM.Result.error.inj h
      exact .unfinished rfl (by simp) ⟨rfl, rfl⟩
  | cons t ts =>
      rcases name_eq_error_cases h with ⟨hk, -⟩ | ⟨hword, rfl⟩
      · exact absurd hk (hend t (by simp))
      · have hnext : Stage.name.next t.kind = none := by
          rw [Stage.next]
          exact hword
        exact .head [] ts hnext ⟨rfl, rfl⟩

theorem faultFrom_of_delimiter (hend : ∀ t ∈ ts, t.kind ≠ .endOfLine)
    (h : delimiter final variant ts = .error e rest) : FaultFrom final .delimiter [] ts e := by
  cases ts with
  | nil =>
      obtain ⟨rfl, -⟩ := EStateM.Result.error.inj h
      exact .unfinished rfl (by simp) ⟨rfl, rfl⟩
  | cons t ts =>
      rcases delimiter_eq_error_cases h with ⟨hk, -⟩ | ⟨w, hk, rfl⟩ | ⟨hpipe, rfl⟩
      · exact absurd hk (hend t (by simp))
      · exact .head [] ts (by rw [hk]; rfl) ⟨rfl, rfl⟩
      · have hnext : Stage.delimiter.next t.kind = none := by
          rw [Stage.next]
          exact hpipe
        exact .head [] ts hnext ⟨rfl, rfl⟩

theorem run_head {n d : Token} {w : String} (hn : n.kind = .word w) (hd : d.kind = .pipe) :
    Stage.name.run ([n, d].map (·.kind)) = some .fieldStart := by
  simp [hn, hd, Stage.run, Stage.next]

theorem faultFrom_of_outline (hend : ∀ t ∈ ts, t.kind ≠ .endOfLine)
    (h : outline final ts = .error e rest) : FaultFrom final .name [] ts e := by
  rcases outline_eq_error_cases h with
    hname | ⟨n, w, more, rfl, hn, hdelimiter⟩ | ⟨n, d, w, more, rfl, hn, hd, hfields⟩
  · exact faultFrom_of_name hend hname
  · have hrun : Stage.name.run ([n].map (·.kind)) = some .delimiter := by
      simp [hn, Stage.run, Stage.next]
    have hclosed : trackAll [] [n] = [] := by simp [trackAll, track, hn]
    apply FaultFrom.append_left hrun
    rw [hclosed]
    exact faultFrom_of_delimiter (fun t ht => hend t (by simp [ht])) hdelimiter
  · have hclosed : trackAll [] [n, d] = [] := by simp [trackAll, track, hn, hd]
    apply FaultFrom.append_left (run_head hn hd)
    rw [hclosed]
    exact faultFrom_of_fields (fun t ht => hend t (by simp [ht])) hfields

theorem run_of_outline {o : Outline} (hend : ∀ t ∈ ts, t.kind ≠ .endOfLine)
    (h : outline final ts = .ok o rest) :
    Stage.name.run (ts.map (·.kind)) = some (.inField []) := by
  obtain ⟨n, d, listed, rfl, hn, hd, hlist, hends⟩ := outline_eq_ok_iff.mp h
  have hrest : rest = [] := by
    cases rest with
    | nil => rfl
    | cons t rest => exact absurd (hends t rfl) (hend t (by simp))
  have hparts : n :: d :: listed = [n, d] ++ listed := rfl
  rw [hrest, List.append_nil, hparts, List.map_append, Stage.run_append, run_head hn hd]
  exact hlist.run

theorem outline_ok_iff_run (final : Token) (hend : ∀ t ∈ ts, t.kind ≠ .endOfLine) :
    (∃ o rest, outline final ts = .ok o rest) ↔
      Stage.name.run (ts.map (·.kind)) = some (.inField []) := by
  constructor
  · intro h
    obtain ⟨o, rest, ho⟩ := h
    exact run_of_outline hend ho
  · intro hrun
    cases ho : outline final ts with
    | ok o rest => exact ⟨o, rest, rfl⟩
    | error e rest => exact absurd hrun (faultFrom_of_outline hend ho).run_ne

end

end Grammar

end TaggedUnion
