import TaggedUnion.Proofs.Line.FieldReading
import TaggedUnion.Proofs.Line.TokenPlaces

/-!
# Lines under other numbers

The number of a line only says where its faults are. Under another number a line has the same
tokens and the same variant, and a fault differs from the one before by its line alone.

Numbers are changed by a function, which need not tell lines apart. A fault that names a line, as a
repeated declaration does, names the changed one. A line on its own has no such fault: what is found
in it is found on its line, and behind the name it concerns the variant.
-/

namespace TaggedUnion

open Text

def Place.renumber (f : Nat → Nat) (p : Place) : Place :=
  ⟨f p.line, p.column⟩

def Token.renumber (f : Nat → Nat) (t : Token) : Token :=
  { t with place := t.place.renumber f }

def Opening.renumber (f : Nat → Nat) (o : Opening) : Opening :=
  { o with place := o.place.renumber f }

/-- Only a repeated declaration names a line. -/
def Cause.renumber (f : Nat → Nat) : Cause → Cause
  | .duplicate variant firstLine => .duplicate variant (f firstLine)
  | cause => cause

def Fault.renumber (f : Nat → Nat) (e : Fault) : Fault :=
  ⟨e.cause.renumber f, e.place.map (Place.renumber f)⟩

/-- The scanner at the same place of a line with another number. -/
def Scanner.renumber (f : Nat → Nat) (s : Scanner) : Scanner :=
  { s with place := s.place.renumber f }

@[simp] theorem Token.renumber_kind (f : Nat → Nat) (t : Token) :
    (t.renumber f).kind = t.kind := rfl

@[simp] theorem Token.renumber_span (f : Nat → Nat) (t : Token) :
    (t.renumber f).span = t.span := rfl

namespace Scanner

theorem locate_renumber (f : Nat → Nat) (s : Scanner) (ps : List Piece) :
    (s.renumber f).locate ps = (s.locate ps).map (Token.renumber f) := by
  induction ps generalizing s with
  | nil => rfl
  | cons p ps ih =>
      have hnext : (s.renumber f).advance p.text = (s.advance p.text).renumber f := rfl
      cases hk : p.kind? with
      | none => rw [locate_cons_blank hk, locate_cons_blank hk, hnext, ih]
      | some kind =>
          rw [locate_cons_token hk, locate_cons_token hk, hnext, ih]
          rfl

end Scanner

namespace Grammar
variable (f : Nat → Nat)

/-- What a reader gives, with every place on the changed line. -/
def renumbered {α : Type} :
    EStateM.Result Fault (List Token) α → EStateM.Result Fault (List Token) α
  | .ok a ts => .ok a (ts.map (Token.renumber f))
  | .error e ts => .error (e.renumber f) (ts.map (Token.renumber f))

theorem name_renumber (final : Token) (ts : List Token) :
    name (final.renumber f) (ts.map (Token.renumber f)) = renumbered f (name final ts) := by
  cases ts with
  | nil => rfl
  | cons t ts =>
      simp only [List.map_cons, name, Token.renumber_kind]
      cases t.kind <;> rfl

theorem delimiter_renumber (final : Token) (variant : String) (ts : List Token) :
    delimiter (final.renumber f) variant (ts.map (Token.renumber f)) =
      renumbered f (delimiter final variant ts) := by
  cases ts with
  | nil => rfl
  | cons t ts =>
      simp only [List.map_cons, delimiter, Token.renumber_kind]
      cases t.kind <;> rfl

theorem lineEnd_renumber (variant : String) (ts : List Token) :
    lineEnd variant (ts.map (Token.renumber f)) = renumbered f (lineEnd variant ts) := by
  cases ts with
  | nil => rfl
  | cons t ts =>
      simp only [List.map_cons, lineEnd, Token.renumber_kind]
      cases t.kind <;> rfl

theorem fieldEnd_renumber (variant : String) (stop : Nat) (openings : List Opening)
    (ts : List Token) :
    fieldEnd variant stop (openings.map (Opening.renumber f)) (ts.map (Token.renumber f)) =
      renumbered f (fieldEnd variant stop openings ts) := by
  cases openings <;> rfl

theorem closes_renumber (openings : List Opening) (c : Char) :
    closes (openings.map (Opening.renumber f)) c = closes openings c := by
  cases openings <;> rfl

theorem fieldRest_renumber (variant : String) (stop : Nat) (openings : List Opening)
    (ts : List Token) :
    fieldRest variant stop (openings.map (Opening.renumber f)) (ts.map (Token.renumber f)) =
      renumbered f (fieldRest variant stop openings ts) := by
  induction ts generalizing stop openings with
  | nil => exact fieldEnd_renumber f variant stop openings []
  | cons t ts ih =>
      rw [List.map_cons, fieldRest, fieldRest, Token.renumber_kind, Token.renumber_span]
      cases t.kind with
      | endOfLine => exact fieldEnd_renumber f variant stop openings (t :: ts)
      | comma =>
          cases openings with
          | nil => rfl
          | cons o os => exact ih t.span.stop (o :: os)
      | pipe => rfl
      | opener c => exact ih t.span.stop (⟨c, t.place⟩ :: openings)
      | closer c =>
          simp only [closes_renumber, ← List.map_tail]
          split
          · exact ih t.span.stop openings.tail
          · rfl
      | word w => exact ih t.span.stop openings
      | arrow => exact ih t.span.stop openings
      | symbol c => exact ih t.span.stop openings

theorem field_renumber (final : Token) (variant : String) (ts : List Token) :
    field (final.renumber f) variant (ts.map (Token.renumber f)) =
      renumbered f (field final variant ts) := by
  cases ts with
  | nil => rfl
  | cons t ts =>
      have hrest := fieldRest_renumber f variant t.span.start [] (t :: ts)
      rw [List.map_nil, List.map_cons] at hrest
      rw [List.map_cons, field, field, Token.renumber_kind, Token.renumber_span, hrest]
      cases fieldRest variant t.span.start [] (t :: ts) <;> cases t.kind <;> rfl

theorem fields_renumber (final : Token) (variant : String) (ts : List Token) :
    fields (final.renumber f) variant (ts.map (Token.renumber f)) =
      renumbered f (fields final variant ts) := by
  induction hn : ts.length using Nat.strong_induction_on generalizing ts with
  | h n ih =>
      have hfield := field_renumber f final variant ts
      cases hf : field final variant ts with
      | error e rest =>
          rw [hf] at hfield
          rw [fields_of_error hf, fields_of_error hfield]
          rfl
      | ok s rest =>
          rw [hf] at hfield
          by_cases hr : ∀ t ∈ rest.head?, t.kind ≠ .comma
          · have hr' : ∀ t ∈ (rest.map (Token.renumber f)).head?, t.kind ≠ .comma := by
              cases rest with
              | nil => simp
              | cons t rest => simpa using hr
            rw [fields_of_stop hf hr, fields_of_stop hfield hr']
            rfl
          · obtain ⟨comma, rest, rfl, hcomma⟩ := exists_comma hr
            have hlt : rest.length < n := by
              have hlength := field_length_lt hf
              rw [List.length_cons] at hlength
              omega
            rw [fields_of_comma hf hcomma, fields_of_comma hfield hcomma,
              ih rest.length hlt rest rfl]
            cases fields final variant rest <;> rfl

theorem outline_renumber (final : Token) (ts : List Token) :
    outline (final.renumber f) (ts.map (Token.renumber f)) = renumbered f (outline final ts) := by
  rw [outline_eq, outline_eq, name_renumber]
  cases name final ts with
  | error e rest => rfl
  | ok variant ts₁ =>
      simp only [renumbered, delimiter_renumber]
      cases delimiter final variant ts₁ with
      | error e rest => rfl
      | ok u ts₂ =>
          simp only [renumbered, fields_renumber]
          cases fields final variant ts₂ with
          | error e rest => rfl
          | ok spans ts₃ =>
              simp only [renumbered, lineEnd_renumber]
              cases lineEnd variant ts₃ <;> rfl

end Grammar

/-- The causes of faults behind the name of a variant. -/
inductive Cause.Concerns (variant : String) : Cause → Prop
  | endsAfterName : Concerns variant (.endsAfterName variant)
  | secondWord (found : String) : Concerns variant (.secondWord variant found)
  | delimiterExpected (found : Token.Kind) : Concerns variant (.delimiterExpected variant found)
  | emptyField : Concerns variant (.emptyField variant)
  | strayPipe : Concerns variant (.strayPipe variant)
  | unmatched (bracket : Char) : Concerns variant (.unmatched bracket variant)
  | unclosed (bracket : Char) : Concerns variant (.unclosed bracket variant)

/-- The fault has a place and concerns the variant. -/
def Fault.Concerns (variant : String) (e : Fault) : Prop :=
  ∃ place cause, e = .located place cause ∧ cause.Concerns variant

namespace Grammar
variable {final : Token} {variant : String} {ts rest : List Token} {e : Fault}

theorem concerns_of_delimiter (h : delimiter final variant ts = .error e rest) :
    e.Concerns variant := by
  cases ts with
  | nil =>
      obtain ⟨rfl, -⟩ := EStateM.Result.error.inj h
      exact ⟨_, _, rfl, .endsAfterName⟩
  | cons t ts =>
      rcases delimiter_eq_error_cases h with ⟨-, rfl⟩ | ⟨w, -, rfl⟩ | ⟨-, rfl⟩
      · exact ⟨_, _, rfl, .endsAfterName⟩
      · exact ⟨_, _, rfl, .secondWord w⟩
      · exact ⟨_, _, rfl, .delimiterExpected t.kind⟩

theorem concerns_of_fieldEnd {stop : Nat} {openings : List Opening}
    (h : fieldEnd variant stop openings ts = .error e rest) : e.Concerns variant := by
  cases openings with
  | nil => simp [fieldEnd] at h
  | cons o os =>
      obtain ⟨rfl, -⟩ := EStateM.Result.error.inj h
      exact ⟨_, _, rfl, .unclosed _⟩

theorem concerns_of_fieldRest {stop : Nat} {openings : List Opening}
    (h : fieldRest variant stop openings ts = .error e rest) : e.Concerns variant := by
  induction ts generalizing stop openings with
  | nil => exact concerns_of_fieldEnd h
  | cons t ts ih =>
      cases hp : pass (bracketsOf openings) t.kind with
      | some brackets =>
          rw [fieldRest_of_pass ts hp] at h
          exact ih h
      | none =>
          rcases fieldRest_of_not_pass variant stop ts hp with
            ⟨-, -, hr⟩ | ⟨-, hr⟩ | ⟨-, hr⟩ | ⟨c, -, hr⟩
          · simp [hr] at h
          · exact concerns_of_fieldEnd (hr.symm.trans h)
          · obtain ⟨rfl, -⟩ := EStateM.Result.error.inj (hr.symm.trans h)
            exact ⟨_, _, rfl, .strayPipe⟩
          · obtain ⟨rfl, -⟩ := EStateM.Result.error.inj (hr.symm.trans h)
            exact ⟨_, _, rfl, .unmatched c⟩

theorem concerns_of_field (h : field final variant ts = .error e rest) : e.Concerns variant := by
  cases ts with
  | nil =>
      obtain ⟨rfl, -⟩ := EStateM.Result.error.inj h
      exact ⟨_, _, rfl, .emptyField⟩
  | cons t ts =>
      rcases field_eq_error_cases h with ⟨-, rfl, -⟩ | hr
      · exact ⟨_, _, rfl, .emptyField⟩
      · exact concerns_of_fieldRest hr

theorem concerns_of_fields (h : fields final variant ts = .error e rest) :
    e.Concerns variant := by
  induction hn : ts.length using Nat.strong_induction_on generalizing ts rest with
  | h n ih =>
      rcases fields_eq_error_cases h with hf | ⟨s, comma, more, hf, -, hmore⟩
      · exact concerns_of_field hf
      · have hlength := field_length_lt hf
        rw [List.length_cons] at hlength
        exact ih more.length (by omega) hmore rfl

/-- What can be wrong with a line: it has no tokens, or does not start with a word, or has a fault
behind its name. -/
theorem outline_error_cases (h : outline final ts = .error e rest) :
    (∃ place, e = .located place .emptyLine ∧ Ends ts) ∨
      (∃ t more, ts = t :: more ∧ (∀ w, t.kind ≠ .word w) ∧
        e = .located t.place (.nameExpected t.kind)) ∨
      ∃ t more variant, ts = t :: more ∧ t.kind = .word variant ∧ e.Concerns variant := by
  rcases outline_eq_error_cases h with
    hname | ⟨n, w, more, rfl, hn, hdelimiter⟩ | ⟨n, d, w, more, rfl, hn, -, hfields⟩
  · cases ts with
    | nil =>
        obtain ⟨rfl, -⟩ := EStateM.Result.error.inj hname
        exact .inl ⟨_, rfl, by simp [Ends]⟩
    | cons t ts =>
        rcases name_eq_error_cases hname with ⟨hk, rfl⟩ | ⟨hword, rfl⟩
        · exact .inl ⟨_, rfl, by simpa [Ends] using hk⟩
        · exact .inr (.inl ⟨t, ts, rfl, hword, rfl⟩)
  · exact .inr (.inr ⟨n, more, w, rfl, hn, concerns_of_delimiter hdelimiter⟩)
  · exact .inr (.inr ⟨n, d :: more, w, rfl, hn, concerns_of_fields hfields⟩)

end Grammar

/-- Under another number a line is read in the same way, and its fault is on the line of that
number. -/
theorem Variant.parse_renumber (f : Nat → Nat) (line : Nat) (text : String) :
    Variant.parse (f line) text = (Variant.parse line text).mapError (Fault.renumber f) := by
  have hread := Grammar.outline_renumber f (Scanner.start line text).final
    (Scanner.start line text).tokens
  have htokens : (Scanner.start (f line) text).tokens =
      (Scanner.start line text).tokens.map (Token.renumber f) :=
    Scanner.locate_renumber f (Scanner.start line text) _
  have hfinal : (Scanner.start (f line) text).final =
      (Scanner.start line text).final.renumber f := rfl
  simp only [Variant.parse, LineReader.start, LineReader.read, htokens, hfinal, hread]
  cases Grammar.outline (Scanner.start line text).final (Scanner.start line text).tokens <;> rfl

theorem Cause.Concerns.category_ne {variant : String} {cause : Cause} (h : cause.Concerns variant) :
    cause.category ≠ .duplicateVariant ∧ cause.category ≠ .invalidName ∧ cause ≠ .emptyLine := by
  cases h <;> simp [category]

/-- A line without tokens is blank. -/
theorem isBlank_of_ends {line : Nat} {text : String}
    (h : Grammar.Ends (Scanner.start line text).tokens) : IsBlank text.toList := by
  intro c hc
  obtain ⟨before, after, htext⟩ := List.append_of_mem hc
  have hnil : (Scanner.start line text).tokens = [] := by
    cases htokens : (Scanner.start line text).tokens with
    | nil => rfl
    | cons t ts =>
        have hmem : t ∈ (Scanner.start line text).tokens := by simp [htokens]
        rw [htokens] at h
        exact absurd (h t rfl) (Scanner.kind_ne_endOfLine_of_mem_locate hmem)
  have hcovered := Scanner.covered_iff line htext
  rw [hnil] at hcovered
  simpa using hcovered

/-- The fault of a line is on that line, and it is no repeated declaration. Only a blank line is
told to be empty. -/
theorem Variant.parse_error_cases {line : Nat} {text : String} {e : Fault}
    (h : Variant.parse line text = .error e) :
    ∃ column cause, e = .located ⟨line, column⟩ cause ∧ cause.category ≠ .duplicateVariant ∧
      (cause = .emptyLine → IsBlank text.toList) := by
  obtain ⟨rest, ho⟩ := (LineReader.read_eq_error_iff _).mp h
  -- Numbering the line as it is numbered changes nothing, so its number is in the fault.
  have hsame : e.renumber (fun _ => line) = e := by
    have hparse := Variant.parse_renumber (fun _ => line) line text
    rw [h] at hparse
    exact (Except.error.inj hparse).symm
  have hline : ∀ place cause, e = .located place cause →
      e = .located ⟨line, place.column⟩ cause := by
    rintro place cause rfl
    have hplace := congrArg Fault.place hsame
    exact congrArg (Fault.mk cause) hplace.symm
  obtain ⟨place, he, hends⟩ | ⟨t, -, -, -, he⟩ |
      ⟨-, -, variant, -, -, place, cause, he, hconcerns⟩ := Grammar.outline_error_cases ho
  · exact ⟨_, _, hline place _ he, by simp [Cause.category], fun _ => isBlank_of_ends hends⟩
  · exact ⟨_, _, hline t.place _ he, by simp [Cause.category], by simp⟩
  · exact ⟨_, _, hline place _ he, hconcerns.category_ne.1,
      fun hc => absurd hc hconcerns.category_ne.2.2⟩

end TaggedUnion
