import TaggedUnion.Fault

/-!
# The grammar of a node line

A node line is a word, a `|` and one or more fields divided by commas. A field is a run of tokens
whose brackets are balanced; a comma inside brackets belongs to the field, and a `|` belongs to
none.

The readers here work on the tokens that are still ahead and give back those that remain, after a
fault as well. The token that ends the line is given apart, as `final`: it stands behind the last
token ahead and is never passed. Nothing behind an end-of-line token is read either.

A field is found as a range of byte positions. Reading does not look at the text of the line.
-/

namespace TaggedUnion

/-- The name of a variant, and where its fields lie in the line. -/
structure Outline where
  name : String
  fields : List Span
  deriving DecidableEq, Repr

/-- A bracket that waits for its partner. -/
structure Opening where
  bracket : Char
  place : Place
  deriving DecidableEq, Repr

namespace Grammar

/-- Readers of the tokens ahead. A reader that finds a fault leaves the tokens it has passed
behind. -/
abbrev Reader := EStateM Fault (List Token)

/-- Reads the name of the variant. A token that is not a word is passed too. -/
def name (final : Token) : Reader String
  | [] => .error (.located final.place .emptyLine) []
  | t :: ts =>
    match t.kind with
    | .word w => .ok w ts
    | .endOfLine => .error (.located t.place .emptyLine) (t :: ts)
    | k => .error (.located t.place (.nameExpected k)) ts

/-- Reads the `|` behind the name. Any other token is passed too. -/
def delimiter (final : Token) (variant : String) : Reader Unit
  | [] => .error (.located final.place (.endsAfterName variant)) []
  | t :: ts =>
    match t.kind with
    | .pipe => .ok () ts
    | .endOfLine => .error (.located t.place (.endsAfterName variant)) (t :: ts)
    | .word w => .error (.located t.place (.secondWord variant w)) ts
    | k => .error (.located t.place (.delimiterExpected variant k)) ts

def closes (openings : List Opening) (bracket : Char) : Bool :=
  match openings with
  | [] => false
  | o :: _ => closingOf o.bracket = some bracket

def fieldEnd (variant : String) (stop : Nat) (openings : List Opening) : Reader Nat := fun ts =>
  match openings with
  | [] => .ok stop ts
  | o :: _ => .error (.located o.place (.unclosed o.bracket variant)) ts

/-- Reads on in a field that reaches up to `stop`, with brackets still open, innermost first. Gives
the position where the field ends. The token a fault is found at stays ahead. -/
def fieldRest (variant : String) (stop : Nat) (openings : List Opening) : Reader Nat
  | [] => fieldEnd variant stop openings []
  | t :: ts =>
    match t.kind with
    | .endOfLine => fieldEnd variant stop openings (t :: ts)
    | .comma =>
      if openings.isEmpty then .ok stop (t :: ts) else fieldRest variant t.span.stop openings ts
    | .pipe => .error (.located t.place (.strayPipe variant)) (t :: ts)
    | .opener c => fieldRest variant t.span.stop (⟨c, t.place⟩ :: openings) ts
    | .closer c =>
      if closes openings c then fieldRest variant t.span.stop openings.tail ts
      else .error (.located t.place (.unmatched c variant)) (t :: ts)
    | .word _ | .arrow | .symbol _ => fieldRest variant t.span.stop openings ts

def field (final : Token) (variant : String) : Reader Span
  | [] => .error (.located final.place (.emptyField variant)) []
  | t :: ts =>
    match t.kind with
    | .comma | .endOfLine => .error (.located t.place (.emptyField variant)) (t :: ts)
    | _ =>
      match fieldRest variant t.span.start [] (t :: ts) with
      | .ok stop rest => .ok ⟨t.span.start, stop⟩ rest
      | .error e rest => .error e rest

theorem fieldRest_length_le {variant : String} {stop stop' : Nat} {openings : List Opening}
    {ts rest : List Token} (h : fieldRest variant stop openings ts = .ok stop' rest) :
    rest.length ≤ ts.length := by
  induction ts generalizing stop openings with
  | nil =>
    cases openings <;> simp_all [fieldRest, fieldEnd]
  | cons t ts ih =>
    rw [fieldRest] at h
    split at h
    · cases openings <;> simp_all [fieldEnd]
    · split at h
      · simp_all
      · exact Nat.le_succ_of_le (ih h)
    · simp at h
    · exact Nat.le_succ_of_le (ih h)
    · split at h
      · exact Nat.le_succ_of_le (ih h)
      · simp at h
    all_goals exact Nat.le_succ_of_le (ih h)

/-- A token that does not end a field is passed. -/
theorem fieldRest_length_lt {variant : String} {stop stop' : Nat} {openings : List Opening}
    {t : Token} {ts rest : List Token} (hcomma : t.kind ≠ .comma) (hend : t.kind ≠ .endOfLine)
    (h : fieldRest variant stop openings (t :: ts) = .ok stop' rest) :
    rest.length < (t :: ts).length := by
  rw [fieldRest] at h
  cases hk : t.kind with
  | comma => exact absurd hk hcomma
  | endOfLine => exact absurd hk hend
  | pipe => simp [hk] at h
  | closer c =>
    simp only [hk] at h
    split at h
    · exact Nat.lt_succ_of_le (fieldRest_length_le h)
    · simp at h
  | _ =>
    simp only [hk] at h
    exact Nat.lt_succ_of_le (fieldRest_length_le h)

theorem field_length_lt {final : Token} {variant : String} {ts rest : List Token} {s : Span}
    (h : field final variant ts = .ok s rest) : rest.length < ts.length := by
  cases ts with
  | nil => simp [field] at h
  | cons t ts =>
    rw [field] at h
    cases hk : t.kind with
    | comma => simp [hk] at h
    | endOfLine => simp [hk] at h
    | _ =>
      cases hr : fieldRest variant t.span.start [] (t :: ts) with
      | error e left => simp [hk, hr] at h
      | ok stop left =>
        simp only [hk, hr, EStateM.Result.ok.injEq] at h
        rw [← h.2]
        exact fieldRest_length_lt (by simp [hk]) (by simp [hk]) hr

def fields (final : Token) (variant : String) (ts : List Token) :
    EStateM.Result Fault (List Token) (List Span) :=
  match h : field final variant ts with
  | .error e rest => .error e rest
  | .ok s [] => .ok [s] []
  | .ok s (t :: rest) =>
    match t.kind with
    | .comma =>
      have : rest.length < ts.length := Nat.lt_of_succ_lt (field_length_lt h)
      match fields final variant rest with
      | .ok more rest' => .ok (s :: more) rest'
      | .error e rest' => .error e rest'
    | _ => .ok [s] (t :: rest)
termination_by ts.length

def lineEnd (variant : String) : Reader Unit
  | [] => .ok () []
  | t :: ts =>
    match t.kind with
    | .endOfLine => .ok () (t :: ts)
    | k => .error (.located t.place (.trailing k variant)) (t :: ts)

def outline (final : Token) : Reader Outline := do
  let variant ← name final
  delimiter final variant
  let spans ← fields final variant
  lineEnd variant
  return ⟨variant, spans⟩

end Grammar

end TaggedUnion
