import Mathlib.Logic.Function.Iterate
import Mathlib.Order.Monotone.Basic
import TaggedUnion.Proofs.Line.FieldReading

/-!
# Where a line reader stands

A reader that is used again goes on where the last reading ended, after a fault as well. No reading
passes an end of the line, and every reading passes at least one token, unless it starts at the
first end. There the reader stays, and it is told each time that there is nothing to read.

What a reader passes is followed through the grammar: one part at a time, then the whole line, then
any number of readings. The tokens may be any list that ends with an end of the line. They need not
come from a line, and may hold further ends.
-/

namespace TaggedUnion

namespace Grammar

/-- Of the tokens ahead, `rest` are still there, and no end of the line has been passed. -/
def Remains (ts rest : List Token) : Prop :=
  ∃ passed, ts = passed ++ rest ∧ ∀ t ∈ passed, t.kind ≠ .endOfLine

/-- What a reader leaves ahead, after a fault as well. -/
def left {α : Type} : EStateM.Result Fault (List Token) α → List Token
  | .ok _ rest => rest
  | .error _ rest => rest

/-- How many tokens stand before the first end of the line. -/
def lengthToEnd (ts : List Token) : Nat :=
  ts.findIdx fun t => t.kind = .endOfLine

namespace Remains
variable {ts rest more : List Token}

theorem refl (ts : List Token) : Remains ts ts :=
  ⟨[], by simp⟩

theorem cons {t : Token} (ht : t.kind ≠ .endOfLine) (h : Remains ts rest) :
    Remains (t :: ts) rest := by
  obtain ⟨passed, hts, hpassed⟩ := h
  refine ⟨t :: passed, by rw [hts, List.cons_append], ?_⟩
  intro u hu
  rcases List.mem_cons.mp hu with hu | hu
  · rwa [hu]
  · exact hpassed u hu

theorem trans (h : Remains ts rest) (h' : Remains rest more) : Remains ts more := by
  obtain ⟨passed, hts, hpassed⟩ := h
  obtain ⟨passed', hrest, hpassed'⟩ := h'
  refine ⟨passed ++ passed', by rw [hts, hrest, List.append_assoc], ?_⟩
  intro t ht
  rcases List.mem_append.mp ht with ht | ht
  · exact hpassed t ht
  · exact hpassed' t ht

theorem append_right (h : Remains ts rest) (more : List Token) :
    Remains (ts ++ more) (rest ++ more) := by
  obtain ⟨passed, hts, hpassed⟩ := h
  exact ⟨passed, by rw [hts, List.append_assoc], hpassed⟩

theorem length_le (h : Remains ts rest) : rest.length ≤ ts.length := by
  obtain ⟨passed, hts, -⟩ := h
  rw [hts, List.length_append]
  omega

/-- The first end comes nearer by as many tokens as were passed. -/
theorem lengthToEnd_add (h : Remains ts rest) :
    lengthToEnd ts + rest.length = lengthToEnd rest + ts.length := by
  obtain ⟨passed, hts, hpassed⟩ := h
  have hidx : lengthToEnd ts = lengthToEnd rest + passed.length := by
    have hnone : passed.findIdx (fun t => decide (t.kind = .endOfLine)) = passed.length := by
      rw [List.findIdx_eq_length]
      simpa using hpassed
    rw [hts, lengthToEnd, List.findIdx_append, hnone]
    simp [lengthToEnd]
  rw [hidx, hts, List.length_append]
  omega

end Remains

/-- The reader passes no end of the line. -/
def StopsAtEnd {α : Type} (x : Reader α) : Prop :=
  ∀ ts, Remains ts (left (x ts))

/-- What comes second goes on from what the first has left. -/
theorem remains_bind {α β : Type} (x : Reader α) {f : α → Reader β} (hf : ∀ a, StopsAtEnd (f a))
    (ts : List Token) : Remains (left (x ts)) (left ((x >>= f) ts)) := by
  simp only [bind, EStateM.bind]
  cases x ts with
  | ok a rest => exact hf a rest
  | error e rest => exact .refl rest

theorem StopsAtEnd.bind {α β : Type} {x : Reader α} {f : α → Reader β} (hx : StopsAtEnd x)
    (hf : ∀ a, StopsAtEnd (f a)) : StopsAtEnd (x >>= f) :=
  fun ts => (hx ts).trans (remains_bind x hf ts)

theorem stopsAtEnd_pure {α : Type} (a : α) : StopsAtEnd (pure a) :=
  fun ts => .refl ts

theorem stopsAtEnd_name (final : Token) : StopsAtEnd (name final) := by
  intro ts
  cases ts with
  | nil => exact .refl []
  | cons t ts =>
      cases hk : t.kind with
      | endOfLine =>
          simp only [name, hk]
          exact .refl (t :: ts)
      | _ =>
          simp only [name, hk]
          exact .cons (by simp [hk]) (.refl ts)

theorem stopsAtEnd_delimiter (final : Token) (variant : String) :
    StopsAtEnd (delimiter final variant) := by
  intro ts
  cases ts with
  | nil => exact .refl []
  | cons t ts =>
      cases hk : t.kind with
      | endOfLine =>
          simp only [delimiter, hk]
          exact .refl (t :: ts)
      | _ =>
          simp only [delimiter, hk]
          exact .cons (by simp [hk]) (.refl ts)

theorem left_fieldEnd (variant : String) (stop : Nat) (openings : List Opening) (ts : List Token) :
    left (fieldEnd variant stop openings ts) = ts := by
  cases openings <;> rfl

/-- Whatever a field stops at stays ahead. -/
theorem left_fieldRest_of_not_pass (variant : String) (stop : Nat) {openings : List Opening}
    {t : Token} (ts : List Token) (h : pass (bracketsOf openings) t.kind = none) :
    left (fieldRest variant stop openings (t :: ts)) = t :: ts := by
  rcases fieldRest_of_not_pass variant stop ts h with
    ⟨-, -, hr⟩ | ⟨-, hr⟩ | ⟨-, hr⟩ | ⟨c, -, hr⟩
  · rw [hr, left]
  · rw [hr, left_fieldEnd]
  · rw [hr, left]
  · rw [hr, left]

theorem stopsAtEnd_fieldRest (variant : String) (stop : Nat) (openings : List Opening) :
    StopsAtEnd (fieldRest variant stop openings) := by
  intro ts
  induction ts generalizing stop openings with
  | nil =>
      rw [fieldRest, left_fieldEnd]
      exact .refl []
  | cons t ts ih =>
      cases hp : pass (bracketsOf openings) t.kind with
      | some brackets =>
          have hend : t.kind ≠ .endOfLine := by
            intro hk
            simp [hk, pass] at hp
          rw [fieldRest_of_pass ts hp]
          exact .cons hend (ih _ _)
      | none =>
          rw [left_fieldRest_of_not_pass variant stop ts hp]
          exact .refl (t :: ts)

theorem stopsAtEnd_field (final : Token) (variant : String) : StopsAtEnd (field final variant) := by
  intro ts
  cases ts with
  | nil => exact .refl []
  | cons t ts =>
      have hrest := stopsAtEnd_fieldRest variant t.span.start [] (t :: ts)
      cases hf : field final variant (t :: ts) with
      | ok s rest =>
          obtain ⟨-, -, hr⟩ := field_cons_eq_ok_iff.mp hf
          rwa [hr] at hrest
      | error e rest =>
          rcases field_eq_error_cases hf with ⟨-, -, hsame⟩ | hr
          · rw [left, hsame]
            exact .refl (t :: ts)
          · rwa [hr] at hrest

theorem stopsAtEnd_fields (final : Token) (variant : String) :
    StopsAtEnd (fields final variant) := by
  intro ts
  induction hn : ts.length using Nat.strong_induction_on generalizing ts with
  | h n ih =>
      have hfield := stopsAtEnd_field final variant ts
      cases hf : field final variant ts with
      | error e rest =>
          rw [hf] at hfield
          rw [fields_of_error hf]
          exact hfield
      | ok s rest =>
          rw [hf] at hfield
          by_cases hr : ∀ t ∈ rest.head?, t.kind ≠ .comma
          · rw [fields_of_stop hf hr]
            exact hfield
          · obtain ⟨comma, rest, rfl, hcomma⟩ := exists_comma hr
            have hlt : rest.length < n := by
              have hlength := field_length_lt hf
              rw [List.length_cons] at hlength
              omega
            have hmore := ih rest.length hlt rest rfl
            have hleft : left (fields final variant ts) = left (fields final variant rest) := by
              rw [fields_of_comma hf hcomma]
              cases fields final variant rest <;> rfl
            rw [hleft]
            exact hfield.trans (.cons (by simp [hcomma]) hmore)

theorem stopsAtEnd_lineEnd (variant : String) : StopsAtEnd (lineEnd variant) := by
  intro ts
  cases ts with
  | nil => exact .refl []
  | cons t ts =>
      rw [lineEnd]
      split <;> exact .refl (t :: ts)

/-- Behind the name, too, a line is read up to its end at most. -/
theorem remains_outline_of_name (final : Token) (ts : List Token) :
    Remains (left (name final ts)) (left (outline final ts)) :=
  remains_bind (name final) (fun variant =>
    (stopsAtEnd_delimiter final variant).bind fun _ =>
      (stopsAtEnd_fields final variant).bind fun _ =>
        (stopsAtEnd_lineEnd variant).bind fun _ => stopsAtEnd_pure _) ts

theorem stopsAtEnd_outline (final : Token) : StopsAtEnd (outline final) :=
  fun ts => (stopsAtEnd_name final ts).trans (remains_outline_of_name final ts)

/-- A reading passes at least one token, unless it starts at an end. -/
theorem length_left_outline_lt (final : Token) {ts : List Token} (h : ¬ Ends ts) :
    (left (outline final ts)).length < ts.length := by
  have hle := (remains_outline_of_name final ts).length_le
  have hlt : (left (name final ts)).length < ts.length := by
    cases ts with
    | nil => simp [Ends] at h
    | cons t ts =>
        cases hk : t.kind with
        | endOfLine => exact absurd (by simpa [Ends] using hk) h
        | _ => simp [name, hk, left]
  omega

/-- At an end there is nothing to read. -/
theorem outline_of_ends (final : Token) {ts : List Token} (h : Ends ts) :
    outline final ts = .error (.located (ts.headD final).place .emptyLine) ts := by
  cases ts with
  | nil => rfl
  | cons t ts =>
      have hk := h t rfl
      simp [outline_eq, name, hk]

theorem ends_iff_lengthToEnd {final : Token} (hfinal : final.kind = .endOfLine) (ts : List Token) :
    Ends ts ↔ lengthToEnd (ts ++ [final]) = 0 := by
  cases ts with
  | nil => simp [Ends, lengthToEnd, hfinal]
  | cons t ts => simp [Ends, lengthToEnd, List.findIdx_cons, cond_eq_ite]

end Grammar

namespace LineReader

open Grammar

/-- The token that the reader is at. -/
def current (r : LineReader) : Token :=
  r.ahead.headD r.final

/-- The reader behind `n` readings. -/
def after (r : LineReader) (n : Nat) : LineReader :=
  (fun r => r.read.2)^[n] r

/-- The reader is on its way through the tokens, before their first end or at it. -/
structure Follows (r : LineReader) (tokens : List Token) : Prop where
  final_kind : r.final.kind = .endOfLine
  remains : Remains tokens (r.ahead ++ [r.final])
  length_eq : r.passed + (r.ahead.length + 1) = tokens.length

theorem follows_ofTokens? {text : String} {tokens : List Token} {r : LineReader}
    (hr : ofTokens? text tokens = some r) (hend : ∀ t ∈ tokens.getLast?, t.kind = .endOfLine) :
    r.Follows tokens := by
  obtain ⟨final, hfinal, rfl⟩ := Option.map_eq_some_iff.mp hr
  have htokens : tokens.dropLast ++ [final] = tokens := List.dropLast_append_getLast? final hfinal
  refine ⟨hend final hfinal, ?_, ?_⟩
  · rw [htokens]
    exact .refl tokens
  · conv_rhs => rw [← htokens]
    simp

theorem after_succ (r : LineReader) (n : Nat) : r.after (n + 1) = (r.after n).read.2 :=
  Function.iterate_succ_apply' _ n r

theorem read_snd (r : LineReader) : r.read.2 = r.moveTo (left (outline r.final r.ahead)) := by
  rw [read]
  cases outline r.final r.ahead <;> rfl

namespace Follows
variable {r : LineReader} {tokens : List Token}

/-- A reading keeps the reader on its way. -/
theorem read (h : r.Follows tokens) : r.read.2.Follows tokens := by
  have hleft := stopsAtEnd_outline r.final r.ahead
  have hle := hleft.length_le
  have hlength := h.length_eq
  rw [read_snd]
  refine ⟨h.final_kind, h.remains.trans (hleft.append_right [r.final]), ?_⟩
  simp only [moveTo]
  omega

theorem after (h : r.Follows tokens) (n : Nat) : (r.after n).Follows tokens := by
  induction n with
  | zero => exact h
  | succ n ih =>
      rw [after_succ]
      exact ih.read

/-- What has been passed and what is left before the first end make up all that stands before it. -/
theorem passed_add (h : r.Follows tokens) :
    r.passed + lengthToEnd (r.ahead ++ [r.final]) = lengthToEnd tokens := by
  have hcount := h.remains.lengthToEnd_add
  have hlength := h.length_eq
  rw [List.length_append, List.length_singleton] at hcount
  omega

theorem ends_iff (h : r.Follows tokens) : Ends r.ahead ↔ r.passed = lengthToEnd tokens := by
  have hsum := h.passed_add
  rw [ends_iff_lengthToEnd h.final_kind]
  omega

theorem getElem?_passed (h : r.Follows tokens) : tokens[r.passed]? = some r.current := by
  obtain ⟨before, htokens, -⟩ := h.remains
  have hlength := h.length_eq
  have hbefore : before.length = r.passed := by
    rw [htokens] at hlength
    simp only [List.length_append, List.length_singleton] at hlength
    omega
  rw [htokens, ← hbefore, List.getElem?_append_right (Nat.le_refl _), Nat.sub_self, current]
  cases r.ahead <;> rfl

theorem passed_le_lengthToEnd (h : r.Follows tokens) : r.passed ≤ lengthToEnd tokens := by
  have hsum := h.passed_add
  omega

theorem passed_lt_read (h : r.Follows tokens) (hlt : r.passed < lengthToEnd tokens) :
    r.passed < r.read.2.passed := by
  have hends : ¬ Ends r.ahead := by
    rw [h.ends_iff]
    omega
  have hlength := length_left_outline_lt r.final hends
  rw [read_snd]
  simp only [moveTo]
  omega

/-- A reading that finds a variant goes up to the first end. -/
theorem passed_of_read_ok (h : r.Follows tokens) {v : Variant} (hv : r.read.1 = .ok v) :
    r.read.2.passed = lengthToEnd tokens := by
  obtain ⟨o, rest, ho, -⟩ := r.read_eq_ok_iff.mp hv
  obtain ⟨-, -, -, -, -, -, -, hends⟩ := outline_eq_ok_iff.mp ho
  rw [← h.read.ends_iff, read_snd, ho]
  exact hends

/-- At the first end the reader stays. -/
theorem read_of_passed_eq (h : r.Follows tokens) (hend : r.passed = lengthToEnd tokens) :
    r.read = (.error (.located r.current.place .emptyLine), r) := by
  have hstays : r.moveTo r.ahead = r := by simp [moveTo]
  simp only [LineReader.read, outline_of_ends r.final (h.ends_iff.mpr hend), hstays, current]

end Follows

theorem passed_le_read (r : LineReader) : r.passed ≤ r.read.2.passed := by
  rw [read_snd]
  simp only [moveTo]
  omega

theorem passed_after_mono (r : LineReader) : Monotone fun n => (r.after n).passed := by
  apply monotone_nat_of_le_succ
  intro n
  rw [after_succ]
  exact passed_le_read (r.after n)

namespace Follows
variable {r : LineReader} {tokens : List Token}

theorem min_le_passed_after (h : r.Follows tokens) (n : Nat) :
    min n (lengthToEnd tokens) ≤ (r.after n).passed := by
  induction n with
  | zero => omega
  | succ n ih =>
      have hmono := passed_le_read (r.after n)
      have hmore := (h.after n).passed_lt_read
      rw [after_succ]
      omega

/-- The first end is reached by as many readings as there are tokens before it, or by fewer. -/
theorem passed_after_of_le (h : r.Follows tokens) {n : Nat} (hn : lengthToEnd tokens ≤ n) :
    (r.after n).passed = lengthToEnd tokens := by
  have hmany := h.min_le_passed_after n
  have hle := (h.after n).passed_le_lengthToEnd
  omega

/-- Behind a reading that finds a variant there is nothing to read. -/
theorem not_ok_of_lt (h : r.Follows tokens) {m n : Nat} {v : Variant} (hmn : m < n)
    (hm : (r.after m).read.1 = .ok v) (w : Variant) : (r.after n).read.1 ≠ .ok w := by
  have hend := (h.after m).passed_of_read_ok hm
  have hmono := r.passed_after_mono (show m + 1 ≤ n from hmn)
  have hle := (h.after n).passed_le_lengthToEnd
  rw [← after_succ] at hend
  simp only [hend] at hmono
  rw [(h.after n).read_of_passed_eq (by omega)]
  simp

end Follows

theorem getElem?_lengthToEnd {tokens : List Token} {stop : Token} (hstop : stop ∈ tokens.getLast?)
    (hend : stop.kind = .endOfLine) :
    ∃ stop, tokens[lengthToEnd tokens]? = some stop ∧ stop.kind = .endOfLine ∧
      ∀ t ∈ tokens.take (lengthToEnd tokens), t.kind ≠ .endOfLine := by
  have hlt : lengthToEnd tokens < tokens.length :=
    List.findIdx_lt_length_of_exists ⟨stop, List.mem_of_mem_getLast? hstop, by simpa using hend⟩
  refine ⟨tokens[lengthToEnd tokens], List.getElem?_eq_getElem hlt, ?_, ?_⟩
  · exact of_decide_eq_true (List.findIdx_getElem (w := hlt))
  · intro t ht
    obtain ⟨i, hi, rfl⟩ := List.mem_take_iff_getElem.mp ht
    simpa using List.not_of_lt_findIdx (show i < lengthToEnd tokens by omega)

/-- However often a reader is used, it moves forward until it is at the first end of the line, and
stays there. At most one reading finds a variant, and that one goes up to the end. Behind as many
readings as there are tokens before the end, the answer is always that there is nothing to read. -/
theorem readings_positions {text : String} {tokens : List Token} {r : LineReader}
    (hr : ofTokens? text tokens = some r) (hend : ∀ t ∈ tokens.getLast?, t.kind = .endOfLine) :
    ∃ z stop nothing, tokens[z]? = some stop ∧ stop.kind = .endOfLine ∧
      (∀ t ∈ tokens.take z, t.kind ≠ .endOfLine) ∧
      nothing.diagnostic = .located .unexpectedToken "Empty node specification" stop.place.line
        stop.place.column ∧
      r.passed = 0 ∧
      (∀ n, (r.after n).passed ≤ (r.after (n + 1)).passed ∧ (r.after n).passed ≤ z ∧
        tokens[(r.after n).passed]? = some (r.after n).current ∧
        ((r.after n).passed < z → (r.after n).passed < (r.after (n + 1)).passed) ∧
        (∀ v, (r.after n).read.1 = .ok v → (r.after (n + 1)).passed = z) ∧
        ((r.after n).passed = z →
          (r.after n).read.1 = .error nothing ∧ (r.after (n + 1)).passed = z)) ∧
      (∀ m n v w, (r.after m).read.1 = .ok v → (r.after n).read.1 = .ok w → m = n) ∧
      ∀ n, z ≤ n → (r.after n).read.1 = .error nothing := by
  have hfollows := follows_ofTokens? hr hend
  obtain ⟨final, hfinal, rfl⟩ := Option.map_eq_some_iff.mp hr
  set r : LineReader := ⟨text, final, 0, tokens.dropLast⟩
  obtain ⟨stop, hstop, hkind, hbefore⟩ := getElem?_lengthToEnd hfinal (hend final hfinal)
  -- At the first end the reader is at the token that stands there.
  have hnothing : ∀ n, (r.after n).passed = lengthToEnd tokens →
      (r.after n).read = (.error (.located stop.place .emptyLine), r.after n) := by
    intro n hn
    have hcurrent := (hfollows.after n).getElem?_passed
    rw [hn, hstop] at hcurrent
    rw [(hfollows.after n).read_of_passed_eq hn, ← Option.some.inj hcurrent]
  refine ⟨lengthToEnd tokens, stop, .located stop.place .emptyLine, hstop, hkind, hbefore, rfl, rfl,
    ?_, ?_, ?_⟩
  · intro n
    have hn := hfollows.after n
    rw [after_succ]
    refine ⟨passed_le_read _, hn.passed_le_lengthToEnd, hn.getElem?_passed, hn.passed_lt_read,
      fun v hv => hn.passed_of_read_ok hv, ?_⟩
    intro hz
    rw [hnothing n hz]
    exact ⟨rfl, hz⟩
  · intro m n v w hm hn
    rcases Nat.lt_trichotomy m n with hlt | heq | hlt
    · exact absurd hn (hfollows.not_ok_of_lt hlt hm w)
    · exact heq
    · exact absurd hm (hfollows.not_ok_of_lt hlt hn v)
  · intro n hn
    rw [hnothing n (hfollows.passed_after_of_le hn)]

/-- Two faults leave the reader where a variant starts. It is found, up to the first end; the tokens
behind that end are never reached. -/
theorem readings_positions_third :
    let tokens : List Token := [⟨.word "A", ⟨1, 1⟩, ⟨0, 1⟩⟩, ⟨.pipe, ⟨1, 2⟩, ⟨1, 2⟩⟩,
      ⟨.word "B", ⟨1, 3⟩, ⟨2, 3⟩⟩, ⟨.pipe, ⟨1, 4⟩, ⟨3, 4⟩⟩, ⟨.word "C", ⟨1, 5⟩, ⟨4, 5⟩⟩,
      ⟨.pipe, ⟨1, 6⟩, ⟨5, 6⟩⟩, ⟨.word "D", ⟨1, 7⟩, ⟨6, 7⟩⟩, ⟨.endOfLine, ⟨1, 8⟩, ⟨7, 7⟩⟩,
      ⟨.word "E", ⟨1, 1⟩, ⟨0, 1⟩⟩, ⟨.endOfLine, ⟨1, 2⟩, ⟨1, 1⟩⟩]
    ∃ r, ofTokens? "A|B|C|D" tokens = some r ∧
      (∀ t ∈ tokens.getLast?, t.kind = .endOfLine) ∧
      (r.after 1).passed = 3 ∧ (r.after 2).passed = 4 ∧
      (r.after 2).read.1 = .ok ⟨"C", ["D"]⟩ ∧ (r.after 3).passed = 7 ∧
      (∀ n v, (r.after n).read.1 = .ok v → n = 2) ∧
      ∀ n, 7 ≤ n → (r.after n).read.1 = .error (.located ⟨1, 8⟩ .emptyLine) := by
  intro tokens
  have hend : ∀ t ∈ tokens.getLast?, t.kind = .endOfLine := by decide
  have hr : ofTokens? "A|B|C|D" tokens = some ⟨"A|B|C|D", ⟨.endOfLine, ⟨1, 2⟩, ⟨1, 1⟩⟩, 0,
      tokens.dropLast⟩ := rfl
  obtain ⟨z, stop, nothing, -, -, -, -, -, hsteps, honce, hafter⟩ := readings_positions hr hend
  refine ⟨_, hr, hend, ?_⟩
  set r : LineReader := ⟨"A|B|C|D", ⟨.endOfLine, ⟨1, 2⟩, ⟨1, 1⟩⟩, 0, tokens.dropLast⟩
  have hfound : (r.after 2).read.1 = .ok ⟨"C", ["D"]⟩ := by decide +kernel
  have hplace : (r.after 3).passed = 7 := by decide +kernel
  have hz : z = 7 := by
    rw [← hplace]
    exact ((hsteps 2).2.2.2.2.1 _ hfound).symm
  have hseventh : (r.after 7).read.1 = .error (.located ⟨1, 8⟩ .emptyLine) := by decide +kernel
  have hnothing : nothing = .located ⟨1, 8⟩ .emptyLine :=
    Except.error.inj ((hafter 7 hz.le).symm.trans hseventh)
  rw [hz, hnothing] at hafter
  exact ⟨by decide +kernel, by decide +kernel, hfound, hplace,
    fun n v hn => honce n 2 v _ hn hfound, hafter⟩

end LineReader

end TaggedUnion
