import TaggedUnion.Proofs.Line.Stages

/-!
# The earliest fault of a line

A line can be saved as long as the reader has found no fault: what is missing can always be put
behind the tokens so far. So a fault at a token is found at the first one that no continuation can
save. A line that only ends too early is at fault where it ends, or at the innermost open bracket.
-/

namespace TaggedUnion

/-- A line of tokens of these kinds is read by a fresh reader. -/
def Accepts (ks : List Token.Kind) : Prop :=
  ∃ (text : String) (ts : List Token) (final : Token) (r : LineReader) (v : Variant),
    ts.map (·.kind) = ks ∧ final.kind = .endOfLine ∧
      LineReader.ofTokens? text (ts ++ [final]) = some r ∧ r.read.1 = .ok v

/-- With more tokens before the end, the line can be read. -/
def Viable (ks : List Token.Kind) : Prop :=
  ∃ more, Token.Kind.endOfLine ∉ more ∧ Accepts (ks ++ more)

/-- The token opens a bracket that is not closed, and every bracket opened behind it is. -/
def InnermostOpen (ts : List Token) (o : Token) : Prop :=
  ∃ before after c, ts = before ++ o :: after ∧ o.kind = .opener c ∧ Balanced (after.map (·.kind))

/-- The fault is at the first token with which the line cannot be saved any more. What it is depends
on the position, and among the fields on the token. -/
def HopelessAt (ts : List Token) (e : Fault) : Prop :=
  ∃ k t category, ts[k]? = some t ∧ ¬ Viable ((ts.take (k + 1)).map (·.kind)) ∧
    (∀ j ≤ k, Viable ((ts.take j).map (·.kind))) ∧ e.At t.place category ∧
    (k = 0 → category = .invalidName) ∧ (k = 1 → category = .missingDelimiter) ∧
    (2 ≤ k → (t.kind = .comma ∧ category = .emptyField) ∨
      (t.kind = .pipe ∧ category = .unexpectedToken) ∨
      ((∃ c, t.kind = .closer c) ∧ category = .unbalanced))

/-- The line could be saved by more tokens. What is missing depends on what is there. -/
structure EndsEarly (ts : List Token) (final : Token) (e : Fault) : Prop where
  viable : Viable (ts.map (·.kind))
  not_accepts : ¬ Accepts (ts.map (·.kind))
  without_name : ts = [] → e.At final.place .unexpectedToken
  without_delimiter : ∀ w, ts.map (·.kind) = [.word w] → e.At final.place .missingDelimiter
  without_closer : ∀ o, InnermostOpen ts o → e.At o.place .unbalanced
  without_field : ts ≠ [] → (∀ w, ts.map (·.kind) ≠ [.word w]) → (∀ o, ¬ InnermostOpen ts o) →
    e.At final.place .emptyField

namespace Grammar

theorem trackAll_of_balanced {ks : List Token.Kind} (h : Balanced ks) {ts : List Token}
    (hts : ts.map (·.kind) = ks) (openings : List Opening) : trackAll openings ts = openings := by
  induction h generalizing ts openings with
  | nil =>
      rw [List.map_eq_nil_iff.mp hts]
      rfl
  | plain ho hc _ ih =>
      obtain ⟨t, ts, rfl, hk, hks⟩ := List.map_eq_cons_iff.mp hts
      subst hk
      rw [trackAll, List.foldl_cons, track_of_plain openings ho hc]
      exact ih hks openings
  | @pair o c _ _ _ _ _ ihinner ihks =>
      obtain ⟨t, ts, rfl, hk, htail⟩ := List.map_eq_cons_iff.mp hts
      obtain ⟨inner, ts, rfl, hinner, hclose⟩ := List.map_eq_append_iff.mp htail
      obtain ⟨u, ts, rfl, hu, hks⟩ := List.map_eq_cons_iff.mp hclose
      have hopen : track openings t = ⟨o, t.place⟩ :: openings := by rw [track, hk]
      have hin : inner.foldl track (track openings t) = track openings t := ihinner hinner _
      have hout : track (track openings t) u = openings := by
        rw [track, hu, hopen]
        rfl
      rw [trackAll, List.foldl_cons, List.foldl_append, hin, List.foldl_cons, hout]
      exact ihks hks openings

/-- A line that ends too early is at fault at its innermost open bracket. -/
theorem endPlace_of_innermostOpen {ts : List Token} {o : Token} (h : InnermostOpen ts o)
    (final : Token) : trackAll [] ts ≠ [] ∧ endPlace final (trackAll [] ts) = o.place := by
  obtain ⟨before, after, c, rfl, hk, hafter⟩ := h
  have hopen : trackAll [] (before ++ o :: after) = ⟨c, o.place⟩ :: trackAll [] before := by
    have hlast := trackAll_of_balanced hafter rfl (track (trackAll [] before) o)
    rw [trackAll, List.foldl_append, List.foldl_cons]
    rw [trackAll] at hlast
    rw [show List.foldl track [] before = trackAll [] before from rfl, hlast, track, hk]
  rw [hopen]
  exact ⟨by simp, rfl⟩

theorem exists_innermostOpen {ts : List Token} {c : Char} {bs : List Char}
    (h : Pending (ts.map (·.kind)) (c :: bs)) : ∃ o, InnermostOpen ts o := by
  generalize hks : ts.map (·.kind) = ks at h
  cases h with
  | opened _ hinner =>
      obtain ⟨before, more, rfl, -, hmore⟩ := List.map_eq_append_iff.mp hks
      obtain ⟨o, after, rfl, ho, hafter⟩ := List.map_eq_cons_iff.mp hmore
      exact ⟨o, before, after, c, rfl, ho, hafter ▸ hinner⟩

end Grammar

open Grammar

theorem LineReader.ofTokens?_concat (text : String) (ts : List Token) (final : Token) :
    ofTokens? text (ts ++ [final]) = some ⟨text, final, 0, ts⟩ := by
  simp [ofTokens?]

theorem endOfLine_notMem_kinds {ts : List Token} (h : ∀ t ∈ ts, t.kind ≠ .endOfLine) :
    Token.Kind.endOfLine ∉ ts.map (·.kind) := by
  intro hmem
  obtain ⟨t, ht, hk⟩ := List.mem_map.mp hmem
  exact h t ht hk

theorem accepts_iff_run {ks : List Token.Kind} (hend : Token.Kind.endOfLine ∉ ks) :
    Accepts ks ↔ Stage.name.run ks = some (.inField []) := by
  constructor
  · rintro ⟨text, ts, final, r, v, rfl, -, hr, hv⟩
    rw [LineReader.ofTokens?_concat] at hr
    obtain rfl := Option.some.inj hr
    obtain ⟨o, rest, ho, -⟩ := (LineReader.read_eq_ok_iff _).mp hv
    refine run_of_outline ?_ ho
    intro t ht hk
    exact hend (List.mem_map.mpr ⟨t, ht, hk⟩)
  · intro hrun
    have hkinds : (ks.map fun k => (⟨k, ⟨1, 1⟩, ⟨0, 0⟩⟩ : Token)).map (·.kind) = ks := by
      simp [Function.comp_def]
    have hts : ∀ t ∈ ks.map fun k => (⟨k, ⟨1, 1⟩, ⟨0, 0⟩⟩ : Token), t.kind ≠ .endOfLine := by
      intro t ht hk
      rw [← hkinds] at hend
      exact hend (List.mem_map.mpr ⟨t, ht, hk⟩)
    obtain ⟨o, rest, ho⟩ := (outline_ok_iff_run ⟨.endOfLine, ⟨1, 1⟩, ⟨0, 0⟩⟩ hts).mpr
      (by rw [hkinds]; exact hrun)
    exact ⟨"", _, _, _, o.variant "", hkinds, rfl, LineReader.ofTokens?_concat "" _ _,
      (LineReader.read_eq_ok_iff _).mpr ⟨o, rest, ho, rfl⟩⟩

theorem viable_of_run {ks : List Token.Kind} {s : Stage} (hend : Token.Kind.endOfLine ∉ ks)
    (hopen : ∀ c, Token.Kind.opener c ∈ ks → c ∈ ['<', '(', '[']) (h : Stage.name.run ks = some s) :
    Viable ks := by
  obtain ⟨more, hmore, hrun⟩ := Stage.exists_completion h hopen
  refine ⟨more, hmore, (accepts_iff_run (by simp [hend, hmore])).mpr ?_⟩
  rw [Stage.run_append, h]
  exact hrun

theorem not_viable_of_run {ks : List Token.Kind} (hend : Token.Kind.endOfLine ∉ ks)
    (h : Stage.name.run ks = none) : ¬ Viable ks := by
  rintro ⟨more, hmore, haccepts⟩
  have hrun := (accepts_iff_run (by simp [hend, hmore])).mp haccepts
  rw [Stage.run_append, h] at hrun
  simp at hrun

theorem viable_take {ts : List Token} {s : Stage} (hend : ∀ t ∈ ts, t.kind ≠ .endOfLine)
    (hopen : ∀ t ∈ ts, ∀ c, t.kind = .opener c → c ∈ ['<', '(', '['])
    (h : Stage.name.run (ts.map (·.kind)) = some s) (j : Nat) :
    Viable ((ts.take j).map (·.kind)) := by
  rw [← List.take_append_drop j ts, List.map_append, Stage.run_append] at h
  obtain ⟨mid, hmid, -⟩ := Option.bind_eq_some_iff.mp h
  refine viable_of_run (endOfLine_notMem_kinds fun t ht => hend t (List.mem_of_mem_take ht)) ?_ hmid
  intro c hmem
  obtain ⟨t, ht, hk⟩ := List.mem_map.mp hmem
  exact hopen t (List.mem_of_mem_take ht) c hk

/-- What a refused token is blamed for depends on how many stand before it, and among the fields on
its kind. -/
theorem refusal_of_run {ks : List Token.Kind} {k : Token.Kind} {s : Stage}
    (hrun : Stage.name.run ks = some s) (hnext : s.next k = none) (hend : k ≠ .endOfLine) :
    (ks.length = 0 → s.refusal k = .invalidName) ∧
      (ks.length = 1 → s.refusal k = .missingDelimiter) ∧
      (2 ≤ ks.length → (k = .comma ∧ s.refusal k = .emptyField) ∨
        (k = .pipe ∧ s.refusal k = .unexpectedToken) ∨
        ((∃ c, k = .closer c) ∧ s.refusal k = .unbalanced)) := by
  match ks, hrun with
  | [], hrun =>
      obtain rfl : .name = s := Option.some.inj hrun
      exact ⟨fun _ => rfl, by simp, by simp⟩
  | [k₁], hrun =>
      obtain ⟨w, -, rfl⟩ := Stage.eq_delimiter_of_run hrun
      exact ⟨by simp, fun _ => rfl, by simp⟩
  | _ :: _ :: _, hrun =>
      exact ⟨by simp, by simp, fun _ => Stage.refusal_cases (Stage.inFields_of_two hrun) hend hnext⟩

section Unfinished
variable {ts : List Token} {s : Stage} {e : Fault} {final : Token}

theorem bracketsOf_trackAll_of_name (hrun : Stage.name.run (ts.map (·.kind)) = some s) :
    bracketsOf (trackAll [] ts) = s.brackets := by
  have hnil : bracketsOf [] = Stage.name.brackets := rfl
  exact bracketsOf_trackAll_of_run hnil hrun

theorem endPlace_of_brackets_nil (hrun : Stage.name.run (ts.map (·.kind)) = some s)
    (hs : s.brackets = []) : endPlace final (trackAll [] ts) = final.place := by
  have hopen := bracketsOf_trackAll_of_name hrun
  rw [hs] at hopen
  rw [bracketsOf_eq_nil.mp hopen]
  rfl

theorem unbalanced_of_innermostOpen {o : Token} (hrun : Stage.name.run (ts.map (·.kind)) = some s)
    (hat : e.At (endPlace final (trackAll [] ts)) s.missing) (ho : InnermostOpen ts o) :
    e.At o.place .unbalanced := by
  obtain ⟨hne, hplace⟩ := endPlace_of_innermostOpen ho final
  have hopen := bracketsOf_trackAll_of_name hrun
  rw [hplace] at hat
  cases s with
  | inField bs => exact hat
  | name => exact absurd (bracketsOf_eq_nil.mp hopen) hne
  | delimiter => exact absurd (bracketsOf_eq_nil.mp hopen) hne
  | fieldStart => exact absurd (bracketsOf_eq_nil.mp hopen) hne

theorem emptyField_of_no_open (hrun : Stage.name.run (ts.map (·.kind)) = some s)
    (hne : s ≠ .inField []) (hat : e.At (endPlace final (trackAll [] ts)) s.missing)
    (hnil : ts ≠ []) (hword : ∀ w, ts.map (·.kind) ≠ [.word w])
    (hclosed : ∀ o, ¬ InnermostOpen ts o) : e.At final.place .emptyField := by
  have hfields : s.InFields := by
    match ts, hrun with
    | [], _ => exact absurd rfl hnil
    | [t], hrun =>
        obtain ⟨w, hw, -⟩ := Stage.eq_delimiter_of_run hrun
        exact absurd (congrArg (fun k => [k]) hw) (hword w)
    | _ :: _ :: _, hrun => exact Stage.inFields_of_two hrun
  have hbrackets : s.brackets = [] := by
    cases hs : s.brackets with
    | nil => rfl
    | cons c bs =>
        have hpending := Stage.pending_of_run hrun
        rw [hs] at hpending
        obtain ⟨o, ho⟩ := exists_innermostOpen hpending
        exact absurd ho (hclosed o)
  rw [endPlace_of_brackets_nil hrun hbrackets] at hat
  rcases hfields with rfl | hs
  · exact hat
  · rw [hbrackets] at hs
    exact absurd hs hne

end Unfinished

/-- A line that cannot be read is at fault at the first token that no continuation can save, and if
there is none, at its end or at the innermost open bracket. -/
theorem read_earliest_fault {text : String} {ts : List Token} {final : Token} {r : LineReader}
    {e : Fault} (hr : LineReader.ofTokens? text (ts ++ [final]) = some r)
    (hend : ∀ t ∈ ts, t.kind ≠ .endOfLine)
    (hopen : ∀ t ∈ ts, ∀ c, t.kind = .opener c → c ∈ ['<', '(', '['])
    (he : r.read.1 = .error e) :
    HopelessAt ts e ∨ EndsEarly ts final e := by
  rw [LineReader.ofTokens?_concat] at hr
  obtain rfl := Option.some.inj hr
  obtain ⟨rest, ho⟩ := (LineReader.read_eq_error_iff _).mp he
  have hfault : FaultFrom final .name [] ts e := faultFrom_of_outline hend ho
  have hrun := hfault.run_ne
  cases hfault with
  | @refused before after t s _ hbefore hnext hat =>
      left
      have htake : (before ++ t :: after).take (before.length + 1) = before ++ [t] := by
        rw [List.append_cons, List.take_left' (by simp)]
      have hends : ∀ u ∈ before ++ [t], u.kind ≠ .endOfLine := fun u hu =>
        hend u (by rw [List.append_cons]; exact List.mem_append_left after hu)
      have hblame := refusal_of_run hbefore hnext (hend t (by simp))
      rw [List.length_map] at hblame
      refine ⟨before.length, t, s.refusal t.kind, by simp, ?_, ?_, hat, hblame⟩
      · rw [← htake] at hends
        apply not_viable_of_run (endOfLine_notMem_kinds hends)
        rw [htake, List.map_append, List.map_singleton, Stage.run_append_cons hbefore, hnext]
        rfl
      · intro j hj
        rw [List.take_append_of_le_length hj]
        exact viable_take (fun u hu => hend u (by simp [hu])) (fun u hu => hopen u (by simp [hu]))
          hbefore j
  | @unfinished _ s _ hts hne hat =>
      right
      have hviable := viable_take hend hopen hts ts.length
      rw [List.take_length] at hviable
      refine ⟨hviable, mt (accepts_iff_run (endOfLine_notMem_kinds hend)).mp hrun, ?_, ?_, ?_, ?_⟩
      · intro hnil
        subst hnil
        obtain rfl : .name = s := Option.some.inj hts
        exact hat
      · intro w hw
        have hword := hts
        rw [hw] at hword
        obtain ⟨-, -, rfl⟩ := Stage.eq_delimiter_of_run hword
        rw [endPlace_of_brackets_nil hts rfl] at hat
        exact hat
      · intro o hinner
        exact unbalanced_of_innermostOpen hts hat hinner
      · intro hnil hword hclosed
        exact emptyField_of_no_open hts hne hat hnil hword hclosed

/-- In `A | B<C` the open bracket is at fault, and closing it would save the line. -/
theorem read_earliest_fault_open :
    (LineReader.ofTokens? "A | B<C" [⟨.word "A", ⟨1, 1⟩, ⟨0, 1⟩⟩, ⟨.pipe, ⟨1, 3⟩, ⟨2, 3⟩⟩,
        ⟨.word "B", ⟨1, 5⟩, ⟨4, 5⟩⟩, ⟨.opener '<', ⟨1, 6⟩, ⟨5, 6⟩⟩, ⟨.word "C", ⟨1, 7⟩, ⟨6, 7⟩⟩,
        ⟨.endOfLine, ⟨1, 8⟩, ⟨7, 7⟩⟩]).map (·.read.1) =
      some (.error (.located ⟨1, 6⟩ (.unclosed '<' "A"))) ∧
    EndsEarly [⟨.word "A", ⟨1, 1⟩, ⟨0, 1⟩⟩, ⟨.pipe, ⟨1, 3⟩, ⟨2, 3⟩⟩, ⟨.word "B", ⟨1, 5⟩, ⟨4, 5⟩⟩,
        ⟨.opener '<', ⟨1, 6⟩, ⟨5, 6⟩⟩, ⟨.word "C", ⟨1, 7⟩, ⟨6, 7⟩⟩] ⟨.endOfLine, ⟨1, 8⟩, ⟨7, 7⟩⟩
      (.located ⟨1, 6⟩ (.unclosed '<' "A")) := by
  have hread : (LineReader.mk "A | B<C" ⟨.endOfLine, ⟨1, 8⟩, ⟨7, 7⟩⟩ 0 [⟨.word "A", ⟨1, 1⟩, ⟨0, 1⟩⟩,
      ⟨.pipe, ⟨1, 3⟩, ⟨2, 3⟩⟩, ⟨.word "B", ⟨1, 5⟩, ⟨4, 5⟩⟩, ⟨.opener '<', ⟨1, 6⟩, ⟨5, 6⟩⟩,
      ⟨.word "C", ⟨1, 7⟩, ⟨6, 7⟩⟩]).read.1 = .error (.located ⟨1, 6⟩ (.unclosed '<' "A")) := by
    decide +kernel
  refine ⟨by simpa [LineReader.ofTokens?] using hread, ?_⟩
  rcases read_earliest_fault (LineReader.ofTokens?_concat _ _ _) (by simp) (by simp) hread with
    ⟨k, t, category, ht, -, -, hat, -, -, hfields⟩ | hearly
  · -- The token at the place of the fault is the opening one, which is never refused.
    have hplace : ⟨1, 6⟩ = t.place := Option.some.inj hat.place_eq
    match k, ht with
    | 3, ht =>
        obtain rfl := Option.some.inj ht
        simp at hfields
    | 0, ht | 1, ht | 2, ht | 4, ht =>
        obtain rfl := Option.some.inj ht
        simp at hplace
  · exact hearly

end TaggedUnion
