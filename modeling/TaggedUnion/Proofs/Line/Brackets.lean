import Mathlib.Data.List.Basic
import TaggedUnion.Line.Grammar

/-!
# Brackets in a field

What a field is can be said without reading it: no `|`, brackets in matched pairs, and no comma
outside them. A reader instead goes from left to right with a stack of open brackets. The two agree.
What the stack holds at any point is also a fact about the tokens passed: each of its brackets
stands there and is followed by balanced tokens up to the next one on the stack.
-/

namespace TaggedUnion

namespace Token.Kind

def isOpener : Token.Kind → Bool
  | opener _ => true
  | _ => false

def isCloser : Token.Kind → Bool
  | closer _ => true
  | _ => false

end Token.Kind

/-- Brackets of one shape. -/
inductive Partners : Char → Char → Prop
  | angle : Partners '<' '>'
  | round : Partners '(' ')'
  | square : Partners '[' ']'

theorem partners_iff {o c : Char} : Partners o c ↔ closingOf o = some c := by
  constructor
  · intro h
    cases h <;> rfl
  · intro h
    unfold closingOf at h
    split at h
    · exact Option.some.inj h ▸ .angle
    · exact Option.some.inj h ▸ .round
    · exact Option.some.inj h ▸ .square
    · simp at h

/-- Brackets in matched pairs, side by side or one inside another. Other tokens do not matter. -/
inductive Balanced : List Token.Kind → Prop
  | nil : Balanced []
  | plain {k : Token.Kind} {ks : List Token.Kind} :
      k.isOpener = false → k.isCloser = false → Balanced ks → Balanced (k :: ks)
  | pair {o c : Char} {inner ks : List Token.Kind} : Partners o c → Balanced inner → Balanced ks →
      Balanced (.opener o :: (inner ++ .closer c :: ks))

/-- The number of opening brackets less that of closing ones. -/
def depth (ks : List Token.Kind) : Int :=
  ks.countP (·.isOpener) - ks.countP (·.isCloser)

/-- The tokens that may make up a field. -/
structure FieldTokens (ks : List Token.Kind) : Prop where
  no_pipe : Token.Kind.pipe ∉ ks
  balanced : Balanced ks
  /-- A comma has an open bracket before it. -/
  no_outer_comma : ∀ a b, ks = a ++ .comma :: b → depth a ≠ 0

theorem Balanced.append {as bs : List Token.Kind} (ha : Balanced as) (hb : Balanced bs) :
    Balanced (as ++ bs) := by
  induction ha with
  | nil => exact hb
  | plain ho hc _ ih => exact .plain ho hc ih
  | pair hoc hinner _ _ ih =>
      rw [List.cons_append, List.append_assoc, List.cons_append]
      exact .pair hoc hinner ih

theorem depth_append (as bs : List Token.Kind) : depth (as ++ bs) = depth as + depth bs := by
  simp only [depth, List.countP_append]
  omega

@[simp] theorem depth_nil : depth [] = 0 := rfl

theorem depth_cons (k : Token.Kind) (ks : List Token.Kind) :
    depth (k :: ks) = depth [k] + depth ks :=
  depth_append [k] ks

@[simp] theorem depth_opener (c : Char) : depth [.opener c] = 1 := rfl

@[simp] theorem depth_closer (c : Char) : depth [.closer c] = -1 := rfl

theorem depth_plain {k : Token.Kind} (ho : k.isOpener = false) (hc : k.isCloser = false) :
    depth [k] = 0 := by
  simp [depth, ho, hc]

theorem Balanced.depth_eq {ks : List Token.Kind} (h : Balanced ks) : depth ks = 0 := by
  induction h with
  | nil => rfl
  | plain ho hc _ ih => rw [depth_cons, depth_plain ho hc, ih]; rfl
  | @pair o c inner ks _ _ _ hinner hks =>
      rw [depth_cons, depth_append, depth_cons (.closer c), hinner, hks]
      rfl

namespace Grammar

/-- The brackets open behind one more token of a field, innermost first. There are none if the
token is not part of the field. -/
def pass (brackets : List Char) : Token.Kind → Option (List Char)
  | .opener c => some (c :: brackets)
  | .closer c =>
    match brackets with
    | [] => none
    | o :: os => if closingOf o = some c then some os else none
  | .comma => if brackets.isEmpty then none else some brackets
  | .pipe | .endOfLine => none
  | .word _ | .arrow | .symbol _ => some brackets

/-- The brackets open behind some more tokens of a field. -/
def passAll (brackets : List Char) : List Token.Kind → Option (List Char)
  | [] => some brackets
  | k :: ks => (pass brackets k).bind fun brackets' => passAll brackets' ks

theorem passAll_append (brackets : List Char) (as bs : List Token.Kind) :
    passAll brackets (as ++ bs) =
      (passAll brackets as).bind fun brackets' => passAll brackets' bs := by
  induction as generalizing brackets with
  | nil => rfl
  | cons a as ih =>
      rw [List.cons_append, passAll, passAll, Option.bind_assoc]
      exact Option.bind_congr fun brackets' _ => ih brackets'

theorem passAll_append_eq_some {brackets open₂ : List Char} {as bs : List Token.Kind} :
    passAll brackets (as ++ bs) = some open₂ ↔
      ∃ open₁, passAll brackets as = some open₁ ∧ passAll open₁ bs = some open₂ := by
  rw [passAll_append, Option.bind_eq_some_iff]

/-- What one token can do to the open brackets. -/
theorem pass_cases {brackets open₁ : List Char} {k : Token.Kind}
    (h : pass brackets k = some open₁) :
    (∃ c, k = .opener c ∧ open₁ = c :: brackets) ∨
      (∃ o c, k = .closer c ∧ closingOf o = some c ∧ brackets = o :: open₁) ∨
      (k.isOpener = false ∧ k.isCloser = false ∧ k ≠ .pipe ∧ (k = .comma → brackets ≠ []) ∧
        open₁ = brackets) := by
  cases k with
  | opener c => exact .inl ⟨c, rfl, by simpa [pass] using h.symm⟩
  | closer c =>
      right
      left
      cases brackets with
      | nil => simp [pass] at h
      | cons o os =>
          simp only [pass] at h
          split_ifs at h with hoc
          exact ⟨o, c, rfl, hoc, by rw [Option.some.inj h]⟩
  | comma =>
      right
      right
      simp only [pass, List.isEmpty_iff] at h
      split_ifs at h with hempty
      exact ⟨rfl, rfl, by simp, fun _ => hempty, (Option.some.inj h).symm⟩
  | pipe => simp [pass] at h
  | endOfLine => simp [pass] at h
  | word w => exact .inr (.inr ⟨rfl, rfl, by simp, by simp, (Option.some.inj h).symm⟩)
  | arrow => exact .inr (.inr ⟨rfl, rfl, by simp, by simp, (Option.some.inj h).symm⟩)
  | symbol c => exact .inr (.inr ⟨rfl, rfl, by simp, by simp, (Option.some.inj h).symm⟩)

/-- The stack is as high as the tokens are deep. -/
theorem length_of_pass {brackets open₁ : List Char} {k : Token.Kind}
    (h : pass brackets k = some open₁) : (open₁.length : Int) = brackets.length + depth [k] := by
  obtain ⟨c, rfl, rfl⟩ | ⟨o, c, rfl, -, rfl⟩ | ⟨ho, hc, -, -, rfl⟩ := pass_cases h
  · simp
  · rw [depth_closer, List.length_cons]
    omega
  · simp [depth_plain ho hc]

theorem length_of_passAll {brackets open₁ : List Char} {ks : List Token.Kind}
    (h : passAll brackets ks = some open₁) :
    (open₁.length : Int) = brackets.length + depth ks := by
  induction ks generalizing brackets with
  | nil =>
      obtain rfl := Option.some.inj h
      simp
  | cons k ks ih =>
      obtain ⟨mid, hk, hks⟩ := Option.bind_eq_some_iff.mp h
      have hmid := length_of_pass hk
      rw [ih hks, depth_cons k ks]
      omega

/-- Balanced tokens of a field leave the open brackets as they were. -/
theorem passAll_of_balanced {ks : List Token.Kind} (h : Balanced ks) (brackets : List Char)
    (hpipe : Token.Kind.pipe ∉ ks) (hend : Token.Kind.endOfLine ∉ ks)
    (hcomma : ∀ a b, ks = a ++ .comma :: b → (brackets.length : Int) + depth a ≠ 0) :
    passAll brackets ks = some brackets := by
  induction h generalizing brackets with
  | nil => rfl
  | @plain k ks ho hc _ ih =>
      have hk : pass brackets k = some brackets := by
        cases k with
        | opener c => simp [Token.Kind.isOpener] at ho
        | closer c => simp [Token.Kind.isCloser] at hc
        | comma =>
            have hne : brackets ≠ [] := by
              rintro rfl
              exact hcomma [] ks rfl rfl
            simp [pass, hne]
        | pipe => simp at hpipe
        | endOfLine => simp at hend
        | word w => rfl
        | arrow => rfl
        | symbol c => rfl
      rw [passAll, hk, Option.bind_some]
      apply ih brackets (fun hm => hpipe (by simp [hm])) (fun hm => hend (by simp [hm]))
      intro a b hab
      have hd := hcomma (k :: a) b (by rw [hab]; rfl)
      rwa [depth_cons, depth_plain ho hc, Int.zero_add] at hd
  | @pair o c inner ks hoc hbal _ hinner hks =>
      have hin : passAll (o :: brackets) inner = some (o :: brackets) := by
        apply hinner _ (fun hm => hpipe (by simp [hm])) (fun hm => hend (by simp [hm]))
        intro a b hab
        have hd := hcomma (.opener o :: a) (b ++ .closer c :: ks) (by simp [hab])
        rw [depth_cons, depth_opener] at hd
        simp only [List.length_cons]
        omega
      have hclose : pass (o :: brackets) (.closer c) = some brackets := by
        simp [pass, partners_iff.mp hoc]
      rw [passAll, pass, Option.bind_some, passAll_append, hin, Option.bind_some, passAll,
        hclose, Option.bind_some]
      apply hks _ (fun hm => hpipe (by simp [hm])) (fun hm => hend (by simp [hm]))
      intro a b hab
      have hd := hcomma (.opener o :: (inner ++ .closer c :: a)) b (by simp [hab])
      rw [depth_cons, depth_append, depth_cons (.closer c), depth_opener, depth_closer,
        hbal.depth_eq] at hd
      omega

/-- Where the open brackets stand in the tokens of a field: behind each of them, up to the next, all
brackets are matched. -/
inductive Pending : List Token.Kind → List Char → Prop
  | closed {ks : List Token.Kind} : Balanced ks → Pending ks []
  | opened {ks inner : List Token.Kind} {brackets : List Char} {c : Char} : Pending ks brackets →
      Balanced inner → Pending (ks ++ .opener c :: inner) (c :: brackets)

theorem Pending.append {ks more : List Token.Kind} {brackets : List Char}
    (h : Pending ks brackets) (hm : Balanced more) : Pending (ks ++ more) brackets := by
  cases h with
  | closed hks => exact .closed (hks.append hm)
  | opened hks hinner =>
      rw [List.append_assoc, List.cons_append]
      exact .opened hks (hinner.append hm)

/-- One more token of a field keeps the open brackets where they are, opens one or closes one. -/
theorem Pending.step {ks : List Token.Kind} {brackets open₁ : List Char} {k : Token.Kind}
    (h : Pending ks brackets) (hk : pass brackets k = some open₁) : Pending (ks ++ [k]) open₁ := by
  obtain ⟨c, rfl, rfl⟩ | ⟨o, c, rfl, hoc, rfl⟩ | ⟨ho, hc, -, -, rfl⟩ := pass_cases hk
  · exact .opened h .nil
  · cases h with
    | opened hks hinner =>
        rw [List.append_assoc, List.cons_append]
        exact hks.append (.pair (partners_iff.mpr hoc) hinner .nil)
  · exact h.append (.plain ho hc .nil)

theorem Pending.run {ks more : List Token.Kind} {brackets open₁ : List Char}
    (h : Pending ks brackets) (hm : passAll brackets more = some open₁) :
    Pending (ks ++ more) open₁ := by
  induction more generalizing ks brackets with
  | nil =>
      obtain rfl := Option.some.inj hm
      simpa using h
  | cons k more ih =>
      obtain ⟨mid, hk, hmore⟩ := Option.bind_eq_some_iff.mp hm
      have hnext := ih (h.step hk) hmore
      rwa [List.append_assoc, List.singleton_append] at hnext

theorem pending_of_passAll {ks : List Token.Kind} {brackets : List Char}
    (h : passAll [] ks = some brackets) : Pending ks brackets := by
  simpa using (Pending.closed Balanced.nil).run h

/-- The tokens that may make up a field are those that a reader passes with no bracket left open. -/
theorem fieldTokens_iff_passAll {ks : List Token.Kind} (hend : Token.Kind.endOfLine ∉ ks) :
    FieldTokens ks ↔ passAll [] ks = some [] := by
  constructor
  · intro h
    apply passAll_of_balanced h.balanced [] h.no_pipe hend
    intro a b hab
    simpa using h.no_outer_comma a b hab
  · intro h
    refine ⟨?_, ?_, ?_⟩
    · intro hp
      obtain ⟨a, b, rfl⟩ := List.append_of_mem hp
      obtain ⟨brackets, -, hb⟩ := passAll_append_eq_some.mp h
      simp [passAll, pass] at hb
    · cases pending_of_passAll h with
      | closed hks => exact hks
    · -- At depth zero the stack is empty, and an empty stack does not pass a comma.
      rintro a b rfl hd
      obtain ⟨brackets, ha, hb⟩ := passAll_append_eq_some.mp h
      have hlen := length_of_passAll ha
      rw [hd] at hlen
      have hnil : brackets = [] := by
        rw [← List.length_eq_zero_iff]
        simpa using hlen
      subst hnil
      simp [passAll, pass] at hb

end Grammar

end TaggedUnion
