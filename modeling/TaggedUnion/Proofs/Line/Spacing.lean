import TaggedUnion.Proofs.Line.Scanning
import TaggedUnion.Proofs.Line.TokenPlaces

/-!
# Blanks between tokens

White space keeps what stands before it apart from what stands behind it, so a line with a blank in
it is scanned as its two sides are. The tokens of the left side stay where they are. Those of the
right side, the end of the line with them, are moved by what is put in front: in columns by its
characters and in byte positions by its bytes. Their kinds do not tell which blanks were used.
-/

namespace TaggedUnion

open Text Unicode

/-- The token in a line that has `front` before it. -/
def Token.behind (front : String) (t : Token) : Token :=
  ⟨t.kind, ⟨t.place.line, t.place.column + front.length⟩,
    ⟨t.span.start + front.utf8ByteSize, t.span.stop + front.utf8ByteSize⟩⟩

namespace Scanner

def behind (front : String) (s : Scanner) : Scanner :=
  ⟨⟨s.place.line, s.place.column + front.length⟩, s.offset + front.utf8ByteSize, s.rest⟩

theorem advance_behind (front : String) (s : Scanner) (cs : List Char) :
    (s.behind front).advance cs = (s.advance cs).behind front := by
  simp only [behind, advance, Nat.add_right_comm]

theorem token_behind (front : String) (s : Scanner) (kind : Token.Kind) (cs : List Char) :
    (s.behind front).token kind cs = (s.token kind cs).behind front := by
  simp only [behind, token, Token.behind, Nat.add_right_comm]

theorem locate_behind (front : String) (s : Scanner) (ps : List Piece) :
    (s.behind front).locate ps = (s.locate ps).map (Token.behind front) := by
  induction ps generalizing s with
  | nil => rfl
  | cons p ps ih =>
      cases hk : p.kind? with
      | none => rw [locate_cons_blank hk, locate_cons_blank hk, advance_behind, ih]
      | some kind =>
          rw [locate_cons_token hk, locate_cons_token hk, advance_behind, ih, token_behind,
            List.map_cons]

theorem scan_behind (front : String) (s : Scanner) :
    (s.behind front).scan.1 = s.scan.1.map (Token.behind front) := by
  have hfinal : (s.behind front).final = s.final.behind front := by
    rw [final, final, finish, advance_behind, token_behind]
    rfl
  rw [scan, tokens, locate_behind, hfinal, scan, List.map_append]
  rfl

theorem advance_start (line : Nat) (front text : String) :
    (start line (front ++ text)).advance front.toList = (start line text).behind front := by
  simp [start, advance, behind, byteLength_toList, String.length_toList]

/-- Where tokens stand does not depend on what is still ahead of the scanner. -/
theorem locate_congr {s s' : Scanner} (hplace : s.place = s'.place) (hoffset : s.offset = s'.offset)
    (ps : List Piece) : s.locate ps = s'.locate ps := by
  induction ps generalizing s s' with
  | nil => rfl
  | cons p ps ih =>
      have hnext : (s.advance p.text).locate ps = (s'.advance p.text).locate ps :=
        ih (by simp only [advance, hplace]) (by simp only [advance, hoffset])
      cases hk : p.kind? with
      | none => rw [locate_cons_blank hk, locate_cons_blank hk, hnext]
      | some kind =>
          rw [locate_cons_token hk, locate_cons_token hk, hnext, token, token, hplace, hoffset]

theorem finish_advance {s : Scanner} {cs more : List Char} (h : s.rest = cs ++ more) :
    (s.advance cs).finish = s.finish := by
  have hrest : (s.advance cs).rest = more := by simp [advance, h]
  rw [finish, hrest, finish, h, advance_append]

/-- A line with a blank in it has the tokens of its left side, and those that its right side has
where it stands. -/
theorem scan_blank (line : Nat) (a w b : String) (hw : IsBlank w.toList) (hne : w ≠ "") :
    (start line (a ++ w ++ b)).scan.1 =
      (start line a).tokens ++ ((start line (a ++ w ++ b)).advance (a ++ w).toList).scan.1 := by
  have hchars : (start line (a ++ w ++ b)).rest = (a ++ w).toList ++ b.toList := by simp [start]
  have hleft : (start line (a ++ w ++ b)).locate (Piece.split a.toList) =
      (start line a).tokens := by
    rw [tokens_start]
    apply locate_congr
    · rfl
    · rfl
  -- The blank is not empty, so the two sides do not meet: neither attracts the other.
  have hborder : ∀ x ∈ a.toList.getLast?, ∀ y ∈ (w.toList ++ b.toList).head?,
      Piece.attract x y = false := by
    intro x _ y hy
    have hchar : w.toList ≠ [] := by simpa using hne
    rw [List.head?_append_of_ne_nil _ hchar] at hy
    exact Piece.attract_of_isWhite_right x (hw y (List.mem_of_mem_head? hy))
  have hright : ((start line (a ++ w ++ b)).advance (a ++ w).toList).tokens =
      ((start line (a ++ w ++ b)).advance (a ++ w).toList).locate (Piece.split b.toList) := by
    have hrest : ((start line (a ++ w ++ b)).advance (a ++ w).toList).rest = b.toList := by
      simp [advance, hchars]
    rw [tokens, hrest]
  have htokens : (start line (a ++ w ++ b)).tokens = (start line a).tokens ++
      ((start line (a ++ w ++ b)).advance (a ++ w).toList).tokens := by
    rw [hright, tokens, hchars, String.toList_append, List.append_assoc,
      locate_split_append hborder, hleft, locate_split_blank_append hw, ← advance_append]
  have hfinal : ((start line (a ++ w ++ b)).advance (a ++ w).toList).final =
      (start line (a ++ w ++ b)).final := by
    rw [final, finish_advance hchars, final]
  rw [scan, htokens, ← hfinal, List.append_assoc]
  rfl

/-- A blank keeps its two sides apart: a line has the tokens of the left side and then those of the
right side, moved by what stands before it. Another blank in its place changes no kind. -/
theorem scan_across_blank (line : Nat) (a w b : String) (hw : IsBlank w.toList) (hne : w ≠ "") :
    (start line (a ++ w ++ b)).scan.1 =
        (start line a).scan.1.dropLast ++ (start line b).scan.1.map (Token.behind (a ++ w)) ∧
      ∀ w' : String, IsBlank w'.toList → w' ≠ "" →
        (start line (a ++ w' ++ b)).scan.1.map (·.kind) =
          (start line (a ++ w ++ b)).scan.1.map (·.kind) := by
  have hsides : ∀ v : String, IsBlank v.toList → v ≠ "" → (start line (a ++ v ++ b)).scan.1 =
      (start line a).scan.1.dropLast ++ (start line b).scan.1.map (Token.behind (a ++ v)) := by
    intro v hv hvne
    have hleft : (start line a).scan.1.dropLast = (start line a).tokens := List.dropLast_concat
    rw [scan_blank line a v b hv hvne, advance_start, scan_behind, hleft]
  have hkinds : ∀ v : String, IsBlank v.toList → v ≠ "" →
      (start line (a ++ v ++ b)).scan.1.map (·.kind) =
        ((start line a).scan.1.dropLast ++ (start line b).scan.1).map (·.kind) := by
    intro v hv hvne
    rw [hsides v hv hvne, List.map_append, List.map_append, List.map_map]
    rfl
  refine ⟨hsides w hw hne, ?_⟩
  intro w' hw' hne'
  rw [hkinds w' hw' hne', hkinds w hw hne]

/-- A `-` and a `>` with blanks between them are no arrow, and characters of several bytes stand on
both sides. -/
theorem scan_across_blank_dash :
    let a := "Δ-"
    let w := "\u3000\t"
    let b := "> é_1"
    IsBlank w.toList ∧ w ≠ "" ∧
      (start 7 (a ++ w ++ b)).scan.1 =
        [⟨.word "Δ", ⟨7, 1⟩, ⟨0, 2⟩⟩, ⟨.symbol '-', ⟨7, 2⟩, ⟨2, 3⟩⟩,
          ⟨.closer '>', ⟨7, 5⟩, ⟨7, 8⟩⟩, ⟨.word "é_1", ⟨7, 7⟩, ⟨9, 13⟩⟩,
          ⟨.endOfLine, ⟨7, 10⟩, ⟨13, 13⟩⟩] ∧
      (start 7 (a ++ " " ++ b)).scan.1.map (·.kind) =
        (start 7 (a ++ w ++ b)).scan.1.map (·.kind) := by
  intro a w b
  have hall : w.toList.all isWhite = true := by decide
  have hw : IsBlank w.toList := List.all_eq_true.mp hall
  have hne : w ≠ "" := by decide
  obtain ⟨hsides, hkinds⟩ := scan_across_blank 7 a w b hw hne
  refine ⟨hw, hne, ?_, hkinds " " isBlank_space (by decide)⟩
  rw [hsides]
  decide +kernel

end Scanner

end TaggedUnion
