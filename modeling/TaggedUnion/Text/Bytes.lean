/-!
# Byte positions

Places inside a line are counted in bytes of its UTF-8 form, while the line itself is a list of
characters. A cut at byte positions that fall between characters gives exactly the characters in
between; a position inside a character counts as the one behind it.
-/

namespace TaggedUnion.Text

/-- The number of bytes of the UTF-8 form. -/
def byteLength : List Char → Nat
  | [] => 0
  | c :: cs => c.utf8Size + byteLength cs

def dropBytes : Nat → List Char → List Char
  | 0, cs => cs
  | _ + 1, [] => []
  | n + 1, c :: cs => dropBytes (n + 1 - c.utf8Size) cs

def takeBytes : Nat → List Char → List Char
  | 0, _ => []
  | _ + 1, [] => []
  | n + 1, c :: cs => c :: takeBytes (n + 1 - c.utf8Size) cs

/-- The characters from byte `start` up to byte `stop`. -/
def cut (start stop : Nat) (cs : List Char) : List Char :=
  takeBytes (stop - start) (dropBytes start cs)

@[simp] theorem byteLength_append (a b : List Char) :
    byteLength (a ++ b) = byteLength a + byteLength b := by
  induction a with
  | nil => simp [byteLength]
  | cons c a ih => simp only [List.cons_append, byteLength, ih]; omega

theorem dropBytes_append (a b : List Char) : dropBytes (byteLength a) (a ++ b) = b := by
  induction a with
  | nil => simp [byteLength, dropBytes]
  | cons c a ih =>
    have hc := c.utf8Size_pos
    obtain ⟨n, hn⟩ : ∃ n, byteLength (c :: a) = n + 1 := ⟨_, (Nat.succ_pred (by
      simp only [byteLength]; omega)).symm⟩
    rw [hn, List.cons_append, dropBytes, ← hn]
    simpa [byteLength] using ih

theorem takeBytes_append (a b : List Char) : takeBytes (byteLength a) (a ++ b) = a := by
  induction a with
  | nil => simp [byteLength, takeBytes]
  | cons c a ih =>
    have hc := c.utf8Size_pos
    obtain ⟨n, hn⟩ : ∃ n, byteLength (c :: a) = n + 1 := ⟨_, (Nat.succ_pred (by
      simp only [byteLength]; omega)).symm⟩
    rw [hn, List.cons_append, takeBytes, ← hn]
    simpa [byteLength] using ih

/-- A cut between characters gives the characters in between. -/
theorem cut_append (a b c : List Char) :
    cut (byteLength a) (byteLength a + byteLength b) (a ++ b ++ c) = b := by
  rw [cut, List.append_assoc, dropBytes_append, Nat.add_sub_cancel_left, takeBytes_append]

end TaggedUnion.Text
