/-!
# Ranges of code points

A class of characters is given by the closed ranges of code points that belong to it. The tables
beside this file list their ranges in increasing order, but membership does not depend on it.
-/

namespace TaggedUnion.Unicode

/-- Closed ranges of code points, each as its first and last member. -/
abbrev Ranges := List (Nat × Nat)

def Ranges.covers (rs : Ranges) (c : Char) : Bool :=
  rs.any fun r => r.1 ≤ c.toNat && c.toNat ≤ r.2

theorem Ranges.covers_iff {rs : Ranges} {c : Char} :
    rs.covers c = true ↔ ∃ r ∈ rs, r.1 ≤ c.toNat ∧ c.toNat ≤ r.2 := by
  simp [Ranges.covers]

end TaggedUnion.Unicode
