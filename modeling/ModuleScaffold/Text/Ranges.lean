/-!
# Sets of characters given by ranges

A property of characters that no rule describes is a table of ranges of code points, in
increasing order, both ends included. This module looks a character up in such a table.
-/

namespace ModuleScaffold

namespace Text

/-- Whether the code point of `c` lies in one of the ranges. -/
def inRanges (table : List (Nat × Nat)) (c : Char) : Bool :=
  table.any fun range => range.1 ≤ c.toNat && c.toNat ≤ range.2

theorem inRanges_iff {table : List (Nat × Nat)} {c : Char} :
    inRanges table c = true ↔ ∃ r ∈ table, r.1 ≤ c.toNat ∧ c.toNat ≤ r.2 := by
  simp [inRanges]

end Text

end ModuleScaffold
