/-!
# Sets of code points

A set of characters as a table of closed ranges of code points.
-/

namespace Formwork.Text

def inRanges (table : Array (Nat × Nat)) (c : Char) : Bool :=
  table.any fun range => range.1 ≤ c.toNat && c.toNat ≤ range.2

end Formwork.Text
