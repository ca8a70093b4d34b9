/-!
# Ranges of code points

A property of characters that only a table can give is a list of closed ranges in ascending order.
-/

namespace TemplateCompiler.Text

def inRanges (ranges : List (Nat × Nat)) (c : Char) : Bool :=
  ranges.any fun (first, last) => first ≤ c.toNat && c.toNat ≤ last

end TemplateCompiler.Text
