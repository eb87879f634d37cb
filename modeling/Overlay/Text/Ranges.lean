/-! Sets of characters given by ranges of code points. Membership in a sorted list of disjoint ranges is
    found by walking up to the first range that ends at or above the code point. -/

namespace Overlay
namespace Text

/-- Ranges of code points, each with its first and last member, disjoint and in increasing order. --/
abbrev Ranges := List (Nat × Nat)

/-- Whether a range holds `n`; the first range that does not end below `n` decides. --/
def Ranges.holds : Ranges → Nat → Bool
  | [], _ => false
  | (first, last) :: rest, n => if last < n then holds rest n else first ≤ n

end Text
end Overlay
