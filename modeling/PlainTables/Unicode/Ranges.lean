/-! Sets of code points written as closed ranges. A property table is a list of
ranges in increasing order; `has` decides membership and stops at the first range
that begins after the code point. -/
namespace PlainTables.Unicode

/-- Closed ranges of code points, in increasing order and apart. -/
abbrev Ranges := List (Nat × Nat)

def Ranges.has : Ranges → Nat → Bool
  | [], _ => false
  | (first, last) :: rest, n =>
    if n < first then false else n ≤ last || Ranges.has rest n

end PlainTables.Unicode
