/-!
Sets of characters given by ranges of code points.

A property of characters is a table of closed ranges in ascending order. `CodePoints.contains` walks
the table and stops at the first range that begins after the character, so a table answers for the
characters at its front without reading the rest.
-/

namespace RequestFile

/-- A set of characters: closed ranges of code points, ascending and apart from each other. -/
abbrev CodePoints := List (Nat × Nat)

namespace CodePoints

/-- Whether the code point of a character lies in one of the ranges. -/
def contains (c : Char) : CodePoints → Bool
  | [] => false
  | (lo, hi) :: rest => lo ≤ c.toNat && (c.toNat ≤ hi || contains c rest)

end CodePoints

end RequestFile
