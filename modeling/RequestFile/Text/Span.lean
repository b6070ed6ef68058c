/-!
Byte ranges of a source.

A span is where it starts and how many bytes it covers, so every span is well formed and moving a
text moves its spans by adding to `start` alone (`Span.shift`).
-/

namespace RequestFile

/-- A range of bytes: `size` of them from `start` on. -/
structure Span where
  start : Nat
  size : Nat
deriving DecidableEq, Repr

namespace Span

/-- The offset just past the range. -/
def stop (s : Span) : Nat :=
  s.start + s.size

/-- The empty range at an offset. -/
def empty (offset : Nat) : Span :=
  ⟨offset, 0⟩

/-- The range between two offsets, if they are in order. -/
def ofBounds? (start stop : Nat) : Option Span :=
  if start ≤ stop then some ⟨start, stop - start⟩ else none

/-- The range from the start of `s` to `offset`, but at least to the end of `s`. -/
def extendTo (s : Span) (offset : Nat) : Span :=
  ⟨s.start, max offset s.stop - s.start⟩

/-- The range after `n` bytes have been put in front of its source. -/
def shift (n : Nat) (s : Span) : Span :=
  ⟨s.start + n, s.size⟩

/-- A range in the form `start..stop`. -/
def toText (s : Span) : String :=
  s!"{s.start}..{s.stop}"

end Span

end RequestFile
