import RequestFile.Snippet.Source

/-!
Marks on source lines.

A report highlights ranges of a source. A range on one line becomes one mark. A range over several
lines becomes a mark that opens it, marks for the lines that it passes, and one that closes it; its
line runs along the left of the source at a depth of its own.

`markedLines` gives the lines to show with their marks. Of a long range only the first lines and the
last ones are shown.
-/

namespace RequestFile

namespace Snippet

/-- A range to highlight. -/
structure Highlight where
  start : Nat
  stop : Nat
  /-- Whether the report is about this range. -/
  primary : Bool
  label : Option String
deriving DecidableEq, Repr

/-- How a mark belongs to its range. -/
inductive Stroke where
  /-- The whole range. -/
  | single
  /-- The start of a range over several lines, at a depth. -/
  | opens (depth : Nat)
  /-- A line in the middle of a range, at a depth. -/
  | passes (depth : Nat)
  /-- The end of a range, at a depth. -/
  | closes (depth : Nat)
deriving DecidableEq, Repr

/-- A mark on a line. -/
structure Mark where
  /-- The characters in front of the mark. -/
  char : Nat
  /-- The first column marked. -/
  first : Nat
  /-- The column after the last one marked. -/
  last : Nat
  primary : Bool
  label : Option String
  stroke : Stroke
deriving DecidableEq, Repr

namespace Mark

/-- Whether the mark has a text of its own. -/
def hasLabel (m : Mark) : Bool :=
  m.label.any fun s => !s.isEmpty

/-- Whether the mark needs a horizontal line of its own. -/
def takesSpace (m : Mark) : Bool :=
  match m.stroke with
  | .opens _ | .closes _ => true
  | _ => false

/-- Whether the mark only passes a line. -/
def isPassing (m : Mark) : Bool :=
  match m.stroke with
  | .passes _ => true
  | _ => false

/-- Whether the mark opens a range over several lines. -/
def isOpening (m : Mark) : Bool :=
  match m.stroke with
  | .opens _ => true
  | _ => false

/-- The number of columns marked. -/
def length (m : Mark) : Nat :=
  if m.first < m.last then m.last - m.first else m.first - m.last

end Mark

/-- A range over several lines. -/
structure Extent where
  first : Place
  last : Place
  primary : Bool
  label : Option String
  depth : Nat
  /-- Whether another range starts and ends at the same places. -/
  doubled : Bool
deriving DecidableEq, Repr

namespace Extent

/-- Whether two ranges start and end at the same places. -/
def samePlaces (a b : Extent) : Bool :=
  a.first = b.first && a.last = b.last

/-- Whether two ranges have a line in common. -/
def meets (a b : Extent) : Bool :=
  (b.first.line ≤ a.first.line && a.first.line ≤ b.last.line)
    || (a.first.line ≤ b.first.line && b.first.line ≤ a.last.line)

/-- Moves the ranges that meet `a` one level further, up to the first that does not. `i` is the place
of `a` in the whole list and `j` that of the first range here. -/
def pushBy (a : Extent) (i j : Nat) : List Extent → List Extent
  | [] => []
  | b :: bs =>
    if !a.samePlaces b && a.meets b then { b with depth := b.depth + 1 } :: pushBy a i (j + 1) bs
    else if a.samePlaces b && i ≠ j then { b with doubled := true } :: pushBy a i (j + 1) bs
    else b :: bs

/-- Gives each range its depth, so that ranges that meet run beside each other. -/
def settle (es : List Extent) : List Extent :=
  let sorted := es.mergeSort fun a b =>
    a.first.line < b.first.line || (a.first.line = b.first.line && b.last.line ≤ a.last.line)
  let pushed := sorted.zipIdx.foldl (fun acc (a, i) => pushBy a i 0 acc) sorted
  let deepest := (pushed.map depth).foldl max 0
  pushed.map fun e => { e with depth := deepest - e.depth + 1 }

/-- The mark that opens a range. -/
def opening (e : Extent) : Mark :=
  ⟨e.first.char, e.first.column, e.first.column + 1, e.primary, none, .opens e.depth⟩

/-- The mark that closes a range. -/
def closing (e : Extent) : Mark :=
  ⟨e.last.char - 1, e.last.column - 1, e.last.column, e.primary, e.label,
    if e.doubled then .single else .closes e.depth⟩

/-- The mark of a line that a range passes. -/
def passing (e : Extent) : Mark :=
  ⟨0, 0, 0, e.primary, none, .passes e.depth⟩

end Extent

/-- The text of a line. -/
def lineText (lines : List SourceLine) (number : Nat) : List Char :=
  ((lines.find? (·.number = number)).map SourceLine.text).getD []

/-- Whether a line says something: it holds more than a comment or a single bracket. -/
def saysSomething (text : List Char) : Bool :=
  let t := String.ofList (trimList isWhiteSpace text)
  let isComment := t.startsWith "//" && !t.startsWith "///" && !t.startsWith "//!"
  !isComment && !(["", "\x7b", "\x7d", "(", ")", "[", "]"].contains t)

/-- The lines, besides its first and its last, that are shown of a range: those up to the last of the
first four that says something, and the one before its end. -/
def passedLines (lines : List SourceLine) (e : Extent) : List Nat :=
  let first := e.first.line
  let last := e.last.line
  let middle := min (first + 4) last
  let telling := (List.range (middle - first)).filter fun k => saysSomething (lineText lines (first + k))
  let shownEnd := (telling.getLast?.map fun k => first + k + 1).getD first
  let beforeLast := last - 1
  (List.range (shownEnd - (first + 1))).map (first + 1 + ·)
    ++ (if middle < beforeLast && saysSomething (lineText lines beforeLast) then [beforeLast] else [])

/-- The marks of a range over several lines, each with its line. -/
def Extent.marks (lines : List SourceLine) (e : Extent) : List (Nat × Mark) :=
  if e.doubled then [(e.last.line, e.closing)]
  else
    (e.first.line, e.opening) :: (passedLines lines e).map (·, e.passing)
      ++ [(e.last.line, e.closing)]

/-- The mark of a range on one line, which is at least one column wide, or the extent of a range
over several. -/
def Highlight.place (lines : List SourceLine) (a : Highlight) : (Nat × Mark) ⊕ Extent :=
  let (first, last) := places lines a.start a.stop
  if first.line = last.line then
    let stop := if first.column = last.column then last.column + 1 else last.column
    .inl (first.line, ⟨first.char, first.column, stop, a.primary, a.label, .single⟩)
  else .inr ⟨first, last, a.primary, a.label, 1, false⟩

/-- A line with its marks. -/
structure MarkedLine where
  number : Nat
  text : List Char
  marks : List Mark
deriving Repr

/-- The order of marks from the left; a mark that passes comes before all others. -/
def Mark.fromLeft (a b : Mark) : Bool :=
  if a.isPassing then true
  else if b.isPassing then false
  else a.char < b.char || (a.char = b.char && a.first ≤ b.first)

/-- The lines with marks on them, and how deep the ranges over several lines are nested. -/
def markedLines (lines : List SourceLine) (highlights : List Highlight) :
    Nat × List MarkedLine :=
  let placed := highlights.map (Highlight.place lines)
  let singles := placed.filterMap Sum.getLeft?
  let extents := Extent.settle (placed.filterMap Sum.getRight?)
  let marks := singles ++ extents.flatMap (Extent.marks lines)
  let shown := lines.filterMap fun l =>
    match (marks.filter (·.1 = l.number)).map Prod.snd with
    | [] => none
    | ms => some ⟨l.number, l.text, ms.mergeSort Mark.fromLeft⟩
  ((extents.map Extent.depth).foldl max 0, shown)

end Snippet

end RequestFile
