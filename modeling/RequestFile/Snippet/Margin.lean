import RequestFile.Snippet.Mark

/-!
Which columns of long lines are shown.

A report is at most 140 columns wide. A line that does not fit is cut so that the marks stay in
sight, and so is deep indentation. The columns from `left` to `right` are shown of every line.
-/

namespace RequestFile

namespace Snippet

/-- The columns shown of the lines of a report. -/
structure Margin where
  /-- The first column shown. -/
  left : Nat
  /-- The column after the last one shown. -/
  right : Nat
  /-- How many columns there are for source text. -/
  room : Nat
  /-- Whether `right` is where the marks or labels end, which leaves space for an ellipsis. -/
  padded : Bool
deriving DecidableEq, Repr

namespace Margin

/-- The columns of a whole report. -/
def reportWidth : Nat := 140

/-- The columns left free around marks. -/
def padding : Nat := 6

/-- The number of columns by which a line is indented. -/
def indentation (text : List Char) : Nat :=
  total (fun c => if c = '\t' then tabWidth else 1) (text.takeWhile isWhiteSpace)

/-- The least number in a list, 0 if it is empty. -/
def least (ns : List Nat) : Nat :=
  ns.min?.getD 0

/-- The greatest number in a list, 0 if it is empty. -/
def greatest (ns : List Nat) : Nat :=
  ns.foldl max 0

/-- The columns shown when `room` columns are left for source text. `blank` is the common
indentation, the marks reach from `first` to `last` and their labels to `labels`, and the longest
line has `longest` bytes. -/
def fit (room blank first last labels longest : Nat) : Nat × Nat :=
  let left := if 20 < blank then blank - 16 else 0
  let right := max longest left
  if right - left ≤ room then (left, right)
  else if labels - blank ≤ room then (blank, blank + room)
  else if labels - first ≤ room then
    let left := first - (room - (labels - first)) / 2
    (left, left + room)
  else if last - first ≤ room then
    let left := first - (room - (last - first)) / 5 * 2
    (left, left + room)
  else (first, last)

/-- The margin of a report on some lines, with source text from column `codeColumn` on. -/
def ofLines (codeColumn : Nat) (lines : List MarkedLine) : Margin :=
  let written := lines.filter fun l => l.text.any fun c => !isWhiteSpace c
  let marks := lines.flatMap MarkedLine.marks
  let room := reportWidth - codeColumn
  let blank := least (written.map fun l => indentation l.text) - padding
  let first := least (marks.flatMap fun m => [m.first, m.last]) - padding
  let last := greatest (marks.flatMap fun m => [m.first, m.last]) + padding
  let labels := greatest (marks.map fun m =>
    m.last + (m.label.elim 0 fun s => s.utf8ByteSize + 1)) + padding
  let longest := greatest (lines.map fun l => byteCount l.text)
  let (left, right) := fit room blank first last labels longest
  ⟨left, right, room, right = last || right = labels⟩

/-- The first column shown of a line of a given width. -/
def leftOf (m : Margin) (width : Nat) : Nat :=
  min m.left width

/-- The column after the last one shown of a line of a given width. -/
def rightOf (m : Margin) (width : Nat) : Nat :=
  if width - m.left ≤ m.room then width else min width m.right

/-- Whether lines are cut on the left. -/
def cutsLeft (m : Margin) : Bool :=
  0 < m.left

/-- Whether a line of a given width is cut on the right. -/
def cutsRight (m : Margin) (width : Nat) : Bool :=
  (if m.padded then m.right - padding else m.right) < width && m.left + m.room < width

end Margin

/-- A list without the characters that fill its first `n` columns. -/
def dropColumns (n : Nat) : List Char → List Char
  | [] => []
  | c :: cs => if n = 0 then c :: cs else dropColumns (n - glyphWidth c) cs

/-- The characters that fit into the first `n` columns. -/
def takeColumns (n : Nat) : List Char → List Char
  | [] => []
  | c :: cs => if glyphWidth c ≤ n then c :: takeColumns (n - glyphWidth c) cs else []

end Snippet

end RequestFile
