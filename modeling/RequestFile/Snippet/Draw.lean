import RequestFile.Snippet.Canvas
import RequestFile.Snippet.Margin

/-!
Drawing source lines with their marks.

A line of source is drawn with its number to the left of a rule. Below it come rows for its marks.

* **Levels.** Every mark is on a level. On level 0 its label stands right after it, on a lower level
  below it, at the end of a connector. Marks go down a level where they would run into each other
  (`levels`).
* **Strokes.** Connectors, the horizontal lines of ranges over several lines, and labels are put
  first; the marks come last, short ones over long ones (`drawMarks`).
-/

namespace RequestFile

namespace Snippet

/-- Where the parts of a report stand. -/
structure Frame where
  severity : Severity
  /-- The number of digits of the largest line number. -/
  digits : Nat
  /-- How deep ranges over several lines are nested. -/
  depth : Nat
  margin : Margin

namespace Frame

/-- The column of the rule. -/
def ruleColumn (f : Frame) : Nat :=
  f.digits + 1

/-- The column from which on ranges over several lines are drawn. -/
def edge (f : Frame) : Nat :=
  f.digits + 3

/-- The first column of source text. -/
def codeColumn (f : Frame) : Nat :=
  if f.depth = 0 then f.edge else f.edge + f.depth + 1

/-- The style of a mark. -/
def ink (f : Frame) (m : Mark) : Ink :=
  if m.primary then .severity f.severity else .rule

/-- The rule on a row. -/
def drawRule (f : Frame) (row : Nat) (canvas : Canvas) : Canvas :=
  canvas.put row f.ruleColumn '|' .rule

/-- The vertical line of a range over several lines on a row. -/
def drawBar (f : Frame) (row depth : Nat) (ink : Ink) (canvas : Canvas) : Canvas :=
  canvas.put row (f.edge + depth - 1) '|' ink

end Frame

/-- The character of a mark. -/
def Mark.glyph (m : Mark) : Char :=
  if m.primary then '^' else '-'

/-! ### Source text -/

/-- Marks text that is not shown. -/
def ellipsis : List Char :=
  ['.', '.', '.']

/-- Draws the source text of a line at a row and gives the number of columns cut on its left. -/
def drawText (f : Frame) (row number : Nat) (text : List Char) (canvas : Canvas) : Canvas × Nat :=
  let text := shown text
  let total := width text
  let left := f.margin.leftOf total
  let right := f.margin.rightOf total
  let code := takeColumns (right - left) (dropColumns left text)
  let canvas := canvas.puts row f.codeColumn code .plain
  let canvas := if f.margin.cutsLeft then canvas.puts row f.codeColumn ellipsis .rule else canvas
  let canvas :=
    if f.margin.cutsRight total then canvas.puts row (f.codeColumn + code.length - 3) ellipsis .rule
    else canvas
  let canvas := canvas.puts row 0 (toString number).toList .rule
  (f.drawRule row canvas, left)

/-! ### Levels -/

/-- A mark and its level. -/
structure Levelled where
  level : Nat
  mark : Mark

namespace Mark

/-- Whether two marks share a column, if the second reaches `padding` columns further. -/
def overlaps (a b : Mark) (padding : Nat) : Bool :=
  (b.first ≤ a.first && a.first < b.last + padding)
    || (a.first ≤ b.first && b.first < a.last + padding)

/-- Whether two marks cover the same columns. -/
def sameColumns (a b : Mark) : Bool :=
  a.first = b.first && a.last = b.last

/-- The columns that a label takes with the space around it. -/
def labelWidth (m : Mark) : Nat :=
  m.label.elim 0 fun s => s.utf8ByteSize + 2

/-- Whether the label of `a` cannot stand on the first level because of `b` to its left. -/
def isCrowdedBy (a b : Mark) : Bool :=
  b.overlaps a 0 && a.hasLabel && !(b.sameColumns a && !b.hasLabel)

/-- Whether marks to the left of `a` have to go a level further down because of `b` among them. -/
def pushesBelow (level : Nat) (a b : Mark) : Bool :=
  (b.overlaps a b.labelWidth && a.hasLabel && b.hasLabel)
    || (a.takesSpace && b.hasLabel)
    || (a.hasLabel && b.takesSpace)
    || (a.takesSpace && b.takesSpace)
    || (b.overlaps a b.labelWidth && b.last ≤ a.last && b.hasLabel && level = 0)

end Mark

/-- The levels of marks listed from the right, when the one before them left off at a level. -/
def levelsFrom (level : Nat) : List Mark → List Levelled
  | [] => []
  | m :: others =>
    let own := if level = 0 && others.any m.isCrowdedBy then 1 else level
    let next := if others.any (m.pushesBelow own) then own + 1 else own
    ⟨own, m⟩ :: levelsFrom next others

/-- The lowest level that is reached, counting the one after the last mark. -/
def lowestFrom (level : Nat) : List Mark → Nat
  | [] => level
  | m :: others =>
    let own := if level = 0 && others.any m.isCrowdedBy then 1 else level
    lowestFrom (if others.any (m.pushesBelow own) then own + 1 else own) others

/-- The marks of a line from the right with their levels, and the number of rows below the first.
If all of them open ranges, the levels are turned round, so that their lines do not cross. -/
def levels (marks : List Mark) : List Levelled × Nat :=
  let sorted := marks.mergeSort fun a b => b.first ≤ a.first
  let placed := levelsFrom 0 sorted
  let lowest := lowestFrom 0 sorted
  let rows := if lowest = 0 then 0 else lowest + 1
  if placed.all fun l => l.mark.isOpening then
    let top := (placed.map Levelled.level).foldl max 0
    (placed.map fun l => { l with level := top - l.level }, rows - 1)
  else (placed, rows)

/-! ### Marks -/

/-- The column of the start of a mark. -/
def markColumn (f : Frame) (left : Nat) (m : Mark) : Nat :=
  f.codeColumn + m.first - left

/-- The horizontal line from the edge to a mark that opens or closes a range. -/
def drawHorizontal (f : Frame) (row left : Nat) (canvas : Canvas) (l : Levelled) : Canvas :=
  match l.mark.stroke with
  | .opens d | .closes d =>
    canvas.fillRow (row + l.level + 1) (f.edge + d) (markColumn f left l.mark) '_' (f.ink l.mark)
  | _ => canvas

/-- The connector from a mark down to its level. -/
def drawConnector (f : Frame) (row left : Nat) (canvas : Canvas) (l : Levelled) : Canvas :=
  if 0 < l.level && (l.mark.hasLabel || l.mark.takesSpace) then
    canvas.fillColumn (markColumn f left l.mark) (row + 1) (row + l.level + 2) '|' (f.ink l.mark)
  else canvas

/-- The vertical line at the edge beside the rows of a mark that opens or closes a range. -/
def drawEdge (f : Frame) (row rows : Nat) (canvas : Canvas) (l : Levelled) : Canvas :=
  let ink := f.ink l.mark
  match l.mark.stroke with
  | .opens d =>
    let canvas := canvas.put (row + l.level + 1) (f.edge + d - 1) ' ' ink
    canvas.fillColumn (f.edge + d - 1) (row + l.level + 2) (row + rows + 2) '|' ink
  | .closes d => canvas.fillColumn (f.edge + d - 1) row (row + l.level + 2) '|' ink
  | _ => canvas

/-- The connector of a mark and the vertical line at the edge. -/
def drawVertical (f : Frame) (row rows left : Nat) (canvas : Canvas) (l : Levelled) : Canvas :=
  drawEdge f row rows (drawConnector f row left canvas l) l

/-- The label of a mark: after it on the first level, below it otherwise. -/
def drawLabel (f : Frame) (row left : Nat) (canvas : Canvas) (l : Levelled) : Canvas :=
  match l.mark.label with
  | none => canvas
  | some label =>
    let (labelRow, column) :=
      if l.level = 0 then (row + 1, l.mark.last + if l.mark.last = 0 then 2 else 1)
      else (row + l.level + 2, l.mark.first)
    canvas.puts labelRow (f.codeColumn + (column - left)) label.toList (f.ink l.mark)

/-- The mark itself. -/
def drawUnderline (f : Frame) (row left : Nat) (canvas : Canvas) (l : Levelled) : Canvas :=
  let m := l.mark
  let column := markColumn f left m
  let canvas := canvas.fillRow (row + 1) column (column + (m.last - m.first)) m.glyph (f.ink m)
  if m.takesSpace then canvas.put (row + 1) column m.glyph (f.ink m) else canvas

/-- The rows below a source line at a row. -/
def drawMarks (f : Frame) (row left : Nat) (marks : List Mark) (canvas : Canvas) : Canvas :=
  let (placed, rows) := levels marks
  let canvas := (List.range (rows + 1)).foldl (fun cv i => f.drawRule (row + 1 + i) cv) canvas
  let canvas := placed.foldl (drawHorizontal f row left) canvas
  let canvas := placed.foldl (drawVertical f row rows left) canvas
  let canvas := placed.foldl (drawLabel f row left) canvas
  let bySize := placed.mergeSort fun a b =>
    b.mark.length < a.mark.length
      || (b.mark.length = a.mark.length && (!a.mark.primary || b.mark.primary))
  bySize.foldl (drawUnderline f row left) canvas

/-! ### Lines -/

/-- A range over several lines that has been opened: its depth and style. -/
structure Open where
  depth : Nat
  ink : Ink

/-- Whether a line begins with ranges only: then a slash at the edge stands for each of them. -/
def opensAtIndentation (l : MarkedLine) : Bool :=
  l.marks.all fun m => m.isPassing ||
    (m.isOpening && (l.text.take m.char).all isWhiteSpace)

/-- The slashes of a line that begins with ranges only. -/
def drawSlashes (f : Frame) (row : Nat) (marks : List Mark) (canvas : Canvas) : Canvas :=
  marks.foldl
    (fun cv m => match m.stroke with
      | .opens d => cv.put row (f.edge + d - 1) '/' (f.ink m)
      | _ => cv)
    canvas

/-- Draws a line with its marks at the end of a canvas. -/
def drawLine (f : Frame) (l : MarkedLine) (canvas : Canvas) : Canvas :=
  let row := canvas.size
  let (canvas, left) := drawText f row l.number l.text canvas
  if opensAtIndentation l then drawSlashes f row l.marks canvas
  else if l.marks.all Mark.isPassing then canvas
  else drawMarks f row left l.marks canvas

/-- The ranges that a line opens or closes. -/
def turns (f : Frame) (l : MarkedLine) : List Open :=
  l.marks.filterMap fun m => match m.stroke with
    | .opens d | .closes d => some ⟨d, f.ink m⟩
    | _ => none

/-- The ranges that are still open after a line: without those that it closes. -/
def stillOpen (opened : List Open) (turned : List Open) : List Open :=
  opened.filter fun o => turned.all (·.depth ≠ o.depth)

/-- The ranges that a line opens. -/
def newlyOpen (opened : List Open) (turned : List Open) : List Open :=
  turned.filter fun t => opened.all (·.depth ≠ t.depth)

/-- Draws the vertical lines of open ranges on the rows from `first` to the end of the canvas. -/
def drawBars (f : Frame) (first : Nat) (opened : List Open) (canvas : Canvas) : Canvas :=
  opened.foldl
    (fun cv o => (List.range (cv.size - first)).foldl
      (fun cv i => f.drawBar (first + i) o.depth o.ink cv) cv)
    canvas

/-- Draws what stands between a line and the next one shown: nothing, the line between them, or an
ellipsis. -/
def drawGap (f : Frame) (lines : List SourceLine) (number next : Nat) (canvas : Canvas) : Canvas :=
  if next = number + 2 then
    (drawText f canvas.size (number + 1) (lineText lines (number + 1)) canvas).1
  else if number + 2 < next then canvas.puts canvas.size 0 ellipsis .rule
  else canvas

/-- Draws lines with their marks, with what stands between them. -/
def drawLines (f : Frame) (lines : List SourceLine) (opened : List Open) :
    List MarkedLine → Canvas → Canvas
  | [], canvas => canvas
  | l :: rest, canvas =>
    let row := canvas.size
    let turned := turns f l
    let kept := stillOpen opened turned
    let canvas := drawBars f row kept (drawLine f l canvas)
    let opened := kept ++ newlyOpen opened turned
    match rest with
    | [] => canvas
    | next :: _ =>
      let gap := canvas.size
      let canvas := drawBars f gap opened (drawGap f lines l.number next.number canvas)
      drawLines f lines opened rest canvas

end Snippet

end RequestFile
