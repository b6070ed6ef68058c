import RequestFile.Problem

/-!
A grid of styled characters.

A report is drawn on a canvas: characters are put at a row and a column, later ones over earlier
ones, and what is left of them is blank. `Canvas.toText` reads the rows off, a run of one style
between one pair of escape sequences.
-/

namespace RequestFile

namespace Snippet

/-- What a character of a report is part of. -/
inductive Ink where
  /-- Source text, and blanks. -/
  | plain
  /-- The word for the severity, and primary marks. -/
  | severity (s : Severity)
  /-- The message. -/
  | heading
  /-- Line numbers, rules, related marks and labels. -/
  | rule
  /-- The word in front of a proposed edit. -/
  | advice
  /-- What an edit takes away. -/
  | removed
  /-- What an edit adds. -/
  | added
deriving DecidableEq, Repr

/-- The escape sequence that turns a style on. -/
def Ink.escape : Ink → String
  | .plain => ""
  | .severity .error => "\x1b[1m\x1b[91m"
  | .severity .warning => "\x1b[1m\x1b[33m"
  | .heading => "\x1b[1m"
  | .rule => "\x1b[1m\x1b[94m"
  | .advice => "\x1b[1m\x1b[96m"
  | .removed => "\x1b[91m"
  | .added => "\x1b[92m"

/-- The escape sequence that turns every style off. -/
def Ink.reset : String := "\x1b[0m"

/-- A styled character. -/
structure Cell where
  char : Char
  ink : Ink
deriving DecidableEq, Repr

/-- Rows of styled characters. -/
abbrev Canvas := Array (Array Cell)

namespace Canvas

/-- A row that is at least `n` cells long. -/
def padRow (row : Array Cell) (n : Nat) : Array Cell :=
  row ++ Array.replicate (n - row.size) ⟨' ', .plain⟩

/-- A canvas with at least `n` rows. -/
def padRows (canvas : Canvas) (n : Nat) : Canvas :=
  canvas ++ Array.replicate (n - canvas.size) #[]

/-- Puts one character at a row and a column. -/
def put (row col : Nat) (c : Char) (ink : Ink) (canvas : Canvas) : Canvas :=
  (padRows canvas (row + 1)).modify row fun r =>
    (padRow r (col + 1)).setIfInBounds col ⟨c, ink⟩

/-- Puts a text at a row, from a column on. -/
def puts (row col : Nat) (text : List Char) (ink : Ink) (canvas : Canvas) : Canvas :=
  text.zipIdx.foldl (fun cv (c, i) => cv.put row (col + i) c ink) canvas

/-- Puts a text after the end of a row. -/
def append (row : Nat) (text : List Char) (ink : Ink) (canvas : Canvas) : Canvas :=
  canvas.puts row ((canvas[row]?.map Array.size).getD 0) text ink

/-- Fills the columns of a row from `first` to before `last`. -/
def fillRow (row first last : Nat) (c : Char) (ink : Ink) (canvas : Canvas) : Canvas :=
  canvas.puts row first (List.replicate (last - first) c) ink

/-- Fills the rows of a column from `first` to before `last`. -/
def fillColumn (col first last : Nat) (c : Char) (ink : Ink) (canvas : Canvas) : Canvas :=
  (List.range (last - first)).foldl (fun cv i => cv.put (first + i) col c ink) canvas

/-- Changes the style of the columns of a row from `first` to before `last`. -/
def tint (row first last : Nat) (ink : Ink) (canvas : Canvas) : Canvas :=
  canvas.modify row fun r =>
    r.mapIdx fun i cell => if first ≤ i && i < last then { cell with ink := ink } else cell

/-- A run of cells of one style, with its escape sequences. -/
def runText (ink : Ink) (chars : List Char) : String :=
  if ink = .plain then String.ofList chars else ink.escape ++ String.ofList chars ++ Ink.reset

/-- The text of a row with escape sequences. -/
def styledRow (row : List Cell) : String :=
  String.join ((row.splitBy fun a b => a.ink = b.ink).map fun run =>
    runText ((run.head?.map Cell.ink).getD .plain) (run.map Cell.char))

/-- The text of a row without escape sequences. -/
def plainRow (row : List Cell) : String :=
  String.ofList (row.map Cell.char)

/-- The rows of a canvas as lines. -/
def toText (colored : Bool) (canvas : Canvas) : String :=
  "\n".intercalate (canvas.toList.map fun row =>
    if colored then styledRow row.toList else plainRow row.toList)

end Canvas

end Snippet

end RequestFile
