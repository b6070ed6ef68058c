import RequestFile.Diagnostic.Filter
import RequestFile.Document
import RequestFile.Snippet.Draw

/-!
Diagnostics as reports with the source lines they are about.

A report has a title, the place if the source has a name, the lines with marks, and the hints. A
proposed edit follows as a part of its own, which shows the line before and after. `render` puts the
reports of a list of diagnostics under each other.
-/

namespace RequestFile

open Snippet

/-- The text that diagnostics are about, and how their reports look. -/
structure ReportStyle where
  source : String
  /-- The name of the source. -/
  path : Option String
  colored : Bool
deriving DecidableEq, Repr

namespace Report

/-- The bytes to mark for a range: those of the range, or the one at an empty range, if there is
one. -/
def markedBytes (sourceSize : Nat) (s : Span) : Nat × Nat :=
  if s.start < s.stop then (s.start, s.stop) else (s.start, min (s.start + 1) sourceSize)

/-- The ranges to mark for a diagnostic: its own, and those related to it. -/
def highlights (sourceSize : Nat) (d : Diagnostic) : List Highlight :=
  let own := markedBytes sourceSize d.span
  ⟨own.1, own.2, true, none⟩ :: d.related.map fun r =>
    let bytes := markedBytes sourceSize r.span
    ⟨bytes.1, bytes.2, false, some r.message⟩

/-- A text with line breaks as separate lines. -/
def textLines (s : String) : List (List Char) :=
  (splitAtLineFeeds s.toList).map shown

/-- Puts a text at the end of a canvas row; its further lines go below, indented. -/
def appendText (row indent : Nat) (lines : List (List Char)) (ink : Ink) (canvas : Canvas) :
    Canvas :=
  match lines with
  | [] => canvas
  | first :: rest =>
    let canvas := canvas.append row first ink
    rest.zipIdx.foldl
      (fun (cv : Canvas) l =>
        Canvas.append (row + 1 + l.2) (List.replicate indent ' ' ++ l.1) ink cv)
      canvas

/-- A title: a word, a colon and a text. -/
def title (word : String) (wordInk textInk : Ink) (text : String) : Canvas :=
  let canvas := Canvas.append 0 word.toList wordInk #[]
  let canvas := canvas.append 0 [':', ' '] textInk
  appendText 0 (word.length + 2) (textLines text) textInk canvas

/-- The mark whose place a report names, with its line: the leftmost primary one. -/
def leadingMark? (lines : List MarkedLine) : Option (Nat × Mark) :=
  lines.findSome? fun l =>
    let primary := l.marks.filter Mark.primary
    (primary.mergeSort fun a b => a.char ≤ b.char).head?.map fun m => (l.number, m)

/-- The place that a report is about, if the source has a name. -/
def drawOrigin (f : Frame) (path : Option String) (lines : List MarkedLine) (canvas : Canvas) :
    Canvas :=
  match path with
  | none => canvas
  | some path =>
    let place := match leadingMark? lines with
      | some (number, m) => s!":{number}:{m.char + 1}"
      | none => ""
    let row := canvas.size
    let canvas := canvas.puts row f.digits ['-', '-', '>', ' '] .rule
    canvas.append row (path ++ place).toList .plain

/-- A hint. -/
def drawHint (f : Frame) (canvas : Canvas) (hint : String) : Canvas :=
  let row := canvas.size
  let canvas := canvas.puts row f.ruleColumn ['=', ' '] .rule
  let canvas := canvas.append row "help".toList .heading
  let canvas := canvas.append row [':', ' '] .plain
  appendText row (f.digits + 9) (textLines hint) .plain canvas

/-- The hints of a diagnostic below a rule. -/
def drawHints (f : Frame) (hints : List String) (canvas : Canvas) : Canvas :=
  match hints with
  | [] => canvas
  | hints => hints.foldl (drawHint f) (f.drawRule canvas.size canvas)

/-- A line of an edit: its number, a sign and the text, of which the part from `first` on is what the
edit is about. -/
def drawEditLine (f : Frame) (number : Nat) (sign : Char) (ink : Ink) (before part after : List Char)
    (canvas : Canvas) : Canvas :=
  let row := canvas.size
  let column := f.digits + 3
  let canvas := canvas.puts row 0 (toString number).toList .rule
  let canvas := canvas.puts row (f.digits + 1) [sign, ' '] ink
  let canvas := canvas.puts row column (shown (before ++ part ++ after)) .plain
  let first := column + (shown before).length
  canvas.tint row first (first + (shown part).length) ink

/-- The number of the line on which an edit begins, and the text before, in and after the edited
range on the lines that the range touches. -/
def editedLines (lines : List SourceLine) (start stop : Nat) :
    Nat × List Char × List Char × List Char :=
  let first := lineAt lines start
  let last := lineAt lines stop
  let before := takeBytes (start - first.start) first.text
  if first.number = last.number then
    let upTo := takeBytes (stop - first.start) first.text
    (first.number, before, upTo.drop before.length, first.text.drop upTo.length)
  else
    let upTo := takeBytes (stop - last.start) last.text
    (first.number, before, first.text.drop before.length, last.text.drop upTo.length)

/-- The part of a report that proposes an edit. -/
def fixPart (f : Frame) (lines : List SourceLine) (span : Nat × Nat) (fix : Fix) : Canvas :=
  let (number, before, removed, after) := editedLines lines span.1 span.2
  let canvas := title "help" .advice .plain fix.description
  let canvas := f.drawRule canvas.size canvas
  let canvas := drawEditLine f number '-' .removed before removed after canvas
  let canvas := drawEditLine f number '+' .added before fix.replacement.toList after canvas
  f.drawRule canvas.size canvas

/-- The part of a report that states the problem. -/
def problemPart (f : Frame) (style : ReportStyle) (lines : List SourceLine)
    (marked : List MarkedLine) (d : Diagnostic) : Canvas :=
  let canvas := title d.severity.name (.severity d.severity) .heading d.message
  let canvas := drawOrigin f style.path marked canvas
  let canvas := f.drawRule canvas.size canvas
  let canvas := drawLines f lines [] marked canvas
  let canvas := drawHints f d.hints canvas
  if d.fix.isSome && d.hints.isEmpty then f.drawRule canvas.size canvas else canvas

/-- The number of decimal digits of a number. -/
def digitCount (n : Nat) : Nat :=
  (toString n).length

/-- The report of one diagnostic. -/
def render (style : ReportStyle) (d : Diagnostic) : String :=
  let size := style.source.utf8ByteSize
  let lines := sourceLines style.source.toList
  let (depth, marked) := markedLines lines (highlights size d)
  let digits := digitCount ((marked.getLast?.map MarkedLine.number).getD 1)
  let codeColumn := if depth = 0 then digits + 3 else digits + 3 + depth + 1
  let f : Frame := ⟨d.severity, digits, depth, Margin.ofLines codeColumn marked⟩
  let problem := (problemPart f style lines marked d).toText style.colored
  match d.fix with
  | none => problem
  | some fix =>
    problem ++ "\n" ++ (fixPart f lines (markedBytes size d.span) fix).toText style.colored

end Report

/-- The reports of diagnostics, parted by empty lines. -/
def Diagnostic.render (style : ReportStyle) (ds : List Diagnostic) : String :=
  "\n\n".intercalate (ds.map (Report.render style))

/-- The plain reports of the diagnostics of a document that are not fallout of others. -/
def Document.dumpDiagnostics (d : Document) : String :=
  Diagnostic.render ⟨d.source, none, false⟩ (Diagnostic.filtered d.diagnostics)

end RequestFile
