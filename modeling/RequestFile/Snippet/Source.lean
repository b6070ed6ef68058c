import RequestFile.Snippet.Glyph
import RequestFile.Text.Lines
import RequestFile.Text.Total

/-!
Source lines and places in them.

A line ends with a line feed, or a carriage return and a line feed, which do not belong to its text.
`locate` finds the place of a byte; the last line takes what lies beyond the source.
-/

namespace RequestFile

namespace Snippet

/-- A line of a source. -/
structure SourceLine where
  /-- The number of the line, from 1. -/
  number : Nat
  text : List Char
  /-- The offset of the first byte. -/
  start : Nat
  /-- The number of bytes of the text. -/
  size : Nat
  /-- The number of bytes of the terminator. -/
  terminator : Nat
deriving Repr

namespace SourceLine

/-- The offset just past the line and its terminator. -/
def stop (l : SourceLine) : Nat :=
  l.start + l.size + l.terminator

/-- Whether the byte at an offset belongs to the line or its terminator. -/
def holds (l : SourceLine) (offset : Nat) : Bool :=
  l.start ≤ offset && offset < l.stop

end SourceLine

/-- The number of bytes of a list of characters. -/
def byteCount (cs : List Char) : Nat :=
  total Char.utf8Size cs

/-- The line that begins at an offset and was read up to its line feed, in reverse. -/
def finishedLine (number start : Nat) (reversed : List Char) : SourceLine :=
  match reversed with
  | '\r' :: cs => ⟨number, cs.reverse, start, byteCount cs, 2⟩
  | cs => ⟨number, cs.reverse, start, byteCount cs, 1⟩

/-- The lines of a text from a line on, part of which has been read, in reverse. -/
def linesFrom (number start : Nat) (reversed : List Char) : List Char → List SourceLine
  | [] => if reversed.isEmpty then [] else [⟨number, reversed.reverse, start, byteCount reversed, 0⟩]
  | c :: cs =>
    if c = '\n' then
      let line := finishedLine number start reversed
      line :: linesFrom (number + 1) line.stop [] cs
    else linesFrom number start (c :: reversed) cs

/-- The lines of a source. An empty source has one empty line. -/
def sourceLines (source : List Char) : List SourceLine :=
  match linesFrom 1 0 [] source with
  | [] => [⟨1, [], 0, 0, 0⟩]
  | ls => ls

/-- A place in a source. -/
structure Place where
  line : Nat
  /-- The number of characters in front of it on its line. -/
  char : Nat
  /-- The number of columns in front of it on its line. -/
  column : Nat
deriving DecidableEq, Repr

/-- The line on which the byte at an offset is. -/
def lineAt (lines : List SourceLine) (offset : Nat) : SourceLine :=
  match lines.find? (·.holds offset) with
  | some l => l
  | none => lines.getLast?.getD ⟨1, [], 0, 0, 0⟩

/-- The place of an offset on a line. -/
def placeOn (l : SourceLine) (offset : Nat) : Place :=
  let before := takeBytes (offset - l.start) l.text
  ⟨l.number, before.length, width before⟩

/-- The place where a range starts. In the middle of a terminator, or past it, it counts as one
character further. -/
def startPlace (lines : List SourceLine) (offset : Nat) : Place :=
  let l := lineAt lines offset
  let p := placeOn l offset
  if l.size < offset - l.start then { p with char := p.char + 1 } else p

/-- The place where a range ends that does not start on the same line. Past the text of its line, it
counts as one further. -/
def endPlace (lines : List SourceLine) (startLine offset : Nat) : Place :=
  let l := lineAt lines offset
  let p := placeOn l offset
  if l.number ≠ startLine && l.start + l.size < offset then
    { p with char := p.char + 1, column := p.column + 1 }
  else p

/-- The places where a range starts and ends. -/
def places (lines : List SourceLine) (start stop : Nat) : Place × Place :=
  let first := startPlace lines start
  (first, if start = stop then first else endPlace lines first.line stop)

end Snippet

end RequestFile
