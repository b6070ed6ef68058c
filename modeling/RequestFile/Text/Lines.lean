import RequestFile.Text.Blank

/-!
Lines of a text.

Only a line feed parts lines here; a carriage return in front of it belongs to the line it ends.
`joinedLines` writes a text that was broken over lines as one, and `lineNumber` counts the lines in
front of an offset.
-/

namespace RequestFile

/-- The pieces of a list of characters between its line feeds. -/
def splitAtLineFeeds : List Char → List (List Char)
  | [] => [[]]
  | c :: cs =>
    if c = '\n' then [] :: splitAtLineFeeds cs
    else match splitAtLineFeeds cs with
      | [] => [[c]]
      | l :: ls => (c :: l) :: ls

/-- The lines of a text in one, each without the white space at its ends. -/
def joinedLines (s : String) : String :=
  String.ofList ((splitAtLineFeeds s.toList).flatMap (trimList isWhiteSpace))

/-- The characters that lie within the first `n` bytes. -/
def takeBytes (n : Nat) : List Char → List Char
  | [] => []
  | c :: cs => if c.utf8Size ≤ n then c :: takeBytes (n - c.utf8Size) cs else []

/-- The number of the line, from 1, on which the byte at an offset lies. -/
def lineNumber (source : String) (offset : Nat) : Nat :=
  (takeBytes offset source.toList).count '\n' + 1

/-- The number that a text of decimal digits stands for. -/
def decimal? (s : String) : Option Nat :=
  if s.toList.all Char.isDigit && !s.isEmpty then
    some (s.toList.foldl (fun n c => 10 * n + (c.toNat - '0'.toNat)) 0)
  else none

end RequestFile
