import RequestFile.Text.CodePoints

/-!
Blanks and line breaks.

Three classes of invisible characters matter to a request file.

* **Blanks** separate the words of a line: the tab and the general category `Zs` (`isBlank`).
* **Stray breaks** are vertical white space that ends no line of a request file: the vertical tab,
  the form feed, U+0085, U+2028 and U+2029 (`isStrayBreak`).
* **White space** is the property `White_Space`: blanks, stray breaks, line feed and carriage return
  (`isWhiteSpace`). It is what `trimmed` strips.
-/

namespace RequestFile

namespace CodePoints

/-- The general category `Zs`. -/
def spaceSeparators : CodePoints :=
  [(0x20, 0x20), (0xA0, 0xA0), (0x1680, 0x1680), (0x2000, 0x200A), (0x202F, 0x202F),
   (0x205F, 0x205F), (0x3000, 0x3000)]

/-- The property `White_Space`. -/
def whiteSpace : CodePoints :=
  [(0x9, 0xD), (0x20, 0x20), (0x85, 0x85), (0xA0, 0xA0), (0x1680, 0x1680), (0x2000, 0x200A),
   (0x2028, 0x2029), (0x202F, 0x202F), (0x205F, 0x205F), (0x3000, 0x3000)]

/-- Vertical white space other than line feed and carriage return. -/
def strayBreaks : CodePoints :=
  [(0xB, 0xC), (0x85, 0x85), (0x2028, 0x2029)]

end CodePoints

/-- Whether a character separates words inside a line: a tab or a space of any width. -/
def isBlank (c : Char) : Bool :=
  c == '\t' || CodePoints.spaceSeparators.contains c

/-- Whether a character is vertical white space that does not end a line. -/
def isStrayBreak (c : Char) : Bool :=
  CodePoints.strayBreaks.contains c

/-- Whether a character has the property `White_Space`. -/
def isWhiteSpace (c : Char) : Bool :=
  CodePoints.whiteSpace.contains c

/-- A list without the longest run of elements satisfying `p` at either end. -/
def trimList {α : Type} (p : α → Bool) (l : List α) : List α :=
  ((l.dropWhile p).reverse.dropWhile p).reverse

/-- A text without white space at either end. -/
def trimmed (s : String) : String :=
  String.ofList (trimList isWhiteSpace s.toList)

end RequestFile
