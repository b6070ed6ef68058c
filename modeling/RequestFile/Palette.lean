/-!
Terminal styles of tree dumps.
-/

namespace RequestFile

/-- The escape sequences around the parts of a dump. -/
structure Palette where
  /-- Before a kind of node. -/
  node : String
  /-- Before the text of a token. -/
  token : String
  /-- Before a range. -/
  span : String
  /-- After any of them. -/
  reset : String
deriving DecidableEq, Repr

namespace Palette

/-- No styles. -/
def plain : Palette :=
  ⟨"", "", "", ""⟩

/-- Blue kinds, green text and dim ranges. -/
def ansi : Palette :=
  ⟨"\x1b[34m", "\x1b[32m", "\x1b[2m", "\x1b[0m"⟩

/-- The palette for output with or without colors. -/
def of (colored : Bool) : Palette :=
  if colored then ansi else plain

/-- Whether a palette has styles at all. -/
def isColored (p : Palette) : Bool :=
  !p.reset.isEmpty

/-- A range in brackets after a space. -/
def spanText (p : Palette) (start size : Nat) : String :=
  s!" {p.span}[{start}..{start + size}]{p.reset}"

end Palette

end RequestFile
