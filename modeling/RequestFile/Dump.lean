import RequestFile.Palette
import RequestFile.Text.Quoted
import RequestFile.Tree

/-!
Dumps of a syntax tree.

A dump has a line for each node and each token, indented by depth: the kind, the range if it is
asked for, and the quoted text of a token. Tokens of layout are shown only if they are asked for.
-/

namespace RequestFile

/-- How a dump looks. -/
structure DumpStyle where
  /-- Whether tokens of layout are shown. -/
  trivia : Bool
  /-- Whether ranges are shown. -/
  spans : Bool
  palette : Palette
deriving DecidableEq, Repr

namespace DumpStyle

/-- Plain, without layout and ranges. -/
def brief : DumpStyle :=
  ⟨false, false, Palette.plain⟩

/-- Plain, with layout and without ranges. -/
def full : DumpStyle :=
  { brief with trivia := true }

/-- The range of a part, if ranges are shown. -/
def spanText (style : DumpStyle) (start size : Nat) : String :=
  if style.spans then style.palette.spanText start size else ""

end DumpStyle

/-- The indentation at a depth: two spaces a level. -/
def indent (depth : Nat) : String :=
  String.ofList (List.replicate (2 * depth) ' ')

namespace Dump

/-- The line of a node. -/
def nodeLine (style : DumpStyle) (depth start size : Nat) (k : Kind) : String :=
  indent depth ++ style.palette.node ++ k.name ++ style.palette.reset ++ style.spanText start size
    ++ "\n"

/-- The line of a token. -/
def tokenLine (style : DumpStyle) (depth start : Nat) (k : Kind) (text : String) : String :=
  indent depth ++ k.name ++ style.spanText start text.utf8ByteSize ++ " " ++ style.palette.token
    ++ Quoted.encode text ++ style.palette.reset ++ "\n"

mutual

/-- The lines of a tree that starts at an offset. -/
def tree (style : DumpStyle) (depth start : Nat) : Tree → String
  | .leaf k text => if k.isTrivia && !style.trivia then "" else tokenLine style depth start k text
  | .node k ts => nodeLine style depth start (Tree.sizeOf ts) k ++ trees style (depth + 1) start ts

/-- The lines of neighbouring trees, the first of which starts at an offset. -/
def trees (style : DumpStyle) (depth start : Nat) : List Tree → String
  | [] => ""
  | t :: ts => tree style depth start t ++ trees style depth (start + t.size) ts

end

end Dump

/-- The dump of a whole tree. -/
def Tree.dump (style : DumpStyle) (t : Tree) : String :=
  Dump.tree style 0 0 t

end RequestFile
