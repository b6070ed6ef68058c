import RequestFile.Tree

/-!
Values and named values.

The nodes of a tree are read into plain data. A `Piece` is a node as text at a place. A `Value` is a
piece with the variables it refers to, and an `Entry` is a line that gives a name a value: metadata,
a declaration, a header.
-/

namespace RequestFile

/-- A node as a text at a place. -/
structure Piece where
  span : Span
  text : String
deriving DecidableEq, Repr

/-- The text and the place of a tree. -/
def Piece.ofTree (p : Placed) : Piece :=
  ⟨p.span, p.tree.text⟩

/-- A reference to a variable. The name may be missing, and the reference may be left open. -/
structure Variable where
  text : String
  name : Option String
  closed : Bool
deriving DecidableEq, Repr

/-- The reference at a node. -/
def Variable.ofTree (t : Tree) : Variable where
  text := t.text
  name := (t.child? .identifier).map Tree.text
  closed := t.lastLeafKind? == some .varClose

/-- A text with references to variables. -/
structure Value extends Piece where
  references : List Variable
deriving DecidableEq, Repr

/-- The text at a node and the references directly below it. -/
def Value.ofTree (p : Placed) : Value where
  toPiece := Piece.ofTree p
  references := (p.tree.childrenOf .variable).map Variable.ofTree

/-- A name and a value, either of which may be missing. -/
structure Entry extends Piece where
  name : Option Piece
  value : Option Value
deriving DecidableEq, Repr

namespace Entry

/-- The entry at a node whose name is a child of a given kind. -/
def ofTree (nameKind : Kind) (p : Placed) : Entry where
  toPiece := Piece.ofTree p
  name := (p.child? nameKind).map Piece.ofTree
  value := (p.child? .value).map Value.ofTree

/-- The name of an entry, empty if it is missing. -/
def nameText (e : Entry) : String :=
  (e.name.map Piece.text).getD ""

/-- The text of the value of an entry, empty if it is missing. -/
def valueText (e : Entry) : String :=
  (e.value.map (·.text)).getD ""

end Entry

end RequestFile
