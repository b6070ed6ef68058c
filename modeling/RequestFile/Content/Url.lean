import RequestFile.Content.Value
import RequestFile.Text.Lines

/-!
Parameters and URLs.
-/

namespace RequestFile

/-- A parameter of a query or a form. The name or the value may be missing. -/
structure Param where
  name : Option String
  value : Option String
deriving DecidableEq, Repr

/-- The parameter at a node whose name and value are children of given kinds. -/
def Param.ofTree (nameKind valueKind : Kind) (t : Tree) : Param where
  name := (t.child? nameKind).map Tree.text
  value := (t.child? valueKind).map Tree.text

/-- The URL of a request. -/
structure Url extends Piece where
  params : List Param
  references : List Variable
  fragment : Option String
deriving DecidableEq, Repr

namespace Url

/-- The URL at a node. Parameters are found at any depth, variables and the fragment directly below
the node. -/
def ofTree (p : Placed) : Url where
  toPiece := Piece.ofTree p
  params := (p.tree.nodesOf .queryParam).map (Param.ofTree .queryParamName .queryParamValue)
  references := (p.tree.childrenOf .variable).map Variable.ofTree
  fragment := (p.tree.child? .fragment).map Tree.text

/-- The URL on one line: the lines it is broken over, joined. -/
def oneLine (u : Url) : String :=
  joinedLines u.text

end Url

end RequestFile
