import RequestFile.Kind
import RequestFile.Text.Span

/-!
Syntax trees.

A tree is a leaf with its text or a node with its children, and holds every character of its source:
`Tree.text` gives the source back. Where a part stands follows from the texts before it, so a tree
holds no offsets; `Placed` is a tree together with the offset of its first byte.
-/

namespace RequestFile

/-- A syntax tree: leaves hold all text, nodes group them. -/
inductive Tree where
  | leaf (kind : Kind) (text : String)
  | node (kind : Kind) (children : List Tree)
deriving Repr

namespace Tree

/-- What the tree is, by its root. -/
def kind : Tree → Kind
  | leaf k _ => k
  | node k _ => k

/-- Whether the tree is a node. -/
def isNode : Tree → Bool
  | leaf _ _ => false
  | node _ _ => true

/-- The trees directly below the root. -/
def children : Tree → List Tree
  | leaf _ _ => []
  | node _ ts => ts

mutual

/-- The leaves of a tree in order, each with its kind and text. -/
def leaves : Tree → List (Kind × String)
  | leaf k s => [(k, s)]
  | node _ ts => leavesOf ts

/-- The leaves of a list of trees, in order. -/
def leavesOf : List Tree → List (Kind × String)
  | [] => []
  | t :: ts => leaves t ++ leavesOf ts

end

mutual

/-- The number of bytes a tree covers. -/
def size : Tree → Nat
  | leaf _ s => s.utf8ByteSize
  | node _ ts => sizeOf ts

/-- The number of bytes a list of trees covers. -/
def sizeOf : List Tree → Nat
  | [] => 0
  | t :: ts => size t + sizeOf ts

end

/-- The source text a tree covers. -/
def text (t : Tree) : String :=
  String.join (t.leaves.map Prod.snd)

/-- The kind of the last leaf of a tree. -/
def lastLeafKind? (t : Tree) : Option Kind :=
  t.leaves.getLast?.map Prod.fst

/-- The first child node of a given kind. -/
def child? (t : Tree) (k : Kind) : Option Tree :=
  t.children.find? fun c => c.isNode && c.kind == k

/-- The child nodes of a given kind, in order. -/
def childrenOf (t : Tree) (k : Kind) : List Tree :=
  t.children.filter fun c => c.isNode && c.kind == k

/-- The leaves directly below the root, each with its kind and text. -/
def ownLeaves (t : Tree) : List (Kind × String) :=
  t.children.filterMap fun
    | leaf k s => some (k, s)
    | node _ _ => none

mutual

/-- The nodes of a given kind in a tree, the root included, from the root down and left to right. -/
def nodesOf (k : Kind) : Tree → List Tree
  | leaf _ _ => []
  | node k' ts => if k' == k then node k' ts :: nodesOfAll k ts else nodesOfAll k ts

/-- The nodes of a given kind in a list of trees. -/
def nodesOfAll (k : Kind) : List Tree → List Tree
  | [] => []
  | t :: ts => nodesOf k t ++ nodesOfAll k ts

end

end Tree

/-- A tree and the offset of its first byte. -/
structure Placed where
  start : Nat
  tree : Tree

namespace Placed

/-- The bytes covered. -/
def span (p : Placed) : Span :=
  ⟨p.start, p.tree.size⟩

/-- Neighbouring trees, the first of which starts at `offset`. -/
def sequence (offset : Nat) : List Tree → List Placed
  | [] => []
  | t :: ts => ⟨offset, t⟩ :: sequence (offset + t.size) ts

/-- The trees directly below the root. -/
def children (p : Placed) : List Placed :=
  sequence p.start p.tree.children

/-- The child nodes of a given kind, in order. -/
def childrenOf (p : Placed) (k : Kind) : List Placed :=
  p.children.filter fun c => c.tree.isNode && c.tree.kind == k

/-- The first child node of a given kind. -/
def child? (p : Placed) (k : Kind) : Option Placed :=
  p.children.find? fun c => c.tree.isNode && c.tree.kind == k

end Placed

end RequestFile
