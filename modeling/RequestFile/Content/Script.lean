import RequestFile.Content.Value

/-!
Scripts and redirects.
-/

namespace RequestFile

/-- A script: its code, or the path of the file that holds it. -/
inductive Script where
  /-- Code between delimiters, the second of which may be missing. -/
  | inline (code : String) (closed : Bool)
  | file (path : Value)
deriving DecidableEq, Repr

namespace Script

/-- The code of an inline script: its text without the delimiters. -/
def codeOf (t : Tree) : String :=
  String.join ((t.ownLeaves.filter fun l => l.1 != .scriptOpen && l.1 != .scriptClose).map Prod.snd)

/-- The script that a node is, if it is one. -/
def ofTree? (p : Placed) : Option Script :=
  match p.tree with
  | .node .script _ =>
    some (.inline (codeOf p.tree) (p.tree.lastLeafKind? == some .scriptClose))
  | .node .path _ => some (.file (Value.ofTree p))
  | _ => none

/-- The script on a line that runs one. -/
def ofLine (p : Placed) : Option Script :=
  p.children.findSome? ofTree?

end Script

/-- A file to write a response to. -/
structure Redirect where
  path : Option Value
  /-- Whether a file that is there already is overwritten. -/
  overwrite : Bool
deriving DecidableEq, Repr

/-- The redirect at a node; its first leaf tells whether it overwrites. -/
def Redirect.ofTree (p : Placed) : Redirect where
  path := (p.child? .path).map Value.ofTree
  overwrite := (p.tree.ownLeaves.head?.map Prod.snd) == some ">>!"

end RequestFile
