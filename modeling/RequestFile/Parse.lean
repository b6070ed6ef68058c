import RequestFile.Parse.Section

/-!
Parsing a source.

`Parsed.ofSource` always builds a tree: what fits no production becomes an error node, and problems
are reported beside the tree. It fails only when a limit is reached, or when productions break a
promise to each other.
-/

namespace RequestFile

/-- Why there is no tree. -/
inductive ParseError where
  /-- A limit of the parse was reached. -/
  | limit (l : Limit)
  /-- Productions broke a promise to each other. -/
  | fault (f : Fault)
deriving DecidableEq, Repr

/-- What a parse finds. -/
structure Parsed where
  /-- The tree, which holds the whole source. -/
  tree : Tree
  /-- The problems, in the order they were reported. -/
  reports : List Diagnostic
  /-- The number of tokens taken. -/
  tokens : Nat

namespace Parsed

/-- What a cursor at the end of a parse has found. A fault stops a parse at once, so it counts
before a limit. -/
def ofCursor (c : Cursor) : Except ParseError Parsed :=
  match c.fault, c.exceeded with
  | some f, _ => .error (.fault f)
  | none, some l => .error (.limit l)
  | none, none => .ok ⟨.node .document c.built.toList, c.reports.toList, c.budget.tokens⟩

/-- Parses a source. -/
def ofSource (limits : Limits) (source : String) : Except ParseError Parsed :=
  ofCursor (Cursor.start limits (Token.scan source)).sections

end Parsed

end RequestFile
