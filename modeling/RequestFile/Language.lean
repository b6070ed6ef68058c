import RequestFile.Grammar
import RequestFile.NodeType.Table
import RequestFile.NodeType.Text
import RequestFile.Text.Quoted

/-!
Languages.

A language is a grammar that has been found to be sound, with the table of its node types.

* `Language.ofGrammar`: a language, or the first fault of its grammar.
* Names and ids: `idOf?`, `kind?`, `idOfKind?`, `fieldId?`, `fieldName?`.
* `Language.nodes`: what nodes may hold, by ids.
-/

namespace RequestFile

/-- A sound grammar and the table of its node types. -/
structure Language where
  grammar : Grammar
  nodes : NodeTable

/-- The ids of names in a grammar. -/
def Grammar.naming (g : Grammar) : Naming :=
  ⟨g.idOf?, g.fieldId?⟩

namespace Language

/-- The language of a grammar, or the first fault of it. -/
def ofGrammar (g : Grammar) : Except GrammarFault Language :=
  match g.fault? with
  | some fault => .error fault
  | none => .ok ⟨g, .build g.naming g.nodeTypes⟩

variable (l : Language)

/-- The id of a node kind by its name. -/
def idOf? (t : NodeName) : Option Nat :=
  l.grammar.idOf? t

/-- The node kind of an id. -/
def kind? (id : Nat) : Option NodeKind :=
  l.grammar.kinds[id]?

/-- The last id whose nodes a kind of syntax becomes. -/
def idOfKind? (k : Kind) : Option Nat :=
  (l.grammar.kinds.zipIdx.findRev? (·.1.kind == some k)).map Prod.snd

/-- The id of a field by its name. -/
def fieldId? (field : String) : Option Nat :=
  l.grammar.fieldId? field

/-- The name of a field by its id. -/
def fieldName? : Nat → Option String
  | 0 => none
  | i + 1 => l.grammar.fields[i]?

/-- The names of the fields of a type, in the order of their ids. -/
def fieldsOf (id : Nat) : List String :=
  match l.nodes.get? id with
  | none => []
  | some e => (l.grammar.fields.zipIdx 1).filterMap fun (name, i) =>
      if (e.field? i).isSome then some name else none

/-- The names of the named node kinds, in the order of their ids. -/
def namedKinds : List String :=
  (l.grammar.kinds.filter (·.named)).map (·.name)

/-- The description of the node types. -/
def nodeTypes : List NodeType :=
  l.grammar.nodeTypes

/-- The language in one line. -/
def toText : String :=
  s!"Language \x7b name: {Quoted.encode l.grammar.name}, abi_version: {l.grammar.version}, "
    ++ s!"node_kinds: {l.grammar.kinds.length}, fields: {l.grammar.fields.length} \x7d"

end Language

end RequestFile
