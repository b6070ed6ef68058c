import RequestFile.Grammar.Repeat
import RequestFile.Kind
import RequestFile.NodeType

/-!
Grammars as data.

A grammar lists the kinds of nodes and the fields that its trees may have, and describes the node
types made of them. The id of a node kind is its place in the list, from 0; that of a field its
place, from 1.

* `Grammar.idOf?`, `Grammar.fieldId?`: the ids of names.
* `Grammar.fault?`: the first reason to refuse a grammar, if there is one. Sizes and names come
  before descriptions, and the descriptions are gone through in order.
* `GrammarFault.message`: the wording of the reasons.
-/

namespace RequestFile

/-- A kind of node by the name that a grammar gives it. -/
structure NodeKind extends NodeName where
  /-- Nodes of this kind stand in trees. -/
  visible : Bool
  /-- The kind of syntax that becomes such a node, for a named kind. -/
  kind : Option Kind
deriving DecidableEq, Repr

namespace NodeKind

/-- A named kind. -/
def ofKind (name : String) (kind : Kind) : NodeKind :=
  ⟨⟨name, true⟩, true, some kind⟩

/-- A kind of token, named by its text. -/
def anonymous (name : String) : NodeKind :=
  ⟨⟨name, false⟩, true, none⟩

/-- A kind that stands in no tree. -/
def hidden (name : String) : NodeKind :=
  ⟨⟨name, false⟩, false, none⟩

end NodeKind

/-- The description of a node kind in a grammar. A field may be listed more than once. -/
structure NodeRule extends NodeName where
  root : Bool := false
  extra : Bool := false
  fields : List (String × Slot NodeName) := []
  children : Option (Slot NodeName) := none
deriving DecidableEq, Repr

namespace NodeRule

/-- The type names in the slots of a description, in order. -/
def nodeNames (r : NodeRule) : List NodeName :=
  r.fields.flatMap (·.2.types) ++ (r.children.map Slot.types).getD []

/-- The node type of a description: the last slot of a field counts. -/
def toNodeType (r : NodeRule) : NodeType where
  toNodeName := r.toNodeName
  root := r.root
  extra := r.extra
  fields := .ofList r.fields
  children := r.children

end NodeRule

/-- A grammar. -/
structure Grammar where
  name : String
  /-- The version of the layout of its tables. -/
  version : Nat
  kinds : List NodeKind
  fields : List String
  rules : List NodeRule
deriving Repr

/-- A reason to refuse a grammar. -/
inductive GrammarFault where
  | version (version : Nat)
  | noKinds
  | tooManyKinds (count : Nat)
  | tooManyFields (count : Nat)
  | repeatedKind (name : String)
  | repeatedField (name : String)
  /-- A kind that is not declared; the name of the rule that needs it, or of the grammar if it is
  the rule's own. -/
  | unknownKind (name usedBy : String)
  | unknownField (name usedBy : String)
  | noRoot
deriving DecidableEq, Repr

namespace Grammar

/-- The oldest version that can be read. -/
def oldestVersion : Nat := 13

/-- The newest version that can be read. -/
def newestVersion : Nat := 15

/-- The greatest number of node kinds, and of fields. -/
def maxIds : Nat := 65534

/-- The id of a node kind by its name. -/
def idOf? (g : Grammar) (t : NodeName) : Option Nat :=
  g.kinds.findIdx? (·.toNodeName == t)

/-- The id of a field by its name. -/
def fieldId? (g : Grammar) (field : String) : Option Nat :=
  (g.fields.idxOf? field).map (· + 1)

/-! ### Faults -/

/-- The fault of a number of kinds or fields. -/
def sizeFault? (g : Grammar) : Option GrammarFault :=
  if g.kinds.isEmpty then some .noKinds
  else if maxIds < g.kinds.length then some (.tooManyKinds g.kinds.length)
  else if maxIds < g.fields.length then some (.tooManyFields g.fields.length)
  else none

/-- The fault of a name that is declared twice. -/
def nameFault? (g : Grammar) : Option GrammarFault :=
  ((firstRepeat? (g.kinds.map NodeKind.toNodeName)).map fun t => .repeatedKind t.name)
    <|> (firstRepeat? g.fields).map .repeatedField

/-- The fault of a rule, given the rules before it. -/
def ruleFault? (g : Grammar) (earlier : List NodeRule) (r : NodeRule) : Option GrammarFault :=
  if (g.idOf? r.toNodeName).isNone then some (.unknownKind r.name g.name)
  else if earlier.any (·.toNodeName == r.toNodeName) then some (.repeatedKind r.name)
  else
    ((r.fields.find? fun f => (g.fieldId? f.1).isNone).map fun f => .unknownField f.1 r.name)
      <|> (r.nodeNames.find? fun t => (g.idOf? t).isNone).map fun t => .unknownKind t.name r.name

/-- The first fault of some rules, given the rules before them. -/
def rulesFault? (g : Grammar) (earlier : List NodeRule) : List NodeRule → Option GrammarFault
  | [] => none
  | r :: rs => g.ruleFault? earlier r <|> g.rulesFault? (earlier ++ [r]) rs

/-- The first reason to refuse a grammar. -/
def fault? (g : Grammar) : Option GrammarFault :=
  if g.version < oldestVersion || newestVersion < g.version then some (.version g.version)
  else
    g.sizeFault? <|> g.nameFault? <|> g.rulesFault? [] g.rules
      <|> if g.rules.any NodeRule.root then none else some .noRoot

/-- The node types of a grammar. -/
def nodeTypes (g : Grammar) : List NodeType :=
  g.rules.map NodeRule.toNodeType

end Grammar

/-- The wording of a reason to refuse a grammar. -/
def GrammarFault.message : GrammarFault → String
  | version v => s!"incompatible grammar ABI version {v} (supported "
      ++ s!"{Grammar.oldestVersion}..={Grammar.newestVersion})"
  | noKinds => "grammar has no node kinds"
  | tooManyKinds n => s!"grammar declares {n} node kinds (at most {Grammar.maxIds})"
  | tooManyFields n => s!"grammar declares {n} fields (at most {Grammar.maxIds})"
  | repeatedKind name => s!"node kind `{name}` is declared twice"
  | repeatedField name => s!"field `{name}` is declared twice"
  | unknownKind name usedBy => s!"unknown node kind `{name}` referenced by `{usedBy}`"
  | unknownField name usedBy => s!"unknown field `{name}` referenced by `{usedBy}`"
  | noRoot => "grammar has no root node type"

end RequestFile
