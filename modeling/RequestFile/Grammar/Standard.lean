import RequestFile.Grammar
import RequestFile.Kind.Shape

/-!
The grammar of request files.

Its node kinds are the kinds of syntax trees, under their names in lower case with underscores
between words, then the texts of tokens. Its rules are the shapes of nodes, with kinds replaced by
their names.
-/

namespace RequestFile

/-- A name in lower case, with an underscore in front of each capital but the first character. -/
def snakeCase (s : String) : String :=
  String.ofList <| (s.toList.flatMap fun c => if c.isUpper then ['_', c.toLower] else [c]).drop
    (if (s.toList.head?.map Char.isUpper).getD false then 1 else 0)

/-- The name of a kind of node in the grammar. -/
def Kind.grammarName : Kind → String
  | .error => "ERROR"
  | k => snakeCase k.name

/-- A kind of node in the grammar. -/
def Kind.toNodeName (k : Kind) : NodeName :=
  ⟨k.grammarName, true⟩

/-- A slot for kinds of nodes, in the grammar. -/
def Slot.byName (s : Slot Kind) : Slot NodeName :=
  s.filterMap fun k => some k.toNodeName

/-- The rule for a kind of node. -/
def NodeRule.ofKind (k : Kind) : NodeRule where
  toNodeName := k.toNodeName
  root := k == .document
  fields := (Shape.ofKind k).fields.map fun f => (f.1, f.2.byName)
  children := (Shape.ofKind k).children.map Slot.byName

namespace Grammar

/-- The texts of tokens that the grammar names. -/
def tokenTexts : List String :=
  ["###", "#", "//", "@", "=", ":", "(", ")", ",", "<", "<@", ">", ">>", "\x7b\x7b", "\x7d\x7d",
   "\x7b%", "%\x7d", "&", "?", "--"]

/-- The kind of nodes that ends an input; no tree holds one. -/
def endKind : NodeKind :=
  .hidden "end"

/-- The grammar of request files. -/
def standard : Grammar where
  name := "kulala_http"
  version := newestVersion
  kinds := [endKind] ++ (Kind.nodes ++ [Kind.error]).map (fun k => .ofKind k.grammarName k)
    ++ tokenTexts.map .anonymous
  fields := ["name", "value", "request", "response", "method", "url", "version", "header", "params",
    "body", "path"]
  rules := Kind.nodes.map .ofKind ++ tokenTexts.map fun t => { name := t, named := false }

end Grammar

end RequestFile
