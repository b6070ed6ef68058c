import RequestFile.Content.Script
import RequestFile.Content.Url

/-!
Bodies of requests and responses.
-/

namespace RequestFile

/-- A file that stands for a text. -/
structure ExternalFile where
  path : Option Value
  /-- Whether variables in the file are replaced. -/
  substitutes : Bool
deriving DecidableEq, Repr

/-- The file named at a node. -/
def ExternalFile.ofTree (p : Placed) : ExternalFile where
  path := (p.child? .path).map Value.ofTree
  substitutes := p.tree.ownLeaves.any (·.1 == .at)

/-- What a body is made of. -/
inductive BodyContent where
  | json
  | xml
  | graphql (query bindings : Option String) (file : Option ExternalFile)
  | form (params : List Param)
  | external (file : ExternalFile)
  | multipart (boundary : Option String) (closed : Bool) (headers : List Entry)
      (parts : List (Option Value))
  | raw
deriving DecidableEq, Repr

namespace BodyContent

/-- The name of a kind of body. -/
def name : BodyContent → String
  | json => "json_body"
  | xml => "xml_body"
  | graphql _ _ _ => "graphql_body"
  | form _ => "form_urlencoded_body"
  | external _ => "external_body"
  | multipart _ _ _ _ => "multipart_form_data"
  | raw => "raw_body"

/-- The text of the first boundary line of a multipart body. -/
def boundaryOf (t : Tree) : Option String :=
  (t.child? .multipartBoundaryFirst).bind fun b => (b.child? .boundaryValue).map Tree.text

/-- The content of a node that is a body. -/
def ofTree? (p : Placed) : Option BodyContent :=
  match p.tree with
  | .node .jsonBody _ => some json
  | .node .xmlBody _ => some xml
  | .node .graphqlBody _ =>
    some (graphql ((p.tree.child? .graphqlData).map Tree.text)
      ((p.tree.child? .jsonBody).map Tree.text) ((p.child? .externalBody).map ExternalFile.ofTree))
  | .node .formUrlencodedBody _ =>
    some (form ((p.tree.childrenOf .formParam).map (Param.ofTree .formParamName .formParamValue)))
  | .node .externalBody _ => some (external (ExternalFile.ofTree p))
  | .node .multipartFormData _ =>
    some (multipart (boundaryOf p.tree) (p.tree.child? .multipartBoundaryLast).isSome
      ((p.childrenOf .header).map (Entry.ofTree .headerEntity))
      ((p.childrenOf .multipartExternalBody).map fun e => (e.child? .path).map Value.ofTree))
  | .node .rawBody _ => some raw
  | _ => none

end BodyContent

/-- A body. -/
structure Body extends Piece where
  content : BodyContent
deriving DecidableEq, Repr

/-- The body that a node is, if it is one. -/
def Body.ofTree? (p : Placed) : Option Body :=
  (BodyContent.ofTree? p).map fun content => ⟨Piece.ofTree p, content⟩

end RequestFile
