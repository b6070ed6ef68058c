import RequestFile.Kind
import RequestFile.NodeType

/-!
The shapes of nodes.

`Shape.ofKind` says for each kind of node what its nodes hold besides tokens: nodes in named fields,
and other children. A field or a slot of children lists the kinds that it takes. Kinds of tokens and
kinds whose nodes hold tokens only have the empty shape.
-/

namespace RequestFile

/-- What the nodes of a kind hold. -/
structure Shape where
  fields : List (String × Slot Kind) := []
  children : Option (Slot Kind) := none
deriving DecidableEq, Repr

namespace Shape

/-- Any number of references. -/
def references : Slot Kind :=
  .anyNumber [.variable]

/-- One identifier. -/
def identifier : Slot Kind :=
  .exactlyOne [.identifier]

/-- A value, or none. -/
def value : Slot Kind :=
  .atMostOne [.value]

/-- One path. -/
def path : Slot Kind :=
  .exactlyOne [.path]

/-- Any number of headers. -/
def headers : Slot Kind :=
  .anyNumber [.header]

/-- One operator. -/
def operator : Slot Kind :=
  .exactlyOne [.operator]

/-- A script, or the path of one. -/
def scriptSource : Slot Kind :=
  .exactlyOne [.script, .path]

/-- One boundary. -/
def boundary : Slot Kind :=
  .exactlyOne [.boundaryValue]

/-- Any number of bodies. -/
def bodies : Slot Kind :=
  .anyNumber [.externalBody, .formUrlencodedBody, .graphqlBody, .jsonBody, .multipartFormData,
    .rawBody, .xmlBody]

/-- A shape without children outside of fields. -/
def ofFields (fields : List (String × Slot Kind)) : Shape :=
  { fields }

/-- A shape without fields. -/
def ofChildren (children : Slot Kind) : Shape :=
  { children := some children }

/-- The shape of an assignment. -/
def assignment : Shape :=
  ofFields [("name", identifier), ("value", value)]

/-- The shape of the nodes of a kind. -/
def ofKind : Kind → Shape
  | .document => ofChildren (.anyNumber [.section])
  | .section => ⟨[("request", .atMostOne [.request]), ("response", .atMostOne [.response])],
      some (.anyNumber [.command, .comment, .metadata, .preRequestScript, .requestSeparator,
        .variableDeclaration])⟩
  | .requestSeparator => ofFields [("value", value)]
  | .metadata => assignment
  | .variableDeclaration => assignment
  | .variableDeclarationInline => assignment
  | .command => ⟨[("name", .exactlyOne [.commandName]), ("value", value)],
      some (.anyNumber [.variableDeclarationInline])⟩
  | .preRequestScript => ofChildren scriptSource
  | .resHandlerScript => ofChildren scriptSource
  | .resRedirect => ofFields [("path", path)]
  | .path => ofChildren references
  | .request => ⟨[("method", .atMostOne [.method]), ("url", .exactlyOne [.targetUrl]),
        ("version", .atMostOne [.httpVersion]), ("header", headers), ("body", bodies)],
      some (.anyNumber [.comment, .resHandlerScript, .resRedirect])⟩
  | .response => ⟨[("header", headers), ("body", bodies)],
      some (.atLeastOne [.comment, .httpVersion, .resHandlerScript, .resRedirect, .statusCode,
        .statusText])⟩
  | .targetUrl =>
    ofChildren (.anyNumber [.fragment, .queryParamContinuation, .queryString, .variable])
  | .queryString => ⟨[("params", .atMostOne [.queryParam])], some operator⟩
  | .queryParamContinuation => ⟨[("params", .atMostOne [.queryParam])], some operator⟩
  | .queryParam => ⟨[("name", .atMostOne [.queryParamName]),
        ("value", .atMostOne [.queryParamValue])],
      some (.atMostOne [.operator])⟩
  | .queryParamName => ofChildren references
  | .queryParamValue => ofChildren references
  | .fragment => ofChildren operator
  | .header => ofFields [("name", .exactlyOne [.headerEntity]), ("value", value)]
  | .value => ofChildren references
  | .variable => ofFields [("name", identifier)]
  | .graphqlBody => ofChildren (.atLeastOne [.externalBody, .graphqlData, .jsonBody])
  | .formUrlencodedBody => ⟨[("params", .atLeastOne [.formParam])], some (.anyNumber [.operator])⟩
  | .formParam => ⟨[("name", .exactlyOne [.formParamName]),
        ("value", .atMostOne [.formParamValue])],
      some (.atMostOne [.operator])⟩
  | .formParamName => ofChildren references
  | .formParamValue => ofChildren references
  | .externalBody => ofFields [("path", path)]
  | .multipartFormData => ⟨[("header", headers)],
      some (.atLeastOne [.multipartBoundary, .multipartBoundaryFirst, .multipartBoundaryLast,
        .multipartContentLine, .multipartExternalBody])⟩
  | .multipartBoundaryFirst => ofChildren boundary
  | .multipartBoundary => ofChildren boundary
  | .multipartBoundaryLast => ofChildren boundary
  | .boundaryValue => ofChildren references
  | .multipartExternalBody => ofFields [("path", path)]
  | _ => {}

end Shape

end RequestFile
