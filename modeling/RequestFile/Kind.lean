/-!
Kinds of syntax.

A kind labels a token or a node of the tree. The order of the constructors is the numbering of the
kinds: first what the lexer produces (up to `garbage`), then `text` and `error`, which only a parse
produces, then the nodes, from `document` on. `Kind.code` and `Kind.ofCode?` are the numbering and
its inverse.
-/

namespace RequestFile

/-- What a leaf or a node of the syntax tree is. -/
inductive Kind where
  /-- `(`. -/
  | parenOpen
  /-- `)`. -/
  | parenClose
  /-- `[`. -/
  | bracketOpen
  /-- `]`. -/
  | bracketClose
  /-- An opening brace. -/
  | braceOpen
  /-- A closing brace. -/
  | braceClose
  /-- Two opening braces, which begin a variable reference. -/
  | varOpen
  /-- Two closing braces. -/
  | varClose
  /-- An opening brace and `%`, which begin an inline script. -/
  | scriptOpen
  /-- `%` and a closing brace. -/
  | scriptClose
  /-- Three or more `#`. -/
  | separatorMarker
  /-- `#`. -/
  | hash
  /-- `//`. -/
  | doubleSlash
  /-- `/`. -/
  | slash
  /-- A backslash. -/
  | backslash
  /-- `@`. -/
  | at
  /-- `=`. -/
  | equals
  /-- `:`. -/
  | colon
  /-- `?`. -/
  | question
  /-- `&`. -/
  | ampersand
  /-- `,`. -/
  | comma
  /-- `%`. -/
  | percent
  /-- `<`. -/
  | angleOpen
  /-- `>`. -/
  | angleClose
  /-- `>>` or `>>!`. -/
  | redirectMarker
  /-- `--`. -/
  | doubleDash
  /-- `-`. -/
  | dash
  /-- A run of letters, numbers, `_`, `$` and `.`. -/
  | word
  /-- Any other visible character. -/
  | punct
  /-- A run of blanks. -/
  | whitespace
  /-- A line terminator. -/
  | newline
  /-- A run of stray breaks. -/
  | garbage
  /-- A run of tokens merged into one leaf. -/
  | text
  /-- Input that fits no production. -/
  | error
  | document
  | section
  | requestSeparator
  | comment
  | metadata
  | variableDeclaration
  | variableDeclarationInline
  | command
  | commandName
  | preRequestScript
  | resHandlerScript
  | resRedirect
  | script
  | path
  | request
  | response
  | method
  | targetUrl
  | httpVersion
  | statusCode
  | statusText
  | queryString
  | queryParamContinuation
  | queryParam
  | queryParamName
  | queryParamValue
  | fragment
  | operator
  | header
  | headerEntity
  | value
  | variable
  | identifier
  | xmlBody
  | jsonBody
  | graphqlBody
  | graphqlData
  | formUrlencodedBody
  | formParam
  | formParamName
  | formParamValue
  | externalBody
  | multipartFormData
  | multipartBoundaryFirst
  | multipartBoundary
  | multipartBoundaryLast
  | boundaryValue
  | multipartContentLine
  | multipartExternalBody
  | rawBody
deriving DecidableEq, Repr

namespace Kind

/-- Every kind, in order. -/
def all : List Kind :=
  [.parenOpen, .parenClose, .bracketOpen, .bracketClose, .braceOpen, .braceClose, .varOpen,
   .varClose, .scriptOpen, .scriptClose, .separatorMarker, .hash, .doubleSlash, .slash, .backslash,
   .at, .equals, .colon, .question, .ampersand, .comma, .percent, .angleOpen, .angleClose,
   .redirectMarker, .doubleDash, .dash, .word, .punct, .whitespace, .newline, .garbage, .text,
   .error, .document, .section, .requestSeparator, .comment, .metadata, .variableDeclaration,
   .variableDeclarationInline, .command, .commandName, .preRequestScript, .resHandlerScript,
   .resRedirect, .script, .path, .request, .response, .method, .targetUrl, .httpVersion,
   .statusCode, .statusText, .queryString, .queryParamContinuation, .queryParam, .queryParamName,
   .queryParamValue, .fragment, .operator, .header, .headerEntity, .value, .variable, .identifier,
   .xmlBody, .jsonBody, .graphqlBody, .graphqlData, .formUrlencodedBody, .formParam,
   .formParamName, .formParamValue, .externalBody, .multipartFormData, .multipartBoundaryFirst,
   .multipartBoundary, .multipartBoundaryLast, .boundaryValue, .multipartContentLine,
   .multipartExternalBody, .rawBody]

/-- The number of a kind: its place in the order. -/
def code (k : Kind) : Nat :=
  k.ctorIdx

/-- The kind with a given number. -/
def ofCode? (n : Nat) : Option Kind :=
  all[n]?

/-- The name of a kind, as it is written in tree dumps. -/
def name : Kind → String
  | .parenOpen => "ParenOpen"
  | .parenClose => "ParenClose"
  | .bracketOpen => "BracketOpen"
  | .bracketClose => "BracketClose"
  | .braceOpen => "BraceOpen"
  | .braceClose => "BraceClose"
  | .varOpen => "VarOpen"
  | .varClose => "VarClose"
  | .scriptOpen => "ScriptOpen"
  | .scriptClose => "ScriptClose"
  | .separatorMarker => "SeparatorMarker"
  | .hash => "Hash"
  | .doubleSlash => "DoubleSlash"
  | .slash => "Slash"
  | .backslash => "Backslash"
  | .at => "At"
  | .equals => "Equals"
  | .colon => "Colon"
  | .question => "Question"
  | .ampersand => "Ampersand"
  | .comma => "Comma"
  | .percent => "Percent"
  | .angleOpen => "LAngle"
  | .angleClose => "RAngle"
  | .redirectMarker => "RedirectMarker"
  | .doubleDash => "DoubleDash"
  | .dash => "Dash"
  | .word => "Word"
  | .punct => "Punct"
  | .whitespace => "Whitespace"
  | .newline => "Newline"
  | .garbage => "Garbage"
  | .text => "Text"
  | .error => "Error"
  | .document => "Document"
  | .section => "Section"
  | .requestSeparator => "RequestSeparator"
  | .comment => "Comment"
  | .metadata => "Metadata"
  | .variableDeclaration => "VariableDeclaration"
  | .variableDeclarationInline => "VariableDeclarationInline"
  | .command => "Command"
  | .commandName => "CommandName"
  | .preRequestScript => "PreRequestScript"
  | .resHandlerScript => "ResHandlerScript"
  | .resRedirect => "ResRedirect"
  | .script => "Script"
  | .path => "Path"
  | .request => "Request"
  | .response => "Response"
  | .method => "Method"
  | .targetUrl => "TargetUrl"
  | .httpVersion => "HttpVersion"
  | .statusCode => "StatusCode"
  | .statusText => "StatusText"
  | .queryString => "QueryString"
  | .queryParamContinuation => "QueryParamContinuation"
  | .queryParam => "QueryParam"
  | .queryParamName => "QueryParamName"
  | .queryParamValue => "QueryParamValue"
  | .fragment => "Fragment"
  | .operator => "Operator"
  | .header => "Header"
  | .headerEntity => "HeaderEntity"
  | .value => "Value"
  | .variable => "Variable"
  | .identifier => "Identifier"
  | .xmlBody => "XmlBody"
  | .jsonBody => "JsonBody"
  | .graphqlBody => "GraphqlBody"
  | .graphqlData => "GraphqlData"
  | .formUrlencodedBody => "FormUrlencodedBody"
  | .formParam => "FormParam"
  | .formParamName => "FormParamName"
  | .formParamValue => "FormParamValue"
  | .externalBody => "ExternalBody"
  | .multipartFormData => "MultipartFormData"
  | .multipartBoundaryFirst => "MultipartBoundaryFirst"
  | .multipartBoundary => "MultipartBoundary"
  | .multipartBoundaryLast => "MultipartBoundaryLast"
  | .boundaryValue => "BoundaryValue"
  | .multipartContentLine => "MultipartContentLine"
  | .multipartExternalBody => "MultipartExternalBody"
  | .rawBody => "RawBody"

/-- The kind with a given name. -/
def ofName? (s : String) : Option Kind :=
  all.find? (·.name == s)

/-- Whether a kind labels leaves: it comes before `document` in the order. -/
def isToken (k : Kind) : Bool :=
  k.code < Kind.document.code

/-- Whether a kind labels nodes: it is `document` or comes after it. -/
def isNode (k : Kind) : Bool :=
  Kind.document.code ≤ k.code

/-- Whether a kind is layout, which dumps leave out: blanks and line terminators. -/
def isTrivia : Kind → Bool
  | .whitespace | .newline => true
  | _ => false

/-- Whether a kind marks input that fits nowhere. -/
def isError : Kind → Bool
  | .error | .garbage => true
  | _ => false

/-- The kinds of nodes, in order. -/
def nodes : List Kind :=
  all.filter isNode

end Kind

end RequestFile
