/-!
What can be wrong with a request file.

Problems are listed by priority: of two that collide, the earlier is shown (`Problem.outranks`).
Each belongs to a group, which gives its severity, and words its own message (`Problem.message`).
-/

namespace RequestFile

/-- Problems by falling priority. -/
inductive Problem where
  | unclosedVariable
  | unclosedScript
  | unclosedMultipart
  | expectedUrl
  | expectedIdentifier
  | expectedValue
  | expectedPath
  | expectedStatusCode
  | expectedColon
  | expectedEquals
  | expectedCloseParen
  | invalidHeaderName
  | unexpectedLine
  | unexpectedToken
  | unknownMethod
  | emptyRequestName
  | duplicateRequestName
deriving DecidableEq, Repr

/-- How bad a problem is. -/
inductive Severity where
  | error
  | warning
deriving DecidableEq, Repr

/-- The word for a severity. -/
def Severity.name : Severity → String
  | .error => "error"
  | .warning => "warning"

namespace Problem

/-- Kinds of problems. -/
inductive Group where
  /-- An opening delimiter has no closer; the rest of its section is lost to it. -/
  | unclosed
  /-- Something required is absent. -/
  | missing
  /-- Something present does not belong. -/
  | unexpected
  /-- Well-formed input that is probably a mistake. -/
  | lint
deriving DecidableEq, Repr

/-- Every problem, by falling priority. -/
def all : List Problem :=
  [.unclosedVariable, .unclosedScript, .unclosedMultipart, .expectedUrl, .expectedIdentifier,
   .expectedValue, .expectedPath, .expectedStatusCode, .expectedColon, .expectedEquals,
   .expectedCloseParen, .invalidHeaderName, .unexpectedLine, .unexpectedToken, .unknownMethod,
   .emptyRequestName, .duplicateRequestName]

/-- The group of a problem. -/
def group : Problem → Group
  | .unclosedVariable | .unclosedScript | .unclosedMultipart => .unclosed
  | .expectedUrl | .expectedIdentifier | .expectedValue | .expectedPath | .expectedStatusCode
  | .expectedColon | .expectedEquals | .expectedCloseParen => .missing
  | .invalidHeaderName | .unexpectedLine | .unexpectedToken => .unexpected
  | .unknownMethod | .emptyRequestName | .duplicateRequestName => .lint

/-- A probable mistake is a warning, everything else an error. -/
def severity (p : Problem) : Severity :=
  if p.group = .lint then .warning else .error

/-- The place of a problem in the order of priority, 0 being the highest. -/
def rank (p : Problem) : Nat :=
  p.ctorIdx

/-- Whether `p` has a higher priority than `q`. -/
def outranks (p q : Problem) : Bool :=
  p.rank < q.rank

/-- The advice that goes with every problem of its kind. -/
def hint? : Problem → Option String
  | .unclosedMultipart => some "end the body with `--<boundary>--`"
  | .expectedStatusCode => some "e.g., `HTTP/1.1 200 OK`"
  | .emptyRequestName => some "e.g., `# @name get_users`"
  | _ => none

/-- The message of a problem of which nothing more is known. -/
def summary : Problem → String
  | .unclosedVariable => "unclosed variable"
  | .unclosedScript => "unclosed script"
  | .unclosedMultipart => "unclosed multipart body"
  | .expectedUrl => "expected a URL"
  | .expectedIdentifier => "expected a name"
  | .expectedValue => "expected a value"
  | .expectedPath => "expected a file path"
  | .expectedStatusCode => "expected a status code"
  | .expectedColon => "expected `:`"
  | .expectedEquals => "expected `=`"
  | .expectedCloseParen => "expected `)`"
  | .invalidHeaderName => "invalid header name"
  | .unexpectedLine => "unexpected line"
  | .unexpectedToken => "unexpected token"
  | .unknownMethod => "unknown method"
  | .emptyRequestName => "request name is empty"
  | .duplicateRequestName => "duplicate request name"

/-- The message of a problem with a detail. Some problems quote the detail or add it to their
summary; the others take it as the whole message. -/
def detailed (p : Problem) (detail : String) : String :=
  match p with
  | .unclosedVariable | .unclosedScript | .unclosedMultipart => p.summary ++ "; " ++ detail
  | .invalidHeaderName => "`" ++ detail ++ "` is not a valid header name"
  | .duplicateRequestName => "request name `" ++ detail ++ "` is already used"
  | .unknownMethod => "unknown method: " ++ detail
  | .emptyRequestName => p.summary
  | _ => detail

/-- The message of a problem, with a detail or without. -/
def message (p : Problem) : Option String → String
  | none => p.summary
  | some detail => p.detailed detail

end Problem

end RequestFile
