import GraphQuery.Json.Reader
import GraphQuery.Query.Call

/-!
# What commands answer

The check command reads a finished query and reports what it is and which updates it holds. Whether
there is an update is asked of the query as it was given, and the updates are listed from its wire
form.

The path command answers the tokens of a pattern, the pattern alone, or a whole query that follows
the pattern from a subject to an object. It makes a query when one of the two is given; the other
one is then a variable of a fixed name.

Key definitions: `CommandError`, `Report`, `Report.ofInput`, `Report.text`, `PathRequest`,
`PathAnswer`, `PathRequest.answer`.
-/

namespace GraphQuery

/-- What can go wrong when a command runs. -/
inductive CommandError where
  | query (error : Error)
  /-- The input is not JSON. -/
  | noJson
  /-- There is no input, or a blank one. -/
  | noInput
  /-- The input cannot be read. -/
  | unreadable (fault : FileFault)
  | unknownOperation (name : String)

/-- The message of an error. -/
def CommandError.message : CommandError → String
  | query error => error.message
  | noJson => "Invalid JSON: the text is not a JSON value"
  | noInput => "No input provided. Use --input or pipe a query AST to stdin."
  | unreadable fault => "IO error: " ++ fault.message
  | unknownOperation name =>
    "Unknown operation: '" ++ name ++ "'\nRun 'woql ops' to see available operations."

/-! ### Checking queries -/

/-- What is to be said of a query. -/
structure Report where
  /-- The `@type` of the query. -/
  root : Option String
  hasUpdate : Bool
  /-- The `@type` of each update. -/
  updates : List String
  deriving DecidableEq

/-- The report on a builder. -/
def Report.ofBuilder (b : Builder) : Report :=
  { root := b.wire.kind?
    hasUpdate := b.hasUpdate
    updates := updatesIn b.wire }

/-- The report on the query that a text holds. -/
def Report.ofInput (input : Option String) : Except CommandError Report :=
  match input.filter fun text => !isBlank text with
  | none => .error .noInput
  | some text =>
    match Json.ofText? text with
    | none => .error .noJson
    | some json => ((Builder.ofJson json).mapError .query).map Report.ofBuilder

/-- The report in words. -/
def Report.text (r : Report) : String :=
  "root: " ++ r.root.getD "(empty)" ++ "\n" ++
  "contains update: " ++ toString r.hasUpdate ++ "\n" ++
  (if r.updates.isEmpty then "" else "updates: " ++ ", ".intercalate r.updates ++ "\n")

/-! ### Compiling path patterns -/

/-- What the path command is asked for. -/
structure PathRequest where
  pattern : String
  /-- Only the tokens are wanted. -/
  tokensOnly : Bool
  subject : Option String
  object : Option String
  /-- The variable that the edges of the path are bound to. -/
  path : Option String
  config : Config

/-- What the path command answers. -/
inductive PathAnswer where
  | tokens (tokens : List Token)
  | pattern (json : Json)
  | query (json : Json)

/-- The answer in JSON. -/
def PathAnswer.toJson : PathAnswer → Json
  | .tokens found => .arr (found.map fun token => .str token.text)
  | .pattern json | .query json => json

namespace PathRequest

/-- Whether a whole query is wanted. -/
def wantsQuery (r : PathRequest) : Bool := r.subject.isSome || r.object.isSome

/-- The query that follows the pattern. -/
def query (r : PathRequest) : Except Error Json := do
  let b ← (Builder.ofConfig r.config).path (.str (r.subject.getD "v:Subject")) r.pattern
    (.str (r.object.getD "v:Object")) (r.path.elim .null .str)
  return b.wire

/-- The answer to a request. -/
def answer (r : PathRequest) : Except Error PathAnswer :=
  if r.tokensOnly then .ok (.tokens (tokensOf r.pattern))
  else if r.wantsQuery then r.query.map .query
  else ((Pattern.compile r.pattern).mapError Error.path).map fun p => .pattern p.toJson

end PathRequest

end GraphQuery
