import GraphQuery.File.Tree
import GraphQuery.Json.Printer
import GraphQuery.Path.Reading
import GraphQuery.Slot
import GraphQuery.Term.Shown

/-!
# Errors

What can go wrong when a query is built. An error says what the cause is; its text is made in one
place.

Key definitions: `ParameterFault`, `ConfigFault`, `Error`, `Error.message`.
-/

namespace GraphQuery

/-- What is wrong with an argument of an operation. -/
inductive ParameterFault where
  | slot (fault : SlotFault)
  /-- A position for identifiers got something else. -/
  | notIdentifier (label : String)
  | notVariable (term : Term)
  /-- A descriptor is empty or blank. -/
  | blank
  /-- An operation on quads got no graph. -/
  | noGraph
  /-- There is nothing to order by. -/
  | noOrdering
  /-- Two sub-queries are left to be filled by later operations. -/
  | bothOpen
  /-- A sub-query is not an object. -/
  | notQuery (json : Json)
  /-- A whole query is not an object. -/
  | notObject

/-- The message of a fault. -/
def ParameterFault.message : ParameterFault → String
  | slot .noValue => "a value is required"
  | slot .listForNode => "a node reference cannot be a list"
  | notIdentifier label => label ++ " must be a URI string"
  | notVariable term => "expected a variable name, got " ++ term.shown
  | blank => "a non-empty string is required"
  | noGraph => "Quad takes four parameters, the last should be a graph filter"
  | noOrdering => "Order by must be passed at least one variable to order the query"
  | bothOpen => "the condition must be given when the consequent is chained"
  | notQuery json => "expected a query object, got " ++ json.compact
  | notObject => "a query must be a JSON object"

/-- Why there is no configuration. -/
inductive ConfigFault where
  /-- The file cannot be read. -/
  | unreadable (file : String) (fault : FileFault)
  /-- The text is not a configuration. -/
  | malformed
  deriving DecidableEq

/-- The message of a fault. -/
def ConfigFault.message : ConfigFault → String
  | unreadable file fault => file ++ ": " ++ fault.message
  | malformed => "the text is not a configuration"

/-- What can go wrong when a query is built. -/
inductive Error where
  | path (error : PathError)
  | parameter (operation field : String) (fault : ParameterFault)
  | config (fault : ConfigFault)

namespace Error

/-- The cause of an error, without where it was found. -/
def detail : Error → String
  | path error => error.fault.message
  | parameter _ _ fault => fault.message
  | config fault => fault.message

/-- The text of an error. -/
def message : Error → String
  | path error =>
    "syntax error in path pattern '" ++ error.pattern ++ "': " ++ error.fault.message
  | parameter operation field fault =>
    operation ++ ": invalid '" ++ field ++ "': " ++ fault.message
  | config fault => "invalid configuration: " ++ fault.message

end Error

end GraphQuery
