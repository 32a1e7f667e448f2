import GraphQuery.Json.Token

/-!
# Reading JSON text

A source is what a JSON text says before its meaning is asked for: names may occur twice in an
object, and strings and numbers may stand for nothing. A text is read token by token, with the
containers that are still open on a stack; it holds exactly one value and nothing after it.

The value that a source stands for has all its parts. Of two fields of one name the last counts. A
text from outside may not nest its containers too deep.

Key definitions: `Json.Source`, `Json.State.step`, `Json.Source.ofText?`, `Json.Source.depth`,
`Json.Source.json?`, `Json.read?`, `Json.ofText?`.
-/

namespace GraphQuery.Json

/-! ### Texts as written -/

/-- A JSON value as written. -/
inductive Source where
  | text (s : Option String)
  | scalar (json : Option Json)
  | arr (items : List Source)
  | obj (fields : List (Option String × Source))

namespace Source

mutual

/-- How many containers are inside each other. -/
def depth : Source → Nat
  | .arr items => depthOfItems items + 1
  | .obj fields => depthOfFields fields + 1
  | _ => 0

def depthOfItems : List Source → Nat
  | [] => 0
  | item :: rest => max (depth item) (depthOfItems rest)

def depthOfFields : List (Option String × Source) → Nat
  | [] => 0
  | (_, value) :: rest => max (depth value) (depthOfFields rest)

end

end Source

/-- A container that is still open: its items so far in reverse, or its fields so far in reverse and
the name of the field whose value is due. -/
inductive Frame where
  | array (items : List Source)
  | object (fields : List (Option String × Source)) (key : Option String)

/-- What may come next, and inside which containers, the innermost first. -/
inductive State where
  /-- A value. -/
  | value (stack : List Frame)
  /-- The first item of an array, or its end. -/
  | firstItem (stack : List Frame)
  /-- The name of the first field of an object, or its end. -/
  | firstField (stack : List Frame)
  /-- The name of another field. -/
  | field (fields : List (Option String × Source)) (stack : List Frame)
  /-- The colon after a name. -/
  | colon (fields : List (Option String × Source)) (key : Option String) (stack : List Frame)
  /-- After a value inside the innermost container: a comma, or the end of the container. -/
  | after (source : Source) (top : Frame) (stack : List Frame)
  /-- The whole value has been read. -/
  | done (source : Source)

namespace State

/-- The state after a complete value. -/
def complete (source : Source) : List Frame → State
  | [] => .done source
  | top :: stack => .after source top stack

/-- The state after the first token of a value. -/
def start (stack : List Frame) : Token → Option State
  | .text s => some (complete (.text s) stack)
  | .scalar json => some (complete (.scalar json) stack)
  | .openArray => some (.firstItem stack)
  | .openObject => some (.firstField stack)
  | _ => none

/-- One token. -/
def step : State → Token → Option State
  | .value stack, token => start stack token
  | .firstItem stack, .closeArray => some (complete (.arr []) stack)
  | .firstItem stack, token => start (.array [] :: stack) token
  | .firstField stack, .closeObject => some (complete (.obj []) stack)
  | .firstField stack, .text key => some (.colon [] key stack)
  | .field fields stack, .text key => some (.colon fields key stack)
  | .colon fields key stack, .colon => some (.value (.object fields key :: stack))
  | .after source (.array items) stack, .comma => some (.value (.array (source :: items) :: stack))
  | .after source (.array items) stack, .closeArray =>
    some (complete (.arr (source :: items).reverse) stack)
  | .after source (.object fields key) stack, .comma =>
    some (.field ((key, source) :: fields) stack)
  | .after source (.object fields key) stack, .closeObject =>
    some (complete (.obj ((key, source) :: fields).reverse) stack)
  | _, _ => none

/-- The value that the rest of the tokens completes. -/
def run (state : State) : List Token → Option Source
  | [] => match state with
    | .done source => some source
    | _ => none
  | token :: rest => (state.step token).bind fun next => next.run rest

end State

/-- The value that a text says. -/
def Source.ofText? (text : String) : Option Source :=
  (tokens? text).bind (State.run (.value []))

/-! ### Values -/

namespace Source

mutual

/-- The value that is written, if every part of it is one. -/
def json? : Source → Option Json
  | .text s => s.map .str
  | .scalar json => json
  | .arr items => (items? items).map .arr
  | .obj fields => (fields? fields).map .object

def items? : List Source → Option (List Json)
  | [] => some []
  | item :: rest => do
    let first ← json? item
    let others ← items? rest
    return first :: others

def fields? : List (Option String × Source) → Option (List (String × Json))
  | [] => some []
  | (key, value) :: rest => do
    let key ← key
    let first ← json? value
    let others ← fields? rest
    return (key, first) :: others

end

end Source

/-- The value of a text of any depth. -/
def read? (text : String) : Option Json := (Source.ofText? text).bind Source.json?

/-- The nesting that texts from outside may have. -/
def deepestNesting : Nat := 127

/-- The value of a text from outside. -/
def ofText? (text : String) : Option Json :=
  (Source.ofText? text).bind fun source =>
    if source.depth ≤ deepestNesting then source.json? else none

end GraphQuery.Json
