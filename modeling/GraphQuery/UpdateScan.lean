import GraphQuery.Json.Basic

/-!
# Updates in a query

An update is a node whose `@type` says that it changes the data. The scan looks for one where
sub-queries stand: under `query` and `consequent`, and in the lists under `and` and `or`. The
listing names all of them, wherever in the value they stand, in the order of the fields.

Key definitions: `updateKinds`, `hasUpdate`, `updatesIn`.
-/

namespace GraphQuery

/-- The `@type` of every node that changes the data. -/
def updateKinds : List String :=
  ["AddTriple", "DeleteTriple", "AddQuad", "DeleteQuad", "InsertDocument", "DeleteDocument",
    "UpdateDocument", "DeleteObject", "UpdateObject"]

def isUpdateKind (kind : String) : Bool := updateKinds.contains kind

/-- Whether an object with these fields is an update itself. -/
def isUpdateNode (fields : Dictionary Json) : Bool := (Json.kindOf fields).any isUpdateKind

mutual

/-- Whether there is an update in a query or in a sub-query of it. -/
def hasUpdate : Json → Bool
  | .obj fields => isUpdateNode fields || fieldsHaveUpdate fields
  | _ => false

/-- Whether there is one where the fields of an object have sub-queries. -/
def fieldsHaveUpdate : List (String × Json) → Bool
  | [] => false
  | (key, value) :: rest =>
    (if key = "query" ∨ key = "consequent" then hasUpdate value
      else if key = "and" ∨ key = "or" then branchesHaveUpdate value
      else false) || fieldsHaveUpdate rest

/-- Whether there is one in a list of sub-queries. -/
def branchesHaveUpdate : Json → Bool
  | .arr items => anyHasUpdate items
  | _ => false

def anyHasUpdate : List Json → Bool
  | [] => false
  | item :: rest => hasUpdate item || anyHasUpdate rest

end

mutual

/-- The `@type` of every update in a value. -/
def updatesIn : Json → List String
  | .obj fields =>
    ((Json.kindOf fields).filter isUpdateKind).toList ++ updatesInFields fields
  | .arr items => updatesInItems items
  | _ => []

def updatesInFields : List (String × Json) → List String
  | [] => []
  | (_, value) :: rest => updatesIn value ++ updatesInFields rest

def updatesInItems : List Json → List String
  | [] => []
  | item :: rest => updatesIn item ++ updatesInItems rest

end

theorem anyHasUpdate_eq_any : ∀ items : List Json,
    anyHasUpdate items = items.any hasUpdate
  | [] => rfl
  | item :: rest => by simp [anyHasUpdate, anyHasUpdate_eq_any rest]

end GraphQuery
