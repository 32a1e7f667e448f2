import GraphQuery.Error
import GraphQuery.Json.Reader
import GraphQuery.Vocabulary

/-!
# Configuration

What a builder is set up with: names to add to its vocabulary, whether the standard names are there
too, and whether the predicates of path patterns are looked up. A configuration is written in JSON,
as an object or as an array of the settings in order. A setting may be missing but not be given
twice, and fields of other names do not matter, whatever they hold.

Key definitions: `Config`, `Config.vocabulary`, `Config.ofText?`.
-/

namespace GraphQuery

/-- The settings of a builder. -/
structure Config where
  /-- Names that are added to the vocabulary. -/
  names : Vocabulary
  /-- Whether the vocabulary starts with the standard names. -/
  inheritsStandard : Bool
  /-- Whether the predicates of path patterns are looked up in the vocabulary. -/
  expandsPaths : Bool
  deriving DecidableEq

namespace Config

/-- The settings where nothing is said. -/
def standard : Config := ⟨.empty, true, true⟩

instance : Inhabited Config := ⟨standard⟩

/-- The vocabulary of a builder. -/
def vocabulary (c : Config) : Vocabulary :=
  (if c.inheritsStandard then Vocabulary.standard else Vocabulary.empty).extend c.names.entries

/-- Settings as far as they have been read. -/
structure Draft where
  names : Option Vocabulary
  inheritsStandard : Option Bool
  expandsPaths : Option Bool

namespace Draft

def empty : Draft := ⟨none, none, none⟩

/-- The settings, missing ones being the standard ones. -/
def config (d : Draft) : Config :=
  { names := d.names.getD standard.names
    inheritsStandard := d.inheritsStandard.getD standard.inheritsStandard
    expandsPaths := d.expandsPaths.getD standard.expandsPaths }

end Draft

/-- The settings in order. -/
inductive Setting where
  | names
  | inheritsStandard
  | expandsPaths
  deriving DecidableEq

/-- The setting with a given name. -/
def Setting.ofName? : String → Option Setting
  | "vocabulary" => some .names
  | "inherit_defaults" => some .inheritsStandard
  | "expand_path_predicates" => some .expandsPaths
  | _ => none

/-- The boolean that is written. -/
def readFlag? : Json.Source → Option Bool
  | .scalar (some (.bool b)) => some b
  | _ => none

/-- The name and the text that are written as a field. -/
def readEntry? : Option String × Json.Source → Option (String × String)
  | (some short, .text (some long)) => some (short, long)
  | _ => none

/-- The names that are written as an object of texts. -/
def readNames? : Json.Source → Option Vocabulary
  | .obj fields => (fields.mapM readEntry?).map Vocabulary.ofList
  | _ => none

/-- Reads one setting, unless it has been read before. -/
def Draft.read? (d : Draft) (setting : Setting) (source : Json.Source) : Option Draft :=
  match setting with
  | .names =>
    if d.names.isSome then none
    else (readNames? source).map fun names => { d with names := some names }
  | .inheritsStandard =>
    if d.inheritsStandard.isSome then none
    else (readFlag? source).map fun flag => { d with inheritsStandard := some flag }
  | .expandsPaths =>
    if d.expandsPaths.isSome then none
    else (readFlag? source).map fun flag => { d with expandsPaths := some flag }

/-- Reads a field. Fields of other names are passed over, but they must have a name. -/
def Draft.readField? (d : Draft) : Option String × Json.Source → Option Draft
  | (none, _) => none
  | (some name, source) =>
    match Setting.ofName? name with
    | some setting => d.read? setting source
    | none => some d

/-- Reads items as settings in order. -/
def Draft.readItems? (d : Draft) : List Setting → List Json.Source → Option Draft
  | _, [] => some d
  | [], _ :: _ => none
  | setting :: settings, source :: sources =>
    (d.read? setting source).bind fun d => d.readItems? settings sources

/-- The settings that are written as an object or an array. -/
def ofSource? : Json.Source → Option Config
  | .obj fields => (fields.foldlM Draft.readField? Draft.empty).map Draft.config
  | .arr items =>
    (Draft.empty.readItems? [.names, .inheritsStandard, .expandsPaths] items).map Draft.config
  | _ => none

/-- The settings that a text holds. -/
def ofText? (text : String) : Except Error Config :=
  ((Json.Source.ofText? text).bind ofSource?).elim (.error (.config .malformed)) .ok

end Config

end GraphQuery
