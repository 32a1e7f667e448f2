import GraphQuery.Dictionary

/-!
# Vocabularies

A vocabulary maps short names to the names they stand for. A name it does not know stands for
itself, and expansion is not repeated.

Key definitions: `Vocabulary`, `Vocabulary.standard`, `Vocabulary.expand`.
-/

namespace GraphQuery

/-- Short names and what they stand for. -/
structure Vocabulary where
  entries : Dictionary String
  sorted : entries.Sorted
  deriving DecidableEq

namespace Vocabulary

/-- The vocabulary with no entries. -/
def empty : Vocabulary := ⟨[], Dictionary.sorted_nil⟩

instance : Inhabited Vocabulary := ⟨empty⟩

/-- The vocabulary of the given entries, the last one for a name counting. -/
def ofList (entries : List (String × String)) : Vocabulary :=
  ⟨.ofList entries, Dictionary.sorted_ofList entries⟩

/-- The names every builder knows unless it is told otherwise. -/
def standard : Vocabulary := ofList [
  ("type", "rdf:type"),
  ("label", "rdfs:label"),
  ("Class", "owl:Class"),
  ("DatatypeProperty", "owl:DatatypeProperty"),
  ("ObjectProperty", "owl:ObjectProperty"),
  ("Document", "terminus:Document"),
  ("abstract", "terminus:Document"),
  ("comment", "rdfs:comment"),
  ("range", "rdfs:range"),
  ("domain", "rdfs:domain"),
  ("subClassOf", "rdfs:subClassOf"),
  ("boolean", "xsd:boolean"),
  ("string", "xsd:string"),
  ("integer", "xsd:integer"),
  ("decimal", "xsd:decimal"),
  ("email", "xdd:email"),
  ("json", "xdd:json"),
  ("dateTime", "xsd:dateTime"),
  ("date", "xsd:date"),
  ("coordinate", "xdd:coordinate"),
  ("line", "xdd:coordinatePolyline"),
  ("polygon", "xdd:coordinatePolygon")]

/-- Adds an entry, replacing the one of the same name. -/
def insert (v : Vocabulary) (short long : String) : Vocabulary :=
  ⟨v.entries.insert short long, v.sorted.insert⟩

/-- Adds several entries in turn. -/
def extend (v : Vocabulary) (given : List (String × String)) : Vocabulary :=
  ⟨.insertAll given v.entries, v.sorted.insertAll⟩

/-- What a short name stands for, if it is known. -/
def find? (v : Vocabulary) (short : String) : Option String := v.entries.find? short

def contains (v : Vocabulary) (short : String) : Bool := v.entries.contains short

/-- What a name stands for, which is itself when it is not known. -/
def expand (v : Vocabulary) (name : String) : String := (v.find? name).getD name

def size (v : Vocabulary) : Nat := v.entries.length

def isEmpty (v : Vocabulary) : Bool := v.entries.isEmpty

@[simp] theorem find?_insert_self (v : Vocabulary) (short long : String) :
    (v.insert short long).find? short = some long :=
  Dictionary.find?_insert_self short long v.entries

theorem find?_insert_of_ne {short other : String} (h : other ≠ short) (v : Vocabulary)
    (long : String) : (v.insert short long).find? other = v.find? other :=
  Dictionary.find?_insert_of_ne h long v.entries

theorem expand_of_contains_eq_false {v : Vocabulary} {name : String}
    (h : v.contains name = false) : v.expand name = name := by
  have : v.find? name = none := by simpa [contains, Dictionary.contains, find?] using h
  simp [expand, this]

end Vocabulary

end GraphQuery
