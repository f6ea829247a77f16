import LocalNames.Data

namespace LocalNames.Toml

/-- How a table came to be: by a header of its own, as a step on the way to one, or as a step of a
dotted key. -/
inductive Origin where
  | header
  | implied
  | dotted
deriving DecidableEq

inductive Node where
  | value (d : Data)
  | table (origin : Origin) (fields : List (Text × Node))
  | tables (elements : List (List (Text × Node)))

abbrev Fields := List (Text × Node)

structure Key where
  path : List Text
  name : Text
deriving DecidableEq

mutual

def Node.toData : Node → Data
  | .value d => d
  | .table _ fields => .record (fieldsToData fields)
  | .tables elements => .list (elementsToData elements)

def fieldsToData : List (Text × Node) → List (Text × Data)
  | [] => []
  | (k, node) :: rest => (k, node.toData) :: fieldsToData rest

def elementsToData : List (List (Text × Node)) → List Data
  | [] => []
  | fields :: rest => .record (fieldsToData fields) :: elementsToData rest

end

namespace Fields

/-- Changes the table that a path leads to. Missing tables come into being on the way, and of an
array of tables the last element is taken. A dotted key does not lead into a table that has a
header. -/
def modify (dotted : Bool) (change : Origin → Fields → Option Fields) :
    List Text → Origin → Fields → Option Fields
  | [], origin, fields => change origin fields
  | k :: path, _, fields =>
    match Assoc.find? k fields with
    | none => do
      let origin := if dotted then .dotted else .implied
      let inner ← modify dotted change path origin []
      return Assoc.put k (.table origin inner) fields
    | some (.value _) => none
    | some (.table origin inner) => do
      guard (dotted → origin ≠ .header)
      let inner ← modify dotted change path origin inner
      return Assoc.put k (.table origin inner) fields
    | some (.tables elements) => do
      let inner ← modify dotted change path .header (elements.getLast?.getD [])
      return Assoc.put k (.tables (elements.dropLast ++ [inner])) fields

/-- Gives a new key a value. The table of a key without dots was not made by a dotted key, and the
table of a dotted key was made by one. -/
def define (key : Key) (d : Data) : Origin → Fields → Option Fields :=
  modify true (fun origin fields ↦ do
    guard (origin = .dotted ↔ key.path ≠ [])
    guard ((Assoc.find? key.name fields).isNone)
    return Assoc.put key.name (.value d) fields) key.path

def openTable (key : Key) : Fields → Option Fields :=
  modify false (fun _ fields ↦
    match Assoc.find? key.name fields with
    | none => some (Assoc.put key.name (.table .header []) fields)
    | some (.table .implied inner) => some (Assoc.put key.name (.table .header inner) fields)
    | _ => none) key.path .header

def openElement (key : Key) : Fields → Option Fields :=
  modify false (fun _ fields ↦
    match Assoc.find? key.name fields with
    | none => some (Assoc.put key.name (.tables [[]]) fields)
    | some (.tables elements) =>
      some (Assoc.put key.name (.tables (elements ++ [[]])) fields)
    | _ => none) key.path .header

def ofInline (entries : List (Key × Data)) : Option Fields :=
  entries.foldlM (fun fields e ↦ define e.1 e.2 .header fields) []

end Fields

end LocalNames.Toml
