import LocalNames.Data
import LocalNames.Options

namespace LocalNames

/-- Options as a document gives them. Without `extendBuiltins` a part that is given stands in for
the builtin part; with it both are in force. -/
structure Document where
  extendBuiltins : Bool := false
  families : Option (List Seed) := none
  remaps : Option (Table Text Text) := none
deriving DecidableEq

def Document.toOptions (d : Document) : Options :=
  if d.extendBuiltins then
    ⟨Options.builtinFamilies ++ d.families.getD [],
      Options.builtinRemaps.insertAll ((d.remaps.getD .empty).entries)⟩
  else
    ⟨d.families.getD Options.builtinFamilies, d.remaps.getD Options.builtinRemaps⟩

/-- How long a list may be that gives the fields of a record by position: at least as long as there
are fields, the rest being passed over, or exactly as long. -/
inductive Arity where
  | atLeast
  | exactly
deriving DecidableEq

def Arity.allows (arity : Arity) (rest : List Data) : Bool := arity = .atLeast || rest.isEmpty

def onlyFields (known : List Text) (fields : List (Text × Data)) : Bool :=
  fields.all fun f ↦ known.contains f.1

namespace Seed

def ofFields? (fields : List (Text × Data)) : Option Seed := do
  guard (onlyFields ["key", "counter", "skip_zero", "names"] fields)
  let key ← Data.required? "key" Data.text? fields
  let counter ← Data.optional? "counter" Data.longWord? 0 fields
  let plainFirst ← Data.optional? "skip_zero" Data.bool? false fields
  let candidates ← Data.required? "names" (Data.listOf? Data.text?) fields
  return ⟨key, candidates, counter, plainFirst⟩

def ofData? (arity : Arity) : Data → Option Seed
  | .record fields => ofFields? fields
  | .list (key :: counter :: plainFirst :: candidates :: rest) => do
    guard (arity.allows rest)
    return ⟨← key.text?, ← candidates.listOf? Data.text?, ← counter.longWord?, ← plainFirst.bool?⟩
  | _ => none

end Seed

namespace Document

def families? (arity : Arity) : Data → Option (Option (List Seed)) :=
  Data.nullable? (Data.listOf? (Seed.ofData? arity))

def remaps? : Data → Option (Option (Table Text Text)) :=
  Data.nullable? fun d ↦ (d.entriesOf? Data.text?).map Table.ofList

def ofFields? (arity : Arity) (fields : List (Text × Data)) : Option Document := do
  guard (onlyFields ["extend_builtins", "family", "remap"] fields)
  let extendBuiltins ← Data.optional? "extend_builtins" Data.bool? false fields
  let families ← Data.optional? "family" (families? arity) none fields
  let remaps ← Data.optional? "remap" remaps? none fields
  return ⟨extendBuiltins, families, remaps⟩

def ofData? (arity : Arity) : Data → Option Document
  | .record fields => ofFields? arity fields
  | .list (extendBuiltins :: families :: remaps :: rest) => do
    guard (arity.allows rest)
    return ⟨← extendBuiltins.bool?, ← families? arity families, ← remaps? remaps⟩
  | _ => none

end Document

end LocalNames
