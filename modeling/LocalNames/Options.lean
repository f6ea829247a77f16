import LocalNames.Family
import LocalNames.Table

namespace LocalNames

inductive Failure where
  | unreadableOptions
  | emptyKey
  | noCandidates (key : Text)
  | unknownTarget (source target : Text)
  | foreignParent (kind : Text)
deriving DecidableEq, Repr

def Failure.quoted (text : Text) : Text := "`" ++ text ++ "`"

def Failure.message : Failure → Text
  | unreadableOptions => "invalid naming options: "
  | emptyKey => "naming family key must not be empty"
  | noCandidates key => "naming family " ++ quoted key ++ " has no candidate names"
  | unknownTarget source target =>
    "remap " ++ quoted source ++ " -> " ++ quoted target ++ " targets an unknown naming family"
  | foreignParent kind => "cannot inherit naming state from a " ++ kind ++ " parent"

structure Seed where
  key : Text
  family : Family
deriving DecidableEq, Repr

/-- The families a scope starts with, a later one replacing an earlier one of the same key, and the
types that are redirected to the family of another key. -/
structure Options where
  families : List Seed
  remaps : Table Text Text
deriving DecidableEq

/-- A seed without candidate names is a defect, and so is one with an empty key, which is reported
first. -/
def Seed.defect? (s : Seed) : Option Failure :=
  if s.key = [] then some .emptyKey
  else if s.family.candidates = [] then some (.noCandidates s.key)
  else none

namespace Options

def keys (o : Options) : List Text := o.families.map Seed.key

def remapDefect? (o : Options) (remap : Text × Text) : Option Failure :=
  if remap.2 ∈ o.keys then none else some (.unknownTarget remap.1 remap.2)

def defect? (o : Options) : Option Failure :=
  (o.families.findSome? Seed.defect?).or (o.remaps.entries.findSome? o.remapDefect?)

def validate (o : Options) : Except Failure Unit :=
  match o.defect? with
  | some failure => .error failure
  | none => .ok ()

/-- Families have to agree in order, remaps only as maps. -/
def agrees (o p : Options) : Bool :=
  decide (o.families = p.families) && o.remaps.sameEntries p.remaps

def builtinFamilies : List Seed := [
  ⟨"int", ["i", "j", "k", "l"], 0, true⟩,
  ⟨"byte", ["b"], 0, false⟩,
  ⟨"char", ["c"], 0, false⟩,
  ⟨"short", ["short"], 1, false⟩,
  ⟨"boolean", ["flag"], 0, true⟩,
  ⟨"double", ["d"], 0, false⟩,
  ⟨"float", ["f"], 0, true⟩,
  ⟨"File", ["file"], 0, true⟩,
  ⟨"String", ["s"], 0, true⟩,
  ⟨"Class", ["oclass"], 0, true⟩,
  ⟨"Long", ["olong"], 0, true⟩,
  ⟨"Byte", ["obyte"], 0, true⟩,
  ⟨"Short", ["oshort"], 0, true⟩,
  ⟨"Boolean", ["obool"], 0, true⟩,
  ⟨"Package", ["opackage"], 0, true⟩,
  ⟨"Enum", ["oenum"], 0, true⟩]

def builtinRemaps : Table Text Text := .ofList [("long", "int")]

def builtin : Options := ⟨builtinFamilies, builtinRemaps⟩

theorem defect?_builtin : builtin.defect? = none := by decide

end Options

end LocalNames
