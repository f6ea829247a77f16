import LocalNames.Event
import LocalNames.Options
import LocalNames.TypeName

namespace LocalNames

/-- The naming state of one method: its families, and the types redirected to the family of another
key. The label is that of the method. -/
structure Scope where
  label : Text
  families : Table Text Family
  remaps : Table Text Text
deriving DecidableEq

/-- Where the names of a type come from: a family that is looked up, a family that the type brings
into being, or the type name itself. -/
inductive Source where
  | family (key : Text)
  | derived (key base : Text)
  | typeName
deriving DecidableEq, Repr

def Source.key? : Source → Option Text
  | family key => some key
  | derived key _ => some key
  | typeName => none

structure Drawn where
  name : Text
  scope : Scope
  events : List Event

structure Draws where
  names : List Text
  scope : Scope
  events : List Event

inductive Parent where
  | scope (s : Scope)
  | foreign (kind : Text)

namespace Scope

def kind : Text := "vn_naming::jad::JadNameProvider"

def seeded (method : Method) (o : Options) : Scope where
  label := method.label
  families := .ofList (o.families.map fun s ↦ (s.key, s.family))
  remaps := o.remaps

def new (method : Method) : Scope := seeded method .builtin

def withOptions (method : Method) (o : Options) : Except Failure Scope := do
  o.validate
  return seeded method o

def inherit (s parent : Scope) : Scope :=
  { s with families := parent.families, remaps := parent.remaps }

def nested (method : Method) (parent : Scope) : Scope := (new method).inherit parent

/-- Inherits from a parent of the same kind. Any other is refused and changes nothing. -/
def addParent (s : Scope) : Parent → Except Failure Scope × List Event
  | .scope parent => (.ok (s.inherit parent), [])
  | .foreign kind => (.error (.foreignParent kind), [.refused s.label kind])

def family? (s : Scope) (key : Text) : Option Family := s.families.get? key

def remap? (s : Scope) (key : Text) : Option Text := s.remaps.get? key

/-- A type draws from the family registered for it with its arrays collapsed, else from that of the
lowercase of this spelling, else from the one that the type itself is redirected to. A capitalized
type or an array with none of these draws from a family derived from it. -/
def source (s : Scope) (ty : Text) : Source :=
  let collapsed := TypeName.collapse ty
  if s.families.contains collapsed then .family collapsed
  else if s.families.contains (lowercase collapsed) then .family (lowercase collapsed)
  else
    match s.remap? ty with
    | some target => .family target
    | none =>
      if TypeName.isCapitalized ty || TypeName.isArray ty then
        .derived (TypeName.key ty) (TypeName.base ty)
      else .typeName

def keep (s : Scope) (ty : Text) : Drawn := ⟨lowercase ty, s, [.kept ty]⟩

def issue (s : Scope) (key : Text) (f : Family) (events : List Event) : Drawn :=
  ⟨f.name, { s with families := s.families.insert key f.advance }, events⟩

/-- The next name for a type. A derived family that is there already goes on with its numbering. -/
def draw (s : Scope) (ty : Text) : Drawn :=
  match s.source ty with
  | .family key =>
    match s.family? key with
    | some f => s.issue key f []
    | none => s.keep ty
  | .derived key base =>
    match s.family? key with
    | some f => s.issue key f []
    | none => s.issue key (.ofBase base) [.created key base]
  | .typeName => s.keep ty

def drawAll (s : Scope) : List Text → Draws
  | [] => ⟨[], s, []⟩
  | ty :: tys =>
    let first := s.draw ty
    let others := first.scope.drawAll tys
    ⟨first.name :: others.names, others.scope, first.events ++ others.events⟩

def parameterName (_ : Scope) (name : Text) (_index : Nat) : Text := name

end Scope

structure Factory where
  options : Options

namespace Factory

def builtin : Factory := ⟨.builtin⟩

def ofOptions (o : Options) : Except Failure Factory := do
  o.validate
  return ⟨o⟩

def create (f : Factory) (method : Method) : Scope := .seeded method f.options

end Factory

end LocalNames
