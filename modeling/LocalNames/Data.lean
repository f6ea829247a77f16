import LocalNames.Assoc
import LocalNames.Text

namespace LocalNames

/-- A value of a structured document, whatever its notation. A number that is not an integer is
kept as it was written. -/
inductive Data where
  | null
  | bool (b : Bool)
  | int (n : Int)
  | real (literal : Text)
  | text (t : Text)
  | list (items : List Data)
  | record (fields : List (Text × Data))

namespace Data

def bool? : Data → Option Bool
  | bool b => some b
  | _ => none

def text? : Data → Option Text
  | text t => some t
  | _ => none

def nat? : Data → Option Nat
  | int n => if 0 ≤ n then some n.toNat else none
  | _ => none

def wordOf? {α : Type} (size : Nat) (ofNat : Nat → α) (d : Data) : Option α :=
  d.nat?.bind fun n ↦ if n < size then some (ofNat n) else none

def word? : Data → Option UInt32 := wordOf? UInt32.size .ofNat

def longWord? : Data → Option UInt64 := wordOf? UInt64.size .ofNat

def listOf? {α : Type} (item? : Data → Option α) : Data → Option (List α)
  | list items => items.mapM item?
  | _ => none

def entriesOf? {α : Type} (value? : Data → Option α) : Data → Option (List (Text × α))
  | record fields => fields.mapM fun f ↦ (value? f.2).map (f.1, ·)
  | _ => none

def nullable? {α : Type} (value? : Data → Option α) : Data → Option (Option α)
  | null => some none
  | d => (value? d).map some

variable {α : Type} (name : Text) (value? : Data → Option α)

def required? (fields : List (Text × Data)) : Option α := (Assoc.find? name fields).bind value?

def optional? (default : α) (fields : List (Text × Data)) : Option α :=
  match Assoc.find? name fields with
  | none => some default
  | some d => value? d

end Data

end LocalNames
