import LocalNames.Data

namespace LocalNames

/-- A local variable of a method body: its declaration slot, and which assignment to that slot it
stands for. -/
structure Variable where
  slot : UInt32
  version : UInt32
deriving DecidableEq, Repr

namespace Variable

def le (v w : Variable) : Bool :=
  v.slot < w.slot || (v.slot == w.slot && v.version ≤ w.version)

def sortBy {α : Type} (owner : α → Variable) (xs : List α) : List α :=
  xs.mergeSort fun a b ↦ (owner a).le (owner b)

def sort : List Variable → List Variable := sortBy id

def text (v : Variable) : Text :=
  "(" ++ numeral v.slot.toNat ++ "," ++ numeral v.version.toNat ++ ")"

def toData (v : Variable) : Data :=
  .record [("var", .int v.slot.toNat), ("version", .int v.version.toNat)]

/-- Fields that a variable does not have are passed over. -/
def ofData? : Data → Option Variable
  | .record fields => do
    return ⟨← Data.required? "var" Data.word? fields, ← Data.required? "version" Data.word? fields⟩
  | .list [slot, version] => do return ⟨← slot.word?, ← version.word?⟩
  | _ => none

end Variable

structure Method where
  owner : Text
  name : Text
  descriptor : Text
deriving DecidableEq, Repr

namespace Method

def label (m : Method) : Text := m.owner ++ "." ++ m.name ++ m.descriptor

def toData (m : Method) : Data :=
  .record [("class_name", .text m.owner), ("name", .text m.name),
    ("descriptor", .text m.descriptor)]

def ofData? : Data → Option Method
  | .record fields => do
    return ⟨← Data.required? "class_name" Data.text? fields,
      ← Data.required? "name" Data.text? fields,
      ← Data.required? "descriptor" Data.text? fields⟩
  | .list [owner, name, descriptor] => do
    return ⟨← owner.text?, ← name.text?, ← descriptor.text?⟩
  | _ => none

end Method

end LocalNames
