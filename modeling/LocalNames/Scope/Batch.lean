import LocalNames.Scope

namespace LocalNames

abbrev Batch := Table Variable Text

def Batch.sorted (batch : Batch) : List (Variable × Text) := Variable.sortBy Prod.fst batch.entries

structure Naming where
  names : List (Variable × Text)
  scope : Scope
  log : List LogEntry

namespace Scope

/-- Names variables in the given order. The receiver of a method gets no name. -/
def nameAll (s : Scope) : List (Variable × Text) → Naming
  | [] => ⟨[], s, []⟩
  | (v, ty) :: rest =>
    if ty = TypeName.receiver then s.nameAll rest
    else
      let drawn := s.draw (TypeName.simple ty)
      let events := drawn.events ++ [.named v ty drawn.name]
      let others := drawn.scope.nameAll rest
      ⟨(v, drawn.name) :: others.names, others.scope, events.map (.event true) ++ others.log⟩

def rename (s : Scope) (batch : Batch) : Naming :=
  let naming := s.nameAll batch.sorted
  { naming with log := .batch s.label batch.size :: naming.log }

def nameEach (s : Scope) (ty : Text) : Nat → List Text × Scope × List LogEntry
  | 0 => ([], s, [])
  | n + 1 =>
    let first := s.rename (.ofList [(⟨1, 0⟩, ty)])
    let (names, scope, log) := first.scope.nameEach ty n
    (first.names.map Prod.snd ++ names, scope, first.log ++ log)

end Scope

structure Fixture where
  method : Method
  types : Batch

namespace Fixture

def ofName (name : Text) : Fixture := ⟨⟨"com/example/Fixture", name, "()V"⟩, .empty⟩

def withTypes (f : Fixture) (types : List (Variable × Text)) : Fixture :=
  { f with types := f.types.insertAll types }

def names (f : Fixture) : List (Variable × Text) :=
  ((Factory.builtin.create f.method).rename f.types).names

end Fixture

def render (names : List (Variable × Text)) : Text :=
  names.flatMap fun e ↦ e.1.text ++ " " ++ e.2 ++ "\n"

end LocalNames
