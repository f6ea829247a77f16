import LocalNames.Proofs.Scope
import LocalNames.Scope.Batch

namespace LocalNames

/-- The types that variables are named after, in their order: without the receiver, and each
without its qualifiers and arguments. -/
def typesOf (entries : List (Variable × Text)) : List Text :=
  (entries.filter (·.2 ≠ TypeName.receiver)).map fun e ↦ TypeName.simple e.2

theorem typesOf_cons_of_eq {e : Variable × Text} (h : e.2 = TypeName.receiver)
    (entries : List (Variable × Text)) : typesOf (e :: entries) = typesOf entries := by
  simp [typesOf, h]

theorem typesOf_cons_of_ne {e : Variable × Text} (h : e.2 ≠ TypeName.receiver)
    (entries : List (Variable × Text)) :
    typesOf (e :: entries) = TypeName.simple e.2 :: typesOf entries := by
  simp [typesOf, h]

def Batch.types (batch : Batch) : List Text := typesOf batch.sorted

inductive Call where
  | draw (ty : Text)
  | rename (batch : Batch)

def Call.types : Call → List Text
  | draw ty => [ty]
  | rename batch => batch.types

namespace Scope

def answer (s : Scope) : Call → List Text
  | .draw ty => [(s.draw ty).name]
  | .rename batch => (s.rename batch).names.map Prod.snd

def perform (s : Scope) : Call → Scope
  | .draw ty => (s.draw ty).scope
  | .rename batch => (s.rename batch).scope

def performAll (s : Scope) (calls : List Call) : Scope := calls.foldl perform s

theorem drawAll_append_scope (s : Scope) (tys us : List Text) :
    (s.drawAll (tys ++ us)).scope = ((s.drawAll tys).scope.drawAll us).scope := by
  induction tys generalizing s with
  | nil => rfl
  | cons ty tys ih => exact ih (s.draw ty).scope

theorem drawAll_append_names (s : Scope) (tys us : List Text) :
    (s.drawAll (tys ++ us)).names =
      (s.drawAll tys).names ++ ((s.drawAll tys).scope.drawAll us).names := by
  induction tys generalizing s with
  | nil => rfl
  | cons ty tys ih => exact congrArg ((s.draw ty).name :: ·) (ih (s.draw ty).scope)

theorem length_names_drawAll (s : Scope) (tys : List Text) :
    (s.drawAll tys).names.length = tys.length := by
  induction tys generalizing s with
  | nil => rfl
  | cons ty tys ih => exact congrArg (· + 1) (ih (s.draw ty).scope)

/-- Naming variables is drawing names for their types. -/
theorem nameAll_eq_drawAll (s : Scope) (entries : List (Variable × Text)) :
    (s.nameAll entries).names.map Prod.snd = (s.drawAll (typesOf entries)).names ∧
      (s.nameAll entries).scope = (s.drawAll (typesOf entries)).scope := by
  induction entries generalizing s with
  | nil => exact ⟨rfl, rfl⟩
  | cons e entries ih =>
    by_cases h : e.2 = TypeName.receiver
    · rw [typesOf_cons_of_eq h, nameAll, if_pos h]
      exact ih s
    · obtain ⟨hn, hs⟩ := ih (s.draw (TypeName.simple e.2)).scope
      rw [typesOf_cons_of_ne h, nameAll, if_neg h]
      exact ⟨congrArg (_ :: ·) hn, hs⟩

theorem answer_eq_drawAll (s : Scope) (call : Call) :
    s.answer call = (s.drawAll call.types).names := by
  cases call with
  | draw ty => rfl
  | rename batch => exact (nameAll_eq_drawAll s _).1

theorem perform_eq_drawAll (s : Scope) (call : Call) :
    s.perform call = (s.drawAll call.types).scope := by
  cases call with
  | draw ty => rfl
  | rename batch => exact (nameAll_eq_drawAll s _).2

theorem performAll_eq_drawAll (s : Scope) (calls : List Call) :
    s.performAll calls = (s.drawAll (calls.flatMap Call.types)).scope := by
  induction calls generalizing s with
  | nil => rfl
  | cons call calls ih =>
    rw [performAll, List.foldl_cons, ← performAll, ih, perform_eq_drawAll, List.flatMap_cons,
      drawAll_append_scope]

theorem drawAll_induction {P : Scope → Prop} (hd : ∀ s ty, P s → P (s.draw ty).scope)
    {s : Scope} (h : P s) (tys : List Text) : P (s.drawAll tys).scope := by
  induction tys generalizing s with
  | nil => exact h
  | cons ty tys ih => exact ih (hd s ty h)

end Scope

end LocalNames
