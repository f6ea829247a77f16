import LocalNames.Proofs.Soundness

namespace LocalNames

structure Issue where
  key? : Option Text
  name : Text

def namesOf (key : Text) (issues : List Issue) : List Text :=
  (issues.filter fun i ↦ i.key? = some key).map Issue.name

theorem namesOf_append (key : Text) (issues issues' : List Issue) :
    namesOf key (issues ++ issues') = namesOf key issues ++ namesOf key issues' := by
  simp only [namesOf, List.filter_append, List.map_append]

theorem namesOf_cons (key : Text) (i : Issue) (issues : List Issue) :
    namesOf key (i :: issues) =
      if i.key? = some key then i.name :: namesOf key issues else namesOf key issues := by
  by_cases h : i.key? = some key
  · simp [namesOf, h]
  · simp [namesOf, h]

namespace Scope

def issues (s : Scope) : List Text → List Issue
  | [] => []
  | ty :: tys => ⟨s.drawnKey? ty, (s.draw ty).name⟩ :: (s.draw ty).scope.issues tys

def issued (s : Scope) (call : Call) : List Issue := s.issues call.types

theorem map_name_issues (s : Scope) (tys : List Text) :
    (s.issues tys).map Issue.name = (s.drawAll tys).names := by
  induction tys generalizing s with
  | nil => rfl
  | cons ty tys ih => exact congrArg ((s.draw ty).name :: ·) (ih (s.draw ty).scope)

/-- What a call is answered with are the names issued for its types, every one of them. -/
theorem map_name_issued (s : Scope) (call : Call) :
    (s.issued call).map Issue.name = s.answer call := by
  rw [issued, map_name_issues, answer_eq_drawAll]

/-- From `s` to `s'` every numbering has come as far as the names issued from it, which are the next
ones of the numbering in `s`. -/
structure Leads (s : Scope) (issues : List Issue) (s' : Scope) : Prop where
  names (key : Text) : namesOf key issues = (s.numbering key).names (namesOf key issues).length
  numbering (key : Text) : s'.numbering key = (s.numbering key).after (namesOf key issues).length

theorem Leads.of_numbering_eq {s s' : Scope} (h : ∀ key, s'.numbering key = s.numbering key) :
    Leads s [] s' := ⟨fun _ ↦ rfl, h⟩

theorem Leads.trans {s t u : Scope} {issues issues' : List Issue} (h : Leads s issues t)
    (h' : Leads t issues' u) : Leads s (issues ++ issues') u := by
  constructor
  · intro key
    rw [namesOf_append, List.length_append, Family.names_add, ← h.numbering, ← h.names,
      ← h'.names]
  · intro key
    rw [namesOf_append, List.length_append, ← Family.after_after, ← h.numbering, h'.numbering]

theorem leads_draw (s : Scope) (ty : Text) :
    Leads s [⟨s.drawnKey? ty, (s.draw ty).name⟩] (s.draw ty).scope := by
  constructor
  · intro key
    rw [namesOf_cons]
    split
    · rename_i h
      rw [(draw_of_drawnKey? h).1]
      rfl
    · rfl
  · intro key
    rw [numbering_draw, namesOf_cons]
    split <;> rfl

theorem leads_drawAll (s : Scope) (tys : List Text) :
    Leads s (s.issues tys) (s.drawAll tys).scope := by
  induction tys generalizing s with
  | nil => exact .of_numbering_eq fun _ ↦ rfl
  | cons ty tys ih => exact (leads_draw s ty).trans (ih (s.draw ty).scope)

theorem leads_perform (s : Scope) (call : Call) : Leads s (s.issued call) (s.perform call) := by
  rw [issued, perform_eq_drawAll]
  exact leads_drawAll s call.types

/-- No numbering of the scope issues a name twice before its counter comes round. -/
def Distinct (s : Scope) : Prop :=
  ∀ key, (s.numbering key).candidates ≠ [] ∧ Family.Separate (s.numbering key).candidates

theorem Distinct.of_leads {s s' : Scope} {issues : List Issue} (h : s.Distinct)
    (hl : Leads s issues s') : s'.Distinct := by
  intro key
  rw [hl.numbering, Family.candidates_after]
  exact h key

end Scope

theorem Options.separate_builtinFamilies :
    ∀ seed ∈ Options.builtinFamilies, Family.Separate seed.family.candidates := by
  have h : ∀ seed ∈ Options.builtinFamilies, seed.family.candidates.Nodup ∧
      ∀ a ∈ seed.family.candidates, a.length = (seed.family.candidates.headD []).length := by
    decide
  intro seed hs
  exact Family.separate_of_length_eq (h seed hs).1 (h seed hs).2

theorem Scope.distinct_new (method : Method) : (Scope.new method).Distinct := by
  intro key
  refine ⟨(Scope.sound_new method).candidates_numbering_ne_nil key, ?_⟩
  unfold Scope.numbering
  cases hf : (Scope.new method).family? key with
  | some f => exact Options.separate_builtinFamilies _ (Scope.exists_seed_of_family?_seeded hf)
  | none => exact Family.separate_singleton _

end LocalNames
