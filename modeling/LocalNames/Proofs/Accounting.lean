import LocalNames.Proofs.Batch
import LocalNames.Proofs.Numbering

namespace LocalNames

theorem namesOf_length_eq_countP (key : Text) (issues : List Issue) :
    (namesOf key issues).length = issues.countP (·.key? = some key) := by
  rw [namesOf, List.length_map, List.countP_eq_length_filter]

namespace Scope

def drawnKeys (s : Scope) : List Text → List (Option Text)
  | [] => []
  | ty :: tys => s.drawnKey? ty :: (s.draw ty).scope.drawnKeys tys

theorem map_key?_issues (s : Scope) (tys : List Text) :
    (s.issues tys).map Issue.key? = s.drawnKeys tys := by
  induction tys generalizing s with
  | nil => rfl
  | cons ty tys ih => exact congrArg (s.drawnKey? ty :: ·) (ih (s.draw ty).scope)

theorem length_namesOf_issues (s : Scope) (tys : List Text) (key : Text) :
    (namesOf key (s.issues tys)).length = (s.drawnKeys tys).count (some key) := by
  rw [namesOf_length_eq_countP, ← map_key?_issues, List.count, List.countP_map]
  exact List.countP_congr fun i _ ↦ by simp

def answers (s : Scope) : List Call → List Text
  | [] => []
  | call :: calls => s.answer call ++ (s.perform call).answers calls

def issuedAll (s : Scope) : List Call → List Issue
  | [] => []
  | call :: calls => s.issued call ++ (s.perform call).issuedAll calls

theorem issues_append (s : Scope) (tys us : List Text) :
    s.issues (tys ++ us) = s.issues tys ++ (s.drawAll tys).scope.issues us := by
  induction tys generalizing s with
  | nil => rfl
  | cons ty tys ih => exact congrArg (_ :: ·) (ih (s.draw ty).scope)

theorem issuedAll_eq_issues (s : Scope) (calls : List Call) :
    s.issuedAll calls = s.issues (calls.flatMap Call.types) := by
  induction calls generalizing s with
  | nil => rfl
  | cons call calls ih =>
    rw [issuedAll, ih, issued, perform_eq_drawAll, List.flatMap_cons, issues_append]

theorem getElem?_issues (s : Scope) (tys : List Text) (i : Nat) :
    (s.issues tys)[i]? = tys[i]?.map fun ty ↦
      let s' := (s.drawAll (tys.take i)).scope
      ⟨s'.drawnKey? ty, (s'.draw ty).name⟩ := by
  induction tys generalizing s i with
  | nil => rfl
  | cons ty tys ih =>
    cases i with
    | zero => rfl
    | succ i => exact ih (s.draw ty).scope i

/-- From `s` to `s'` the families have moved on by the names issued from them, and the tables have
changed in nothing else. -/
structure Accounts (s : Scope) (issues : List Issue) (s' : Scope) : Prop
    extends Leads s issues s' where
  untouched {key : Text} : namesOf key issues = [] → s'.family? key = s.family? key
  registered {key : Text} : namesOf key issues ≠ [] → ∃ f, s'.family? key = some f
  remaps : s'.remaps = s.remaps

theorem Accounts.refl (s : Scope) : Accounts s [] s where
  toLeads := .of_numbering_eq fun _ ↦ rfl
  untouched _ := rfl
  registered h := absurd rfl h
  remaps := rfl

theorem Accounts.trans {s t u : Scope} {issues issues' : List Issue} (h : Accounts s issues t)
    (h' : Accounts t issues' u) : Accounts s (issues ++ issues') u := by
  refine ⟨h.toLeads.trans h'.toLeads, fun {key} hn ↦ ?_, fun {key} hn ↦ ?_,
    h'.remaps.trans h.remaps⟩
  · rw [namesOf_append, List.append_eq_nil_iff] at hn
    exact (h'.untouched hn.2).trans (h.untouched hn.1)
  · by_cases he : namesOf key issues' = []
    · rw [namesOf_append, he, List.append_nil] at hn
      obtain ⟨f, hf⟩ := h.registered hn
      exact ⟨f, (h'.untouched he).trans hf⟩
    · exact h'.registered he

theorem accounts_draw (s : Scope) (ty : Text) :
    Accounts s [⟨s.drawnKey? ty, (s.draw ty).name⟩] (s.draw ty).scope := by
  refine ⟨leads_draw s ty, fun {key} h ↦ ?_, fun {key} h ↦ ?_, remaps_draw s ty⟩
  · have hne : s.drawnKey? ty ≠ some key := by simpa [namesOf] using h
    rw [family?_draw, if_neg hne]
  · have he : s.drawnKey? ty = some key := by simpa [namesOf] using h
    rw [family?_draw, if_pos he]
    exact ⟨_, rfl⟩

theorem accounts_drawAll (s : Scope) (tys : List Text) :
    Accounts s (s.issues tys) (s.drawAll tys).scope := by
  induction tys generalizing s with
  | nil => exact .refl s
  | cons ty tys ih => exact (accounts_draw s ty).trans (ih (s.draw ty).scope)

theorem accounts_performAll (s : Scope) (calls : List Call) :
    Accounts s (s.issuedAll calls) (s.performAll calls) := by
  induction calls generalizing s with
  | nil => exact .refl s
  | cons call calls ih =>
    have hc : Accounts s (s.issued call) (s.perform call) := by
      rw [issued, perform_eq_drawAll]
      exact accounts_drawAll s call.types
    exact hc.trans (ih (s.perform call))

theorem Accounts.family?_eq {s s' : Scope} {issues : List Issue} (h : Accounts s issues s')
    (key : Text) : s'.family? key =
      if namesOf key issues = [] then s.family? key
      else some ((s.numbering key).after (namesOf key issues).length) := by
  split
  · rename_i hn
    exact h.untouched hn
  · rename_i hn
    obtain ⟨f, hf⟩ := h.registered hn
    rw [hf, ← h.numbering, numbering_of_family? hf]

end Scope

end LocalNames
