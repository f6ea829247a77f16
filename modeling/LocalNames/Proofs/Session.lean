import LocalNames.Proofs.Soundness
import LocalNames.Session

namespace LocalNames

open Scope (Reachable)

theorem Scope.Reachable.drawAll {s : Scope} (h : Reachable s) (tys : List Text) :
    Reachable (s.drawAll tys).scope :=
  drawAll_induction (fun _ ty h ↦ .draw ty h) h tys

theorem Scope.Reachable.nameEach {s : Scope} (h : Reachable s) (ty : Text) (n : Nat) :
    Reachable (s.nameEach ty n).2.1 := by
  induction n generalizing s with
  | zero => exact h
  | succ n ih => exact ih (.rename _ h)

theorem OptionsInput.exists_of_bind_eq_ok {α : Type} {input : OptionsInput}
    {make : Options → Except Failure α} {a : α} (h : input.options.bind make = .ok a) :
    ∃ o, make o = .ok a := by
  cases ho : input.options with
  | error failure =>
    rw [ho] at h
    cases h
  | ok o =>
    rw [ho] at h
    exact ⟨o, h⟩

namespace Session

structure Sound (s : Session) : Prop where
  scopes {id : Text} {scope : Scope} : s.scopes.get? id = some scope → Reachable scope
  factories {id : Text} {f : Factory} : s.factories.get? id = some f → f.options.defect? = none

theorem sound_empty : ({} : Session).Sound := by
  constructor
  · intro id scope h
    cases h
  · intro id f h
    cases h

variable {s : Session} {id : Text}

theorem Sound.insert (h : s.Sound) {scope : Scope} (hr : Reachable scope) :
    ({ s with scopes := s.scopes.insert id scope } : Session).Sound := by
  refine ⟨fun {id' scope'} hs ↦ ?_, h.factories⟩
  rw [Table.get?_insert] at hs
  split at hs
  · cases hs
    exact hr
  · exact h.scopes hs

theorem Sound.putScope (h : s.Sound) {log : List LogEntry} {result : Except Failure Scope}
    (hr : ∀ scope, result = .ok scope → Reachable scope) :
    (s.putScope id log result).session.Sound := by
  cases result with
  | error failure => exact h
  | ok scope => exact h.insert (hr scope rfl)

theorem Sound.putFactory (h : s.Sound) {result : Except Failure Factory}
    (hr : ∀ f, result = .ok f → f.options.defect? = none) :
    (s.putFactory id result).session.Sound := by
  cases result with
  | error failure => exact h
  | ok f =>
    refine ⟨h.scopes, fun {id' f'} hf ↦ ?_⟩
    simp only [Session.putFactory, Table.get?_insert] at hf
    split at hf
    · cases hf
      exact hr f rfl
    · exact h.factories hf

theorem Sound.onScope (h : s.Sound) {action : Scope → Outcome}
    (ha : ∀ scope, Reachable scope → (action scope).session.Sound) :
    (s.onScope id action).session.Sound := by
  unfold Session.onScope
  cases hs : s.scopes.get? id with
  | some scope => exact ha scope (h.scopes hs)
  | none => exact h

theorem Sound.addParentTo (h : s.Sound) (parent : Parent)
    (hp : ∀ scope, parent = .scope scope → Reachable scope) :
    (s.addParentTo id parent).session.Sound := by
  refine h.onScope fun scope hs ↦ h.putScope fun result hr ↦ ?_
  cases parent with
  | scope other => exact .addParent hr hs (hp other rfl)
  | foreign kind => cases hr

theorem Sound.step (h : s.Sound) (command : Command) : (s.step command).session.Sound := by
  cases command with
  | new id method => exact h.insert (.new method)
  | withOptions id method input =>
    refine h.putScope fun scope hr ↦ ?_
    obtain ⟨o, ho⟩ := OptionsInput.exists_of_bind_eq_ok hr
    exact .withOptions ho
  | nested id parent method => exact h.onScope fun _ hs ↦ h.insert (.nested method hs)
  | copy id source => exact h.onScope fun _ hs ↦ h.insert hs
  | factory id input =>
    cases input with
    | none =>
      refine h.putFactory fun f hf ↦ ?_
      cases hf
      exact Options.defect?_builtin
    | some input =>
      refine h.putFactory fun f hf ↦ ?_
      obtain ⟨o, ho⟩ := OptionsInput.exists_of_bind_eq_ok hf
      obtain ⟨hd, rfl⟩ := Factory.ofOptions_eq_ok_iff.1 ho
      exact hd
  | create id factory method =>
    simp only [Session.step]
    cases hf : s.factories.get? factory with
    | none => exact h
    | some f =>
      have ho : Factory.ofOptions f.options = .ok f :=
        Factory.ofOptions_eq_ok_iff.2 ⟨h.factories hf, rfl⟩
      exact h.insert (.createFrom method ho)
  | inherit id parent =>
    exact h.onScope fun _ hs ↦ h.onScope fun _ hp ↦ h.insert (.inherit hs hp)
  | addParent id parent =>
    refine h.onScope fun other hp ↦ h.addParentTo _ fun scope he ↦ ?_
    cases he
    exact hp
  | addForeignParent id kind =>
    refine h.addParentTo _ fun scope he ↦ ?_
    cases he
  | rename id batch => exact h.onScope fun _ hs ↦ h.insert (.rename batch hs)
  | draw id ty count => exact h.onScope fun _ hs ↦ h.insert (hs.drawAll _)
  | nameEach id ty count => exact h.onScope fun _ hs ↦ h.insert (hs.nameEach ty count)
  | family id key => exact h.onScope fun _ _ ↦ h
  | peek id key count => exact h.onScope fun _ _ ↦ h
  | remap id key => exact h.onScope fun _ _ ↦ h
  | parameter id name index => exact h.onScope fun _ _ ↦ h
  | kind id => exact h.onScope fun _ _ ↦ h

/-- Every scope that any run comes to hold has come about by constructions and operations. -/
theorem Sound.run (h : s.Sound) (commands : List Command) :
    ∀ outcome ∈ s.run commands, outcome.session.Sound := by
  induction commands generalizing s with
  | nil => exact fun _ hm ↦ absurd hm List.not_mem_nil
  | cons command rest ih =>
    have hs := h.step command
    intro outcome hm
    rcases List.mem_cons.1 hm with rfl | hm
    · exact hs
    · exact ih hs outcome hm

theorem reachable_of_mem_run {commands : List Command} {outcome : Outcome} {scope : Scope}
    (ho : outcome ∈ ({} : Session).run commands)
    (hs : outcome.session.scopes.get? id = some scope) : Reachable scope :=
  (sound_empty.run commands outcome ho).scopes hs

end Session

end LocalNames
