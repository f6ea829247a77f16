import LocalNames.Proofs.Call
import LocalNames.Proofs.Family
import LocalNames.Proofs.Options

namespace LocalNames.Scope

structure Sound (s : Scope) : Prop where
  key_ne_nil {key : Text} {f : Family} : s.family? key = some f → key ≠ []
  candidates_ne_nil {key : Text} {f : Family} : s.family? key = some f → f.candidates ≠ []
  registered {source target : Text} : s.remap? source = some target →
    ∃ f, s.family? target = some f

theorem sound_seeded {o : Options} (h : o.defect? = none) (method : Method) :
    (seeded method o).Sound := by
  obtain ⟨hs, hr⟩ := Options.defect?_eq_none_iff.1 h
  constructor
  · intro key f hf
    exact (hs _ (exists_seed_of_family?_seeded hf)).1
  · intro key f hf
    exact (hs _ (exists_seed_of_family?_seeded hf)).2
  · intro source target ht
    exact exists_family?_seeded (hr _ (Table.get?_eq_some_iff.1 ht))

theorem sound_new (method : Method) : (new method).Sound :=
  sound_seeded Options.defect?_builtin method

theorem Sound.inherit {parent : Scope} (h : parent.Sound) (s : Scope) : (s.inherit parent).Sound :=
  ⟨h.key_ne_nil, h.candidates_ne_nil, h.registered⟩

theorem Sound.candidates_numbering_ne_nil {s : Scope} (h : s.Sound) (key : Text) :
    (s.numbering key).candidates ≠ [] := by
  unfold numbering
  cases hf : s.family? key with
  | some f => exact h.candidates_ne_nil hf
  | none => exact List.cons_ne_nil _ _

theorem Sound.drawnKey?_ne_nil {s : Scope} (h : s.Sound) {ty key : Text}
    (hd : s.drawnKey? ty = some key) : key ≠ [] := by
  rcases drawnKey?_eq_some_iff.1 hd with ⟨-, f, hf⟩ | ⟨-, rfl, ht⟩
  · exact h.key_ne_nil hf
  · exact fun hn ↦ TypeName.ne_nil_of_isCapitalized_or_isArray ht (TypeName.key_eq_nil_iff.1 hn)

theorem Sound.draw {s : Scope} (h : s.Sound) (ty : Text) : (s.draw ty).scope.Sound := by
  constructor
  · intro key f hf
    rw [family?_draw] at hf
    split at hf
    · rename_i hd
      exact h.drawnKey?_ne_nil hd
    · exact h.key_ne_nil hf
  · intro key f hf
    rw [family?_draw] at hf
    split at hf
    · cases hf
      exact h.candidates_numbering_ne_nil key
    · exact h.candidates_ne_nil hf
  · intro source target ht
    rw [remap?_draw] at ht
    obtain ⟨f, hf⟩ := h.registered ht
    exact exists_family?_draw hf ty

theorem Sound.drawAll {s : Scope} (h : s.Sound) (tys : List Text) :
    (s.drawAll tys).scope.Sound :=
  drawAll_induction (fun _ ty h ↦ h.draw ty) h tys

theorem Sound.perform {s : Scope} (h : s.Sound) (call : Call) : (s.perform call).Sound := by
  rw [perform_eq_drawAll]
  exact h.drawAll call.types

theorem Sound.performAll {s : Scope} (h : s.Sound) (calls : List Call) :
    (s.performAll calls).Sound := by
  rw [performAll_eq_drawAll]
  exact h.drawAll _

/-- In a sound scope no redirection leads nowhere. -/
theorem Sound.exists_family?_of_source {s : Scope} (h : s.Sound) {ty key : Text}
    (hs : s.source ty = .family key) : ∃ f, s.family? key = some f := by
  have hr := resolution_source s ty
  rw [hs] at hr
  cases hr with
  | exact hf => exact ⟨_, hf⟩
  | lowered _ hf => exact ⟨_, hf⟩
  | remapped _ _ hr => exact h.registered hr

theorem Sound.drawnKey?_eq {s : Scope} (h : s.Sound) (ty : Text) :
    s.drawnKey? ty = (s.source ty).key? := by
  unfold drawnKey?
  cases hs : s.source ty with
  | family key =>
    obtain ⟨f, hf⟩ := h.exists_family?_of_source hs
    simp only [hf, Option.map_some, Source.key?]
  | derived key base => rfl
  | typeName => rfl

theorem Sound.not_founds_of_drawnKey?_eq_none {s : Scope} (h : s.Sound) {ty : Text}
    (hd : s.drawnKey? ty = none) : ¬ TypeName.Founds ty := by
  rw [TypeName.founds_iff, Bool.not_eq_true]
  rw [h.drawnKey?_eq] at hd
  have hr := resolution_source s ty
  generalize s.source ty = source at hr hd
  cases hr with
  | typeName _ _ _ hf => exact hf
  | exact | lowered | remapped | derived => cases hd

/-- The scopes that constructions and operations lead to, in whatever order they are carried out.
A copy of a scope is the scope itself. -/
inductive Reachable : Scope → Prop
  | new (method : Method) : Reachable (.new method)
  | withOptions {method : Method} {o : Options} {s : Scope}
      (h : Scope.withOptions method o = .ok s) : Reachable s
  | create (method : Method) : Reachable (Factory.builtin.create method)
  | createFrom {o : Options} {f : Factory} (method : Method) (h : Factory.ofOptions o = .ok f) :
      Reachable (f.create method)
  | nested {parent : Scope} (method : Method) : Reachable parent → Reachable (.nested method parent)
  | draw {s : Scope} (ty : Text) : Reachable s → Reachable (s.draw ty).scope
  | rename {s : Scope} (batch : Batch) : Reachable s → Reachable (s.rename batch).scope
  | inherit {s parent : Scope} : Reachable s → Reachable parent → Reachable (s.inherit parent)
  | addParent {s parent s' : Scope} (h : (s.addParent (.scope parent)).1 = .ok s') :
      Reachable s → Reachable parent → Reachable s'

theorem Reachable.sound {s : Scope} (h : Reachable s) : s.Sound := by
  induction h with
  | new method => exact sound_new method
  | withOptions h =>
    obtain ⟨hd, rfl⟩ := withOptions_eq_ok_iff.1 h
    exact sound_seeded hd _
  | create method => exact sound_new method
  | createFrom method h =>
    obtain ⟨hd, rfl⟩ := Factory.ofOptions_eq_ok_iff.1 h
    exact sound_seeded hd method
  | nested method _ ih => exact ih.inherit (.new method)
  | draw ty _ ih => exact ih.draw ty
  | rename batch _ ih => exact ih.perform (.rename batch)
  | inherit _ _ _ ih => exact ih.inherit _
  | addParent h _ _ _ ih =>
    cases h
    exact ih.inherit _

theorem name_available {s : Scope} (h : Reachable s) :
    (∀ key f, s.family? key = some f → key ≠ [] ∧ f.candidates ≠ []) ∧
    (∀ source target, s.remap? source = some target → ∃ f, s.family? target = some f) ∧
    (∀ ty key, s.source ty = .family key →
      ∃ f, s.family? key = some f ∧ s.draw ty = s.issue key f []) ∧
    ∀ ty key, s.drawnKey? ty = some key →
      let f := s.numbering key
      (s.draw ty).name = f.name ∧ 0 < f.candidates.length ∧
        f.candidates[f.counter.toNat % f.candidates.length]? = some f.candidate := by
  have hs := h.sound
  refine ⟨fun key f hf ↦ ⟨hs.key_ne_nil hf, hs.candidates_ne_nil hf⟩,
    fun source target ht ↦ hs.registered ht, fun ty key hk ↦ ?_, fun ty key hk ↦ ?_⟩
  · obtain ⟨f, hf⟩ := hs.exists_family?_of_source hk
    refine ⟨f, hf, ?_⟩
    simp only [draw, hk, hf]
  · have hc := hs.candidates_numbering_ne_nil key
    exact ⟨(draw_of_drawnKey? hk).1, List.length_pos_iff.2 hc, Family.getElem?_index hc _⟩

theorem name_available_nested :
    let parent := ((new ⟨"Demo", "outer", "()V"⟩).draw "Widget[]").scope
    let s := nested ⟨"Demo", "inner", "()V"⟩ parent
    (∃ f, s.family? "int" = some f ∧ s.draw "long" = s.issue "int" f []) ∧
      (s.draw "Widget...").name = (s.numbering "widget[]").name := by
  intro parent s
  have h : Reachable s := .nested _ (.draw "Widget[]" (.new _))
  obtain ⟨-, -, hl, hn⟩ := name_available h
  exact ⟨hl "long" "int" (by decide +kernel), (hn "Widget..." "widget[]" (by decide +kernel)).1⟩

end LocalNames.Scope
