import LocalNames.Proofs.Accounting

namespace LocalNames.Scope

theorem names_repeat :
    ¬ ∀ (method : Method) (before between : List Text) (ty ty' : Text),
      let s := ((new method).drawAll before).scope
      let s' := ((s.draw ty).scope.drawAll between).scope
      s.drawnKey? ty ≠ none → s'.drawnKey? ty' ≠ none → (s.draw ty).name ≠ (s'.draw ty').name := by
  intro h
  exact h ⟨"Demo", "run", "()V"⟩ [] [] "float" "F" (by decide +kernel) (by decide +kernel)
    (by decide +kernel)

theorem name_draw_eq {s : Scope} (h : s.Sound) {ty key : Text} (hk : s.drawnKey? ty = some key) :
    (s.draw ty).name = (s.numbering key).candidate ++ (s.numbering key).suffix := by
  rw [(draw_of_drawnKey? hk).1, Family.name_eq (h.candidates_numbering_ne_nil key)]

/-- One family issues a name again when its counter comes round. Two families issue the same name
where the longer base goes on as the number behind the shorter one begins. -/
theorem draw_name_eq_iff (method : Method) (before between : List Text) {ty ty' key key' : Text} :
    let s := ((new method).drawAll before).scope
    let s' := ((s.draw ty).scope.drawAll between).scope
    s.drawnKey? ty = some key → s'.drawnKey? ty' = some key' →
    let f := s.numbering key
    let f' := s'.numbering key'
    (s.draw ty).name = f.candidate ++ f.suffix ∧ (s'.draw ty').name = f'.candidate ++ f'.suffix ∧
      (key = key' → ((s.draw ty).name = (s'.draw ty').name ↔
        UInt64.size ∣ (s.drawnKeys (ty :: between)).count (some key))) ∧
      (key ≠ key' → ((s.draw ty).name = (s'.draw ty').name ↔ ∃ d, IsSuffix d ∧
        ((f'.candidate = f.candidate ++ d ∧ f.suffix = d ++ f'.suffix) ∨
          (f.candidate = f'.candidate ++ d ∧ f'.suffix = d ++ f.suffix)))) := by
  intro s s' hk hk' f f'
  have hs : s.Sound := (sound_new method).drawAll before
  have hn := name_draw_eq hs hk
  have hn' := name_draw_eq ((hs.draw ty).drawAll between) hk'
  refine ⟨hn, hn', ?_, fun _ ↦ ⟨fun h ↦ ?_, ?_⟩⟩
  · rintro rfl
    -- the family has moved on by the draws from it up to the second one
    have hd := (distinct_new method).of_leads (leads_drawAll _ before) key
    have hf : f' = f.after _ := (leads_drawAll s (ty :: between)).numbering key
    rw [length_namesOf_issues] at hf
    rw [(draw_of_drawnKey? hk).1, (draw_of_drawnKey? hk').1, eq_comm]
    change f'.name = f.name ↔ _
    rw [hf]
    exact Family.name_after_eq_name_iff hd.1 hd.2 _
  · rw [hn, hn'] at h
    exact exists_of_append_eq_append f.isSuffix_suffix f'.isSuffix_suffix h
  · rintro ⟨d, _, ⟨hc, hx⟩ | ⟨hc, hx⟩⟩
    · rw [hn, hn', hc, hx, List.append_assoc]
    · rw [hn, hn', hc, hx, List.append_assoc]

theorem draw_name_eq_byte :
    let s := ((new ⟨"Demo", "run", "()V"⟩).drawAll ["byte"]).scope
    let s' := ((s.draw "byte").scope.drawAll ["int"]).scope
    (s.draw "byte").name = (s'.draw "B1").name := by
  intro s s'
  have hk : s.drawnKey? "byte" = some ("byte" : Text) := by decide +kernel
  have hk' : s'.drawnKey? "B1" = some ("b1" : Text) := by decide +kernel
  have h := draw_name_eq_iff ⟨"Demo", "run", "()V"⟩ ["byte"] ["int"] hk hk'
  exact (h.2.2.2 (by decide)).2 ⟨"1", .inr ⟨1, by decide +kernel⟩,
    .inl ⟨by decide +kernel, by decide +kernel⟩⟩

end LocalNames.Scope
