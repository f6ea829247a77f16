import LocalNames.Proofs.Batch
import LocalNames.Proofs.Text

namespace LocalNames

namespace Variable

theorem text_eq (v : Variable) :
    v.text = '(' :: (numeral v.slot.toNat ++ ',' :: (numeral v.version.toNat ++ [')'])) := by
  simp [text]

theorem space_not_mem_text (v : Variable) : ' ' ∉ v.text := by
  have hs := not_mem_numeral (c := ' ') rfl v.slot.toNat
  have hv := not_mem_numeral (c := ' ') rfl v.version.toNat
  rw [text_eq]
  simp [hs, hv]

theorem text_injective : Function.Injective text := by
  intro v w h
  rw [text_eq, text_eq, List.cons.injEq] at h
  obtain ⟨hs, hr⟩ :=
    eq_of_append_cons_eq (not_mem_numeral rfl _) (not_mem_numeral rfl _) h.2
  have hv := List.append_cancel_right hr
  exact eq_iff.2 ⟨numeral_injective hs, numeral_injective hv⟩

end Variable

variable {e f : Variable × Text} {l m : List (Variable × Text)}

theorem render_cons (e : Variable × Text) (l : List (Variable × Text)) :
    render (e :: l) = e.1.text ++ ' ' :: (e.2 ++ '\n' :: render l) := by
  simp [render]

theorem render_append (l m : List (Variable × Text)) : render (l ++ m) = render l ++ render m :=
  List.flatMap_append

/-- A line is cut off the rest by its end, and the variable off the name by the first space. -/
theorem eq_of_render_cons_prefix (he : '\n' ∉ e.2) (hf : '\n' ∉ f.2)
    (h : render (e :: l) <+: render (f :: m)) : e = f ∧ render l <+: render m := by
  obtain ⟨rest, h⟩ := h
  simp only [render_cons, List.append_assoc, List.cons_append] at h
  obtain ⟨hv, h⟩ := eq_of_append_cons_eq e.1.space_not_mem_text f.1.space_not_mem_text h
  obtain ⟨hn, h⟩ := eq_of_append_cons_eq he hf h
  exact ⟨Prod.ext (Variable.text_injective hv) hn, rest, h⟩

theorem render_prefix_iff (hl : ∀ e ∈ l, '\n' ∉ e.2) (hm : ∀ e ∈ m, '\n' ∉ e.2) :
    render l <+: render m ↔ l <+: m := by
  constructor
  · intro h
    -- line by line: what is left of both texts is rendered again
    induction l generalizing m with
    | nil => exact List.nil_prefix
    | cons e l ih =>
      obtain ⟨he, hl⟩ := List.forall_mem_cons.1 hl
      cases m with
      | nil =>
        rw [render_cons] at h
        simp [render] at h
      | cons f m =>
        obtain ⟨hf, hm⟩ := List.forall_mem_cons.1 hm
        obtain ⟨hef, h⟩ := eq_of_render_cons_prefix he hf h
        exact List.cons_prefix_cons.2 ⟨hef, ih hl hm h⟩
  · rintro ⟨rest, rfl⟩
    rw [render_append]
    exact List.prefix_append _ _

/-- Rendered text hides no difference between names, whatever the variables, as long as no name goes
on to a second line. -/
theorem render_eq_iff {names names' : List (Variable × Text)} (h : ∀ e ∈ names, '\n' ∉ e.2)
    (h' : ∀ e ∈ names', '\n' ∉ e.2) : render names = render names' ↔ names = names' := by
  constructor
  · intro he
    have hp : names <+: names' := (render_prefix_iff h h').1 (he ▸ List.prefix_refl _)
    have hp' : names' <+: names := (render_prefix_iff h' h).1 (he ▸ List.prefix_refl _)
    exact hp.eq_of_length (hp.length_le.antisymm hp'.length_le)
  · rintro rfl
    rfl

theorem render_eq_iff_spaced :
    let names : List (Variable × Text) := [(⟨1, 0⟩, "i (2,11) j"), (⟨3, 0⟩, "")]
    let names' : List (Variable × Text) := [(⟨1, 0⟩, "i"), (⟨2, 11⟩, "j"), (⟨3, 0⟩, "")]
    (∀ e ∈ names, '\n' ∉ e.2) ∧ (∀ e ∈ names', '\n' ∉ e.2) ∧ render names ≠ render names' := by
  intro names names'
  have h : ∀ e ∈ names, '\n' ∉ e.2 := by decide
  have h' : ∀ e ∈ names', '\n' ∉ e.2 := by decide
  have hne : names ≠ names' := by decide
  exact ⟨h, h', fun he ↦ hne ((render_eq_iff h h').1 he)⟩

/-- A name of two lines passes for two names. -/
example : render [(⟨1, 0⟩, "i\n(2,0) j")] = render [(⟨1, 0⟩, "i"), (⟨2, 0⟩, "j")] := by decide

end LocalNames
