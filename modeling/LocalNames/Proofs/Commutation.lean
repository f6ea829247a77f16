import LocalNames.Proofs.Lookup

namespace LocalNames.Scope

open LocalNames.TypeName

variable {s : Scope} {ty ty' : Text}

def Registers (s : Scope) (ty key : Text) : Prop :=
  s.family? key = none ∧ ∃ f, (s.draw ty).scope.family? key = some f

theorem registers_iff {key : Text} : s.Registers ty key ↔
    s.family? key = none ∧ ((s.draw ty).scope.family? key).isSome := by
  rw [Registers, Option.isSome_iff_exists]

instance (s : Scope) (ty key : Text) : Decidable (s.Registers ty key) :=
  decidable_of_iff _ registers_iff.symm

theorem Grows.drawnKey?_eq {s' : Scope} (h : Grows s s') (hs : s.Sound) (hs' : s'.Sound)
    (hl : s.family? (lowercase (collapse ty)) = none →
      s'.family? (lowercase (collapse ty)) = none) : s'.drawnKey? ty = s.drawnKey? ty := by
  rcases ownKey_or_unmatched s ty with ⟨key, hk⟩ | ⟨hn, -⟩
  · rw [hk.drawnKey?_of_grows h, hk.drawnKey?_eq]
  · have he := h.source_eq hn.collapsed hn.lowered (hl hn.lowered)
    rw [hs'.drawnKey?_eq, hs.drawnKey?_eq, he]

theorem Sound.drawnKey?_draw (h : s.Sound) (hr : ¬ s.Registers ty' (lowercase (collapse ty))) :
    (s.draw ty').scope.drawnKey? ty = s.drawnKey? ty := by
  refine (grows_draw s ty').drawnKey?_eq h (h.draw ty') fun hn ↦ ?_
  apply Option.eq_none_iff_forall_not_mem.2
  intro f hf
  exact hr ⟨hn, f, hf⟩

theorem name_draw_draw (hd : (s.draw ty').scope.drawnKey? ty = s.drawnKey? ty)
    (hne : ∀ key, s.drawnKey? ty = some key → s.drawnKey? ty' ≠ some key) :
    ((s.draw ty').scope.draw ty).name = (s.draw ty).name := by
  cases hk : s.drawnKey? ty with
  | none =>
    rw [hk] at hd
    rw [draw_of_drawnKey?_eq_none hd, draw_of_drawnKey?_eq_none hk]
    rfl
  | some key =>
    rw [hk] at hd
    rw [(draw_of_drawnKey? hd).1, (draw_of_drawnKey? hk).1, numbering_draw, if_neg (hne key hk)]

/-- Draws from different families may change places, unless one of them brings a family into being
under the lowercase of the other type. -/
theorem draws_commute (h : Reachable s)
    (hne : ∀ key, s.drawnKey? ty = some key → s.drawnKey? ty' ≠ some key)
    (hr : ¬ s.Registers ty (lowercase (collapse ty')))
    (hr' : ¬ s.Registers ty' (lowercase (collapse ty))) :
    let t := (s.draw ty).scope
    let t' := (s.draw ty').scope
    (t'.draw ty).name = (s.draw ty).name ∧ (t.draw ty').name = (s.draw ty').name ∧
      (∀ key, (t.draw ty').scope.family? key = (t'.draw ty).scope.family? key) ∧
      (t.draw ty').scope.remaps = (t'.draw ty).scope.remaps := by
  intro t t'
  have hd : t'.drawnKey? ty = s.drawnKey? ty := h.sound.drawnKey?_draw hr'
  have hd' : t.drawnKey? ty' = s.drawnKey? ty' := h.sound.drawnKey?_draw hr
  have hne' (key : Text) (hk : s.drawnKey? ty' = some key) : s.drawnKey? ty ≠ some key :=
    fun he ↦ hne key he hk
  refine ⟨name_draw_draw hd hne, name_draw_draw hd' hne', fun key ↦ ?_, ?_⟩
  · -- at most one of the draws moves on the family of a key
    simp only [family?_draw, numbering_draw, hd, hd', t, t']
    by_cases hk : s.drawnKey? ty = some key
    · rw [if_neg (hne key hk), if_pos hk, if_pos hk, if_neg (hne key hk)]
    · rw [if_neg hk, if_neg hk, if_neg hk]
  · rw [remaps_draw, remaps_draw, remaps_draw, remaps_draw]

theorem draws_commute_gadget :
    let s := nested ⟨"Demo", "inner", "()V"⟩ ((new ⟨"Demo", "outer", "()V"⟩).draw "Widget[]").scope
    let t := (s.draw "Gadget...").scope
    let t' := (s.draw "long").scope
    (t'.draw "Gadget...").name = ("agadget" : Text) ∧ (t.draw "long").name = ("i" : Text) ∧
      ∀ key, (t.draw "long").scope.family? key = (t'.draw "Gadget...").scope.family? key := by
  intro s t t'
  have h : Reachable s := .nested _ (.draw "Widget[]" (.new _))
  have hne (key : Text) (hk : s.drawnKey? "Gadget..." = some key) :
      s.drawnKey? "long" ≠ some key :=
    fun hk' ↦ absurd (hk.trans hk'.symm) (by decide +kernel)
  obtain ⟨hn, hn', hf, -⟩ := draws_commute h hne (by decide +kernel) (by decide +kernel)
  refine ⟨?_, ?_, hf⟩
  · rw [hn]
    decide +kernel
  · rw [hn']
    decide +kernel

end LocalNames.Scope
