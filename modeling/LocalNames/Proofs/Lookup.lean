import LocalNames.Proofs.Stability

namespace LocalNames.Scope

open LocalNames.TypeName

variable {s s' : Scope} {ty : Text}

structure Unmatched (s : Scope) (ty : Text) : Prop where
  collapsed : s.family? (collapse ty) = none
  lowered : s.family? (lowercase (collapse ty)) = none

theorem unmatched_iff : Unmatched s ty ↔
    s.family? (collapse ty) = none ∧ s.family? (lowercase (collapse ty)) = none :=
  ⟨fun h ↦ ⟨h.collapsed, h.lowered⟩, fun h ↦ ⟨h.1, h.2⟩⟩

instance (s : Scope) (ty : Text) : Decidable (Unmatched s ty) :=
  decidable_of_iff _ unmatched_iff.symm

/-- The rules of naming, in the order in which they are tried, each with all that it does. -/
inductive Prescribed (s : Scope) (ty : Text) : Drawn → Prop
  | exact {f : Family} (hf : s.family? (collapse ty) = some f) :
      Prescribed s ty ⟨f.name, s.put (collapse ty) f.advance, []⟩
  | lowered {f : Family} (hc : s.family? (collapse ty) = none)
      (hf : s.family? (lowercase (collapse ty)) = some f) :
      Prescribed s ty ⟨f.name, s.put (lowercase (collapse ty)) f.advance, []⟩
  | redirected {target : Text} {f : Family} (hn : Unmatched s ty)
      (hr : s.remap? ty = some target) (hf : s.family? target = some f) :
      Prescribed s ty ⟨f.name, s.put target f.advance, []⟩
  | rejoined {f : Family} (hn : Unmatched s ty) (hr : s.remap? ty = none) (hd : Founds ty)
      (hf : s.family? (key ty) = some f) :
      Prescribed s ty ⟨f.name, s.put (key ty) f.advance, []⟩
  | founded {f : Family} (hn : Unmatched s ty) (hr : s.remap? ty = none) (hd : Founds ty)
      (hf : s.family? (key ty) = none) (hb : f = ⟨[base ty], 0, true⟩) :
      Prescribed s ty ⟨f.name, s.put (key ty) f.advance, [.created (key ty) (base ty)]⟩
  | kept (hn : Unmatched s ty) (hr : s.remap? ty = none) (hd : ¬ Founds ty) :
      Prescribed s ty ⟨lowercase ty, s, [.kept ty]⟩

theorem Unmatched.source_of_founds (hn : Unmatched s ty) (hr : s.remap? ty = none)
    (hd : Founds ty) : s.source ty = .derived (key ty) (base ty) :=
  (Resolution.derived hn.collapsed hn.lowered hr (founds_iff.1 hd)).eq_source

theorem Unmatched.source_of_not_founds (hn : Unmatched s ty) (hr : s.remap? ty = none)
    (hd : ¬ Founds ty) : s.source ty = .typeName := by
  have hf : (isCapitalized ty || isArray ty) = false := by
    rwa [founds_iff, Bool.not_eq_true] at hd
  exact (Resolution.typeName hn.collapsed hn.lowered hr hf).eq_source

theorem draw_of_source_family {key : Text} {f : Family} (hs : s.source ty = .family key)
    (hf : s.family? key = some f) : s.draw ty = ⟨f.name, s.put key f.advance, []⟩ := by
  simp only [draw, hs, hf]
  rfl

theorem Prescribed.draw_eq {d : Drawn} (h : Prescribed s ty d) : s.draw ty = d := by
  cases h with
  | exact hf => exact draw_of_source_family (Resolution.exact hf).eq_source hf
  | lowered hc hf => exact draw_of_source_family (Resolution.lowered hc hf).eq_source hf
  | redirected hn hr hf =>
    have hs := (Resolution.remapped hn.collapsed hn.lowered hr).eq_source
    exact draw_of_source_family hs hf
  | rejoined hn hr hd hf =>
    simp only [draw, hn.source_of_founds hr hd, hf]
    rfl
  | founded hn hr hd hf hb =>
    simp only [draw, hn.source_of_founds hr hd, hf, hb]
    rfl
  | kept hn hr hd =>
    simp only [draw, hn.source_of_not_founds hr hd]
    rfl

/-- Only a redirection to a key without a family is left without a rule, and a sound scope has
none. -/
theorem Sound.prescribed_draw (h : s.Sound) (ty : Text) : Prescribed s ty (s.draw ty) := by
  -- some rule applies, and what it prescribes is what is drawn
  have hp : ∃ d, Prescribed s ty d := by
    have hr := resolution_source s ty
    generalize s.source ty = source at hr
    cases hr with
    | exact hf => exact ⟨_, .exact hf⟩
    | lowered hc hf => exact ⟨_, .lowered hc hf⟩
    | remapped hc hl hr =>
      obtain ⟨f, hf⟩ := h.registered hr
      exact ⟨_, .redirected ⟨hc, hl⟩ hr hf⟩
    | derived hc hl hr hd =>
      have hd := founds_iff.2 hd
      cases hf : s.family? (key ty) with
      | some f => exact ⟨_, .rejoined ⟨hc, hl⟩ hr hd hf⟩
      | none => exact ⟨_, .founded ⟨hc, hl⟩ hr hd hf rfl⟩
    | typeName hc hl hr hd =>
      have hd : ¬ Founds ty := by rw [founds_iff, hd]; exact Bool.false_ne_true
      exact ⟨_, .kept ⟨hc, hl⟩ hr hd⟩
  obtain ⟨d, hp⟩ := hp
  rwa [hp.draw_eq]

theorem prescribed_iff {s : Scope} (h : Reachable s) (ty : Text) :
    (∀ d, Prescribed s ty d ↔ s.draw ty = d) ∧
      (s.draw ty = s.keep ty ↔ Unmatched s ty ∧ s.remap? ty = none ∧ ¬ Founds ty) := by
  have hp : Prescribed s ty (s.draw ty) := h.sound.prescribed_draw ty
  refine ⟨fun d ↦ ⟨fun hd ↦ hd.draw_eq, fun hd ↦ hd ▸ hp⟩, fun hk ↦ ?_, fun ⟨hn, hr, hd⟩ ↦ ?_⟩
  · rw [hk] at hp
    generalize hs : s.keep ty = d at hp
    -- the other rules note nothing, or a new family
    have he : [.kept ty] = d.events := congrArg Drawn.events hs
    cases hp with
    | kept hn hr hd => exact ⟨hn, hr, hd⟩
    | exact | lowered | redirected | rejoined | founded => cases he
  · exact (Prescribed.kept hn hr hd).draw_eq

theorem prescribed_iff_nested :
    let s := nested ⟨"Demo", "inner", "()V"⟩ ((new ⟨"Demo", "outer", "()V"⟩).draw "Widget[]").scope
    s.draw "long" = ⟨"i", s.put "int" ⟨["i", "j", "k", "l"], 1, true⟩, []⟩ ∧
      (s.draw "Widget...").name = "awidget1" ∧
      s.draw "foo" = s.keep "foo" := by
  intro s
  have h : Reachable s := .nested _ (.draw "Widget[]" (.new _))
  refine ⟨?_, ?_, ?_⟩
  · obtain ⟨hn, hr, hi⟩ : Unmatched s "long" ∧ s.remap? "long" = some ("int" : Text) ∧
        s.family? "int" = some ⟨["i", "j", "k", "l"], 0, true⟩ := by decide +kernel
    exact ((prescribed_iff h "long").1 _).1 (.redirected hn hr hi)
  · obtain ⟨hn, hr, hd, hi⟩ : Unmatched s "Widget..." ∧ s.remap? "Widget..." = none ∧
        Founds "Widget..." ∧ s.family? (key "Widget...") = some ⟨["awidget"], 1, true⟩ := by
      decide +kernel
    rw [((prescribed_iff h "Widget...").1 _).1 (.rejoined hn hr hd hi)]
    decide +kernel
  · exact (prescribed_iff h "foo").2.2 (by decide +kernel)

inductive OwnKey (s : Scope) (ty : Text) : Text → Prop
  | exact {f : Family} (hf : s.family? (collapse ty) = some f) : OwnKey s ty (collapse ty)
  | lowered {f : Family} (hc : s.family? (collapse ty) = none)
      (hf : s.family? (lowercase (collapse ty)) = some f) : OwnKey s ty (lowercase (collapse ty))
  | derived (hn : Unmatched s ty) (hr : s.remap? ty = none) (hd : Founds ty) :
      OwnKey s ty (key ty)

theorem OwnKey.drawnKey?_eq {key : Text} (h : OwnKey s ty key) : s.drawnKey? ty = some key := by
  cases h with
  | exact hf => exact (Resolution.exact hf).drawnKey? hf
  | lowered hc hf => exact (Resolution.lowered hc hf).drawnKey? hf
  | derived hn hr hd =>
    have hs := hn.source_of_founds hr hd
    exact drawnKey?_eq_some_iff.2 (.inr ⟨hs, rfl, founds_iff.1 hd⟩)

theorem OwnKey.drawnKey?_of_grows {key : Text} (h : OwnKey s ty key) (hg : Grows s s') :
    s'.drawnKey? ty = some key := by
  cases h with
  | exact hf =>
    obtain ⟨f', hf'⟩ := hg.kept hf
    exact (Resolution.exact hf').drawnKey? hf'
  | lowered hc hf =>
    obtain ⟨f', hf'⟩ := hg.kept hf
    exact hg.drawnKey?_of_lowercase hc hf'
  | derived hn hr hd =>
    refine (hg.drawnKey?_cases (OwnKey.derived hn hr hd).drawnKey?_eq).resolve_right ?_
    intro ⟨hr', _⟩
    rw [hr] at hr'
    cases hr'

theorem Unmatched.drawnKey?_ne (hn : Unmatched s ty)
    (hr : (∃ target, s.remap? ty = some target) ∨ ¬ Founds ty) :
    s.drawnKey? ty ≠ some (lowercase (collapse ty)) := by
  intro hd
  rcases drawnKey?_eq_some_iff.1 hd with ⟨-, f, hf⟩ | ⟨hs, -, ha⟩
  · rw [hn.lowered] at hf
    cases hf
  · rcases hr with ⟨target, hr⟩ | hf
    · rw [(Resolution.remapped hn.collapsed hn.lowered hr).eq_source] at hs
      cases hs
    · exact hf (founds_iff.2 ha)

theorem ownKey_or_unmatched (s : Scope) (ty : Text) :
    (∃ key, OwnKey s ty key) ∨
      (Unmatched s ty ∧ ((∃ target, s.remap? ty = some target) ∨ ¬ Founds ty)) := by
  cases hc : s.family? (collapse ty) with
  | some f => exact .inl ⟨_, .exact hc⟩
  | none =>
    cases hl : s.family? (lowercase (collapse ty)) with
    | some f => exact .inl ⟨_, .lowered hc hl⟩
    | none =>
      by_cases hd : s.remap? ty = none ∧ Founds ty
      · exact .inl ⟨_, .derived ⟨hc, hl⟩ hd.1 hd.2⟩
      · right
        refine ⟨⟨hc, hl⟩, ?_⟩
        rwa [not_and_or, ← ne_eq, Option.ne_none_iff_exists'] at hd

theorem drawnKey?_ne_iff {s : Scope} (h : Reachable s) (later : List Call) (ty : Text) :
    let s' := s.performAll later
    (s'.drawnKey? ty ≠ s.drawnKey? ty ↔
      Unmatched s ty ∧ ((∃ target, s.remap? ty = some target) ∨ ¬ Founds ty) ∧
        ∃ f, s'.family? (lowercase (collapse ty)) = some f) ∧
    ∀ key, OwnKey s ty key → s.drawnKey? ty = some key ∧ s'.drawnKey? ty = some key := by
  intro s'
  have hs : s.Sound := h.sound
  have hs' : s'.Sound := hs.performAll later
  have hg : Grows s s' := grows_performAll s later
  have hown (key : Text) (hk : OwnKey s ty key) :
      s.drawnKey? ty = some key ∧ s'.drawnKey? ty = some key :=
    ⟨hk.drawnKey?_eq, hk.drawnKey?_of_grows hg⟩
  refine ⟨⟨fun hne ↦ ?_, fun ⟨hn, hr, f, hf⟩ ↦ ?_⟩, hown⟩
  · rcases ownKey_or_unmatched s ty with ⟨key, hk⟩ | ⟨hn, hr⟩
    · obtain ⟨hd, hd'⟩ := hown key hk
      exact absurd (hd'.trans hd.symm) hne
    · refine ⟨hn, hr, Option.ne_none_iff_exists'.1 fun hl' ↦ hne ?_⟩
      rw [hs'.drawnKey?_eq, hs.drawnKey?_eq, hg.source_eq hn.collapsed hn.lowered hl']
  · -- the lowercase spelling was not registered before, so nothing was drawn from it
    rw [hg.drawnKey?_of_lowercase hn.collapsed hf]
    exact (hn.drawnKey?_ne hr).symm

theorem drawnKey?_ne_long :
    let s := new ⟨"Demo", "run", "()V"⟩
    let s' := s.performAll [.draw "LONG", .draw "Foo", .draw "WIDGET[]"]
    s'.drawnKey? "long" ≠ s.drawnKey? "long" ∧ s'.drawnKey? "foo" ≠ s.drawnKey? "foo" ∧
      s'.drawnKey? "Widget..." = some ("widget[]" : Text) := by
  intro s s'
  have h (ty : Text) := drawnKey?_ne_iff (.new ⟨"Demo", "run", "()V"⟩)
    [.draw "LONG", .draw "Foo", .draw "WIDGET[]"] ty
  refine ⟨?_, ?_, ?_⟩
  · obtain ⟨hn, hr, hf⟩ : Unmatched s "long" ∧ s.remap? "long" = some ("int" : Text) ∧
        s'.family? (lowercase (collapse "long")) = some ⟨["long"], 1, true⟩ := by decide +kernel
    exact (h "long").1.2 ⟨hn, .inl ⟨_, hr⟩, _, hf⟩
  · obtain ⟨hn, hd, hf⟩ : Unmatched s "foo" ∧ ¬ Founds "foo" ∧
        s'.family? (lowercase (collapse "foo")) = some ⟨["foo"], 1, true⟩ := by decide +kernel
    exact (h "foo").1.2 ⟨hn, .inr hd, _, hf⟩
  · obtain ⟨hn, hr, hd⟩ : Unmatched s "Widget..." ∧ s.remap? "Widget..." = none ∧
        Founds "Widget..." := by decide +kernel
    rw [((h "Widget...").2 _ (.derived hn hr hd)).2]
    decide +kernel

end LocalNames.Scope
