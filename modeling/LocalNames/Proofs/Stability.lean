import LocalNames.Proofs.Soundness

namespace LocalNames.Scope

open LocalNames.TypeName

/-- The tables of a later scope: no family is lost, families come in under derived keys only, and
the redirections are those of before. -/
structure Grows (s s' : Scope) : Prop where
  kept {key : Text} {f : Family} : s.family? key = some f → ∃ f', s'.family? key = some f'
  derived {key : Text} {f' : Family} : s'.family? key = some f' →
    (∃ f, s.family? key = some f) ∨ ∃ ty, key = TypeName.key ty
  remaps (source : Text) : s'.remap? source = s.remap? source

theorem Grows.refl (s : Scope) : Grows s s :=
  ⟨fun h ↦ ⟨_, h⟩, fun h ↦ .inl ⟨_, h⟩, fun _ ↦ rfl⟩

theorem Grows.trans {s t u : Scope} (h : Grows s t) (h' : Grows t u) : Grows s u := by
  refine ⟨fun hf ↦ ?_, fun hf ↦ ?_, fun source ↦ (h'.remaps source).trans (h.remaps source)⟩
  · obtain ⟨f', hf'⟩ := h.kept hf
    exact h'.kept hf'
  · rcases h'.derived hf with ⟨f', hf'⟩ | hd
    · exact h.derived hf'
    · exact .inr hd

theorem grows_draw (s : Scope) (ty : Text) : Grows s (s.draw ty).scope := by
  refine ⟨fun h ↦ exists_family?_draw h ty, fun {key f'} hf ↦ ?_, remap?_draw s ty⟩
  rw [family?_draw] at hf
  split at hf
  · rename_i hd
    rcases drawnKey?_eq_some_iff.1 hd with ⟨-, hr⟩ | ⟨-, hk, -⟩
    · exact .inl hr
    · exact .inr ⟨ty, hk⟩
  · exact .inl ⟨f', hf⟩

theorem grows_drawAll (s : Scope) (tys : List Text) : Grows s (s.drawAll tys).scope :=
  drawAll_induction (P := Grows s) (fun _ ty h ↦ h.trans (grows_draw _ ty)) (.refl s) tys

theorem grows_performAll (s : Scope) (calls : List Call) : Grows s (s.performAll calls) := by
  rw [performAll_eq_drawAll]
  exact grows_drawAll s _

theorem Grows.lowercase_of_new {s s' : Scope} (h : Grows s s') {key : Text} {f' : Family}
    (hn : s.family? key = none) (hf : s'.family? key = some f') :
    lowercase key = key ∧ hasEllipsis key = false := by
  rcases h.derived hf with ⟨f, hf⟩ | ⟨ty, rfl⟩
  · rw [hn] at hf
    cases hf
  · exact ⟨lowercase_key ty, hasEllipsis_key ty⟩

theorem Resolution.drawnKey? {s : Scope} {ty key : Text} {f : Family}
    (h : Resolution s ty (.family key)) (hf : s.family? key = some f) :
    s.drawnKey? ty = some key :=
  drawnKey?_eq_some_iff.2 (.inl ⟨h.eq_source, f, hf⟩)

theorem Grows.drawnKey?_of_lowercase {s s' : Scope} (h : Grows s s') {ty : Text} {f' : Family}
    (hc : s.family? (collapse ty) = none) (hf : s'.family? (lowercase (collapse ty)) = some f') :
    s'.drawnKey? ty = some (lowercase (collapse ty)) := by
  cases hc' : s'.family? (collapse ty) with
  | none => exact (Resolution.lowered hc' hf).drawnKey? hf
  | some g =>
    rw [(h.lowercase_of_new hc hc').1]
    exact (Resolution.exact hc').drawnKey? hc'

/-- What a type draws from a family that has come in since, it draws under its derived key. -/
theorem Grows.eq_key_of_new {s s' : Scope} (h : Grows s s') (hs : s.Sound) {ty key : Text}
    (hd : s'.drawnKey? ty = some key) (hn : s.family? key = none) : key = TypeName.key ty := by
  have hr := resolution_source s' ty
  rcases drawnKey?_eq_some_iff.1 hd with ⟨he, f, hf⟩ | ⟨-, hk, -⟩
  · rw [he] at hr
    cases hr with
    | exact =>
      obtain ⟨hl, he⟩ := h.lowercase_of_new hn hf
      rw [hasEllipsis_collapse] at he
      rw [key_of_not_hasEllipsis he, hl]
    | lowered =>
      obtain ⟨-, he⟩ := h.lowercase_of_new hn hf
      rw [hasEllipsis_lowercase, hasEllipsis_collapse] at he
      rw [key_of_not_hasEllipsis he]
    | remapped _ _ hr =>
      rw [h.remaps] at hr
      obtain ⟨f, hf⟩ := hs.registered hr
      rw [hn] at hf
      cases hf
  · exact hk

theorem Grows.source_eq {s s' : Scope} (h : Grows s s') {ty : Text}
    (hc : s.family? (collapse ty) = none) (hl : s.family? (lowercase (collapse ty)) = none)
    (hl' : s'.family? (lowercase (collapse ty)) = none) : s'.source ty = s.source ty := by
  have hc' : s'.family? (collapse ty) = none := by
    cases hf : s'.family? (collapse ty) with
    | none => rfl
    | some f =>
      rw [(h.lowercase_of_new hc hf).1, hf] at hl'
      cases hl'
  have hr := resolution_source s ty
  apply Resolution.eq_source
  cases hs : s.source ty with
  | family key =>
    rw [hs] at hr
    cases hr with
    | exact hf =>
      rw [hc] at hf
      cases hf
    | lowered _ hf =>
      rw [hl] at hf
      cases hf
    | remapped _ _ hr => exact .remapped hc' hl' ((h.remaps ty).trans hr)
  | derived key base =>
    rw [hs] at hr
    cases hr with
    | derived _ _ hr hd => exact .derived hc' hl' ((h.remaps ty).trans hr) hd
  | typeName =>
    rw [hs] at hr
    cases hr with
    | typeName _ _ hr hd => exact .typeName hc' hl' ((h.remaps ty).trans hr) hd

/-- A type goes on drawing from the family that it has drawn from, unless it was redirected there
and its own lowercase has come in since. -/
theorem Grows.drawnKey?_cases {s s' : Scope} (h : Grows s s') {ty key : Text}
    (hd : s.drawnKey? ty = some key) :
    s'.drawnKey? ty = some key ∨
      (s.remap? ty = some key ∧ (∃ f, s'.family? (lowercase (collapse ty)) = some f) ∧
        s'.drawnKey? ty = some (lowercase (collapse ty))) := by
  have hr := resolution_source s ty
  rcases drawnKey?_eq_some_iff.1 hd with ⟨hs, f, hf⟩ | ⟨hs, rfl, ha⟩
  · obtain ⟨f', hf'⟩ := h.kept hf
    rw [hs] at hr
    cases hr with
    | exact => exact .inl ((Resolution.exact hf').drawnKey? hf')
    | lowered hc => exact .inl (h.drawnKey?_of_lowercase hc hf')
    | remapped hc hl hr =>
      cases hl' : s'.family? (lowercase (collapse ty)) with
      | some g => exact .inr ⟨hr, ⟨g, rfl⟩, h.drawnKey?_of_lowercase hc hl'⟩
      | none =>
        have he := (h.source_eq hc hl hl').trans hs
        exact .inl (drawnKey?_eq_some_iff.2 (.inl ⟨he, f', hf'⟩))
  · rw [hs] at hr
    cases hr with
    | derived hc hl hr _ =>
      left
      cases hl' : s'.family? (lowercase (collapse ty)) with
      | some g =>
        have he := (h.lowercase_of_new hl hl').2
        rw [hasEllipsis_lowercase, hasEllipsis_collapse] at he
        rw [key_of_not_hasEllipsis he]
        exact h.drawnKey?_of_lowercase hc hl'
      | none =>
        have he := (h.source_eq hc hl hl').trans hs
        exact drawnKey?_eq_some_iff.2 (.inr ⟨he, rfl, ha⟩)

theorem remap?_new_eq_some_iff {method : Method} {source target : Text} :
    (new method).remap? source = some target ↔ source = "long" ∧ target = "int" := by
  have h : (new method).remaps.entries = [(("long" : Text), ("int" : Text))] := rfl
  rw [remap?, Table.get?_eq_some_iff, h, List.mem_singleton, Prod.mk.injEq]

/-- A redirected type is drawn from elsewhere as soon as another spelling has brought its own family
into being. -/
theorem drawnKey?_may_change :
    ¬ ∀ (method : Method) (history later : List Call) (ty key : Text),
      let s := (new method).performAll history
      s.drawnKey? ty = some key →
      ((s.draw ty).scope.performAll later).drawnKey? ty = some key := by
  intro h
  have hl := h ⟨"Demo", "run", "()V"⟩ [] [.draw "LONG"] "long" "int" (by decide +kernel)
  exact absurd hl (by decide +kernel)

theorem drawnKey?_later (method : Method) (history later : List Call) {ty key : Text} :
    let s := (new method).performAll history
    let s' := (s.draw ty).scope.performAll later
    s.drawnKey? ty = some key →
    s'.drawnKey? ty =
      if ty = "long" ∧ (s'.family? "long").isSome then some ty else some key := by
  intro s s' hd
  have hg : Grows s s' := (grows_draw s ty).trans (grows_performAll _ later)
  have hlong : collapse ("long" : Text) = "long" := by decide +kernel
  split
  · rename_i hl
    obtain ⟨rfl, hf⟩ := hl
    obtain ⟨f, hf⟩ := Option.isSome_iff_exists.1 hf
    have hc : s'.family? (collapse "long") = some f := by rw [hlong, hf]
    have hk := (Resolution.exact hc).drawnKey? hc
    rwa [hlong] at hk
  · rename_i hl
    refine (hg.drawnKey?_cases hd).resolve_right fun ⟨hr, ⟨f, hf⟩, _⟩ ↦ ?_
    rw [(grows_performAll (new method) history).remaps, remap?_new_eq_some_iff] at hr
    obtain ⟨rfl, -⟩ := hr
    refine hl ⟨rfl, ?_⟩
    have hlow : lowercase (collapse ("long" : Text)) = "long" := by rw [hlong]; decide +kernel
    rw [hlow] at hf
    exact Option.isSome_iff_exists.2 ⟨f, hf⟩

theorem drawnKey?_later_long :
    let s := (new ⟨"Demo", "run", "()V"⟩).performAll [.draw "Widget[]"]
    ((s.draw "Widget...").scope.performAll [.draw "WIDGET"]).drawnKey? "Widget..." =
        some ("widget[]" : Text) ∧
      ((s.draw "long").scope.performAll [.draw "int"]).drawnKey? "long" = some ("int" : Text) ∧
      ((s.draw "long").scope.performAll [.draw "LONG"]).drawnKey? "long" =
        some ("long" : Text) := by
  intro s
  have h {ty key : Text} (later : List Call) (hk : s.drawnKey? ty = some key) :=
    drawnKey?_later ⟨"Demo", "run", "()V"⟩ [.draw "Widget[]"] later hk
  have hw : s.drawnKey? "Widget..." = some ("widget[]" : Text) := by decide +kernel
  have hl : s.drawnKey? "long" = some ("int" : Text) := by decide +kernel
  refine ⟨?_, ?_, ?_⟩
  · rw [h _ hw, if_neg (by decide +kernel)]
  · rw [h _ hl, if_neg (by decide +kernel)]
  · rw [h _ hl, if_pos (by decide +kernel)]

end LocalNames.Scope
