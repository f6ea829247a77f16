import LocalNames.Proofs.TypeName
import LocalNames.Scope

namespace LocalNames.Scope

open LocalNames.TypeName

/-- The cases of the search for the source of a name, each with all that it passed over. -/
inductive Resolution (s : Scope) (ty : Text) : Source → Prop
  | exact {f : Family} (hf : s.family? (collapse ty) = some f) :
      Resolution s ty (.family (collapse ty))
  | lowered {f : Family} (hc : s.family? (collapse ty) = none)
      (hf : s.family? (lowercase (collapse ty)) = some f) :
      Resolution s ty (.family (lowercase (collapse ty)))
  | remapped {target : Text} (hc : s.family? (collapse ty) = none)
      (hl : s.family? (lowercase (collapse ty)) = none) (hr : s.remap? ty = some target) :
      Resolution s ty (.family target)
  | derived (hc : s.family? (collapse ty) = none)
      (hl : s.family? (lowercase (collapse ty)) = none) (hr : s.remap? ty = none)
      (hd : isCapitalized ty || isArray ty) : Resolution s ty (.derived (key ty) (base ty))
  | typeName (hc : s.family? (collapse ty) = none)
      (hl : s.family? (lowercase (collapse ty)) = none) (hr : s.remap? ty = none)
      (hd : (isCapitalized ty || isArray ty) = false) : Resolution s ty .typeName

theorem contains_eq_isSome (s : Scope) (key : Text) :
    s.families.contains key = (s.family? key).isSome := rfl

theorem Resolution.eq_source {s : Scope} {ty : Text} {source : Source}
    (h : Resolution s ty source) : s.source ty = source := by
  cases h with
  | exact hf => simp [Scope.source, contains_eq_isSome, hf]
  | lowered hc hf => simp [Scope.source, contains_eq_isSome, hc, hf]
  | remapped hc hl hr => simp [Scope.source, contains_eq_isSome, hc, hl, hr]
  | derived hc hl hr hd => simp only [Scope.source, contains_eq_isSome, hc, hl, hr, hd,
      Option.isSome_none, Bool.false_eq_true, if_false, if_true]
  | typeName hc hl hr hd => simp only [Scope.source, contains_eq_isSome, hc, hl, hr, hd,
      Option.isSome_none, Bool.false_eq_true, if_false]

theorem resolution_source (s : Scope) (ty : Text) : Resolution s ty (s.source ty) := by
  have h : ∃ source, Resolution s ty source := by
    cases hc : s.family? (collapse ty) with
    | some f => exact ⟨_, .exact hc⟩
    | none =>
      cases hl : s.family? (lowercase (collapse ty)) with
      | some f => exact ⟨_, .lowered hc hl⟩
      | none =>
        cases hr : s.remap? ty with
        | some target => exact ⟨_, .remapped hc hl hr⟩
        | none =>
          cases hd : isCapitalized ty || isArray ty with
          | true => exact ⟨_, .derived hc hl hr hd⟩
          | false => exact ⟨_, .typeName hc hl hr hd⟩
  obtain ⟨source, h⟩ := h
  rwa [h.eq_source]

/-- The key of the family that the next name for a type is drawn from. -/
def drawnKey? (s : Scope) (ty : Text) : Option Text :=
  match s.source ty with
  | .family key => (s.family? key).map fun _ ↦ key
  | .derived key _ => some key
  | .typeName => none

/-- Where the numbering of a key stands: the family registered for it, else the one it would be
given. -/
def numbering (s : Scope) (key : Text) : Family := (s.family? key).getD (.ofBase (base key))

def put (s : Scope) (key : Text) (f : Family) : Scope :=
  { s with families := s.families.insert key f }

@[simp] theorem family?_put (s : Scope) (key key' : Text) (f : Family) :
    (s.put key f).family? key' = if key = key' then some f else s.family? key' :=
  s.families.get?_insert key key' f

theorem numbering_of_family? {s : Scope} {key : Text} {f : Family} (h : s.family? key = some f) :
    s.numbering key = f := by
  rw [numbering, h, Option.getD_some]

theorem numbering_of_family?_eq_none {s : Scope} {key : Text} (h : s.family? key = none) :
    s.numbering key = .ofBase (base key) := by
  rw [numbering, h, Option.getD_none]

theorem numbering_key_of_family?_eq_none {s : Scope} {ty : Text} (h : s.family? (key ty) = none) :
    s.numbering (key ty) = .ofBase (base ty) := by
  rw [numbering_of_family?_eq_none h, base_key]

theorem drawnKey?_eq_some_iff {s : Scope} {ty key : Text} :
    s.drawnKey? ty = some key ↔
      (s.source ty = .family key ∧ ∃ f, s.family? key = some f) ∨
      (s.source ty = .derived key (base ty) ∧ key = TypeName.key ty ∧
        (isCapitalized ty || isArray ty)) := by
  have h := resolution_source s ty
  unfold drawnKey?
  cases hs : s.source ty with
  | family key' =>
    simp only [Option.map_eq_some_iff, Source.family.injEq, reduceCtorEq, false_and, or_false]
    constructor
    · rintro ⟨f, hf, rfl⟩
      exact ⟨rfl, f, hf⟩
    · rintro ⟨rfl, f, hf⟩
      exact ⟨f, hf, rfl⟩
  | derived key' base' =>
    rw [hs] at h
    cases h with
    | derived _ _ _ hd =>
      simp only [Option.some.injEq, reduceCtorEq, false_and, Source.derived.injEq, and_true, hd,
        false_or]
      exact ⟨fun h ↦ ⟨h, h.symm⟩, fun h ↦ h.1⟩
  | typeName => simp

theorem key?_source_of_drawnKey? {s : Scope} {ty key : Text} (h : s.drawnKey? ty = some key) :
    (s.source ty).key? = some key := by
  rcases drawnKey?_eq_some_iff.1 h with ⟨hs, -⟩ | ⟨hs, -⟩
  · rw [hs, Source.key?]
  · rw [hs, Source.key?]

/-- A draw takes the next name of one family and moves on its numbering, and does nothing else. -/
theorem draw_of_drawnKey? {s : Scope} {ty key : Text} (h : s.drawnKey? ty = some key) :
    (s.draw ty).name = (s.numbering key).name ∧
      (s.draw ty).scope = s.put key (s.numbering key).advance := by
  rcases drawnKey?_eq_some_iff.1 h with ⟨hs, f, hf⟩ | ⟨hs, rfl, -⟩
  · simp only [draw, hs, hf, numbering_of_family? hf]
    exact ⟨rfl, rfl⟩
  · cases hf : s.family? (TypeName.key ty) with
    | some f =>
      simp only [draw, hs, hf, numbering_of_family? hf]
      exact ⟨rfl, rfl⟩
    | none =>
      simp only [draw, hs, hf, numbering_key_of_family?_eq_none hf]
      exact ⟨rfl, rfl⟩

theorem draw_of_drawnKey?_eq_none {s : Scope} {ty : Text} (h : s.drawnKey? ty = none) :
    s.draw ty = s.keep ty := by
  unfold drawnKey? at h
  cases hs : s.source ty with
  | family key =>
    simp only [hs, Option.map_eq_none_iff] at h
    simp only [draw, hs, h]
  | derived key base =>
    rw [hs] at h
    cases h
  | typeName => simp only [draw, hs]

theorem family?_draw (s : Scope) (ty key : Text) : (s.draw ty).scope.family? key =
    if s.drawnKey? ty = some key then some (s.numbering key).advance else s.family? key := by
  cases hd : s.drawnKey? ty with
  | none =>
    rw [draw_of_drawnKey?_eq_none hd, if_neg (by simp)]
    rfl
  | some drawn =>
    rw [(draw_of_drawnKey? hd).2, family?_put]
    by_cases h : drawn = key
    · rw [if_pos h, if_pos (by rw [h]), h]
    · rw [if_neg h, if_neg (by simpa using h)]

theorem numbering_draw (s : Scope) (ty key : Text) :
    (s.draw ty).scope.numbering key =
      if s.drawnKey? ty = some key then (s.numbering key).advance else s.numbering key := by
  rw [numbering, family?_draw]
  split <;> rfl

theorem remaps_draw (s : Scope) (ty : Text) : (s.draw ty).scope.remaps = s.remaps := by
  cases hd : s.drawnKey? ty with
  | none =>
    rw [draw_of_drawnKey?_eq_none hd]
    rfl
  | some key =>
    rw [(draw_of_drawnKey? hd).2]
    rfl

theorem remap?_draw (s : Scope) (ty source : Text) :
    (s.draw ty).scope.remap? source = s.remap? source := by
  rw [remap?, remaps_draw, remap?]

theorem exists_family?_draw {s : Scope} {key : Text} {f : Family} (h : s.family? key = some f)
    (ty : Text) : ∃ f', (s.draw ty).scope.family? key = some f' := by
  rw [family?_draw]
  split
  · exact ⟨_, rfl⟩
  · exact ⟨f, h⟩

end LocalNames.Scope
