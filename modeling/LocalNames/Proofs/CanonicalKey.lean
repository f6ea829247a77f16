import LocalNames.Proofs.TypeName

namespace LocalNames.TypeName

/-- The form of the keys that types derive: taking the key of one again changes nothing. -/
structure Canonical (text : Text) : Prop where
  no_nested : ¬ ['[', ']', '[', ']'] <:+: text
  no_ellipsis : ¬ ['.', '.', '.'] <:+: text
  lowered : lowercase text = text
  own : key text = text

theorem canonical_key (ty : Text) : Canonical (key ty) where
  no_nested := hasNestedArray_eq_false_iff.1 (hasNestedArray_key ty)
  no_ellipsis := hasEllipsis_eq_false_iff.1 (hasEllipsis_key ty)
  lowered := lowercase_key ty
  own := key_key ty

theorem exists_key_eq_iff {text : Text} : (∃ ty, key ty = text) ↔
    ¬ ['[', ']', '[', ']'] <:+: text ∧ ¬ ['.', '.', '.'] <:+: text ∧ lowercase text = text := by
  constructor
  · rintro ⟨ty, rfl⟩
    have h := canonical_key ty
    exact ⟨h.no_nested, h.no_ellipsis, h.lowered⟩
  · rintro ⟨hn, he, hl⟩
    refine ⟨text, ?_⟩
    rw [key_of_not_hasEllipsis (hasEllipsis_eq_false_iff.2 he),
      collapse_of_not_hasNestedArray (hasNestedArray_eq_false_iff.2 hn), hl]

/-- However a type is spelt, its key is a text that is its own key, and the base goes with it:
spellings that share the one share the other. -/
theorem keys_are_canonical (ty : Text) :
    key (key ty) = key ty ∧ base (key ty) = base ty ∧
    (∀ spelling, key spelling = key ty → base spelling = base ty) ∧
    ¬ ['.', '.', '.'] <:+: key ty ∧ ¬ ['[', ']', '[', ']'] <:+: key ty ∧ '.' ∉ base ty ∧
    (¬ ['.', '.', '.'] <:+: ty → key ty = lowercase (collapse ty)) ∧
    ∀ text, (∃ spelling, key spelling = text) ↔
      ¬ ['[', ']', '[', ']'] <:+: text ∧ ¬ ['.', '.', '.'] <:+: text ∧ lowercase text = text := by
  have hc : Canonical (key ty) := canonical_key ty
  refine ⟨hc.own, base_key ty, fun spelling h ↦ ?_, hc.no_ellipsis, hc.no_nested,
    dot_not_mem_base ty, fun h ↦ key_of_not_hasEllipsis (hasEllipsis_eq_false_iff.2 h),
    fun text ↦ exists_key_eq_iff⟩
  calc
    base spelling = base (key spelling) := (base_key spelling).symm
    _ = base (key ty) := by rw [h]
    _ = base ty := base_key ty

theorem keys_are_canonical_sigma :
    ¬ ['.', '.', '.'] <:+: ("ΟΔΟΣ.Entry[][]" : Text) ∧
      key "ΟΔΟΣ.Entry[][]" = lowercase (collapse "ΟΔΟΣ.Entry[][]") ∧
      key "οδοΣ.ENTRY[]..." = key "ΟΔΟΣ.Entry[][]" ∧
      base "οδοΣ.ENTRY[]..." = base "ΟΔΟΣ.Entry[][]" ∧
      base "ΟΔΟΣ.Entry[][]" = ("aοδοσentry" : Text) := by
  have he : ¬ ['.', '.', '.'] <:+: ("ΟΔΟΣ.Entry[][]" : Text) := by decide
  have hk : key "οδοΣ.ENTRY[]..." = key "ΟΔΟΣ.Entry[][]" := by decide +kernel
  obtain ⟨-, -, hb, -, -, -, hl, -⟩ := keys_are_canonical "ΟΔΟΣ.Entry[][]"
  exact ⟨he, hl he, hk, hb _ hk, by decide +kernel⟩

end LocalNames.TypeName
