import LocalNames.Proofs.Text.Lowercase
import LocalNames.TypeName

namespace LocalNames.TypeName

theorem infix_cons_of_mismatch {c : Char} {w rest : Text} (h : ¬ w <+: c :: rest) :
    w <:+: c :: rest ↔ w <:+: rest := by
  rw [List.infix_cons_iff, or_iff_right h]

theorem infix_cons_of_ne {a c : Char} {w rest : Text} (h : a ≠ c) :
    a :: w <:+: c :: rest ↔ a :: w <:+: rest :=
  infix_cons_of_mismatch fun hp ↦ h (List.cons_prefix_cons.1 hp).1

theorem hasEllipsis_iff {ty : Text} : hasEllipsis ty ↔ ['.', '.', '.'] <:+: ty := by
  fun_induction hasEllipsis ty with
  | case1 rest => exact iff_of_true rfl ⟨[], rest, rfl⟩
  | case2 c rest hne ih =>
    have hp : ¬ ['.', '.', '.'] <+: c :: rest := by
      rintro ⟨t, ht⟩
      obtain ⟨rfl, rfl⟩ := List.cons.inj ht
      exact hne t rfl rfl
    rw [ih, infix_cons_of_mismatch hp]
  | case3 => simp

theorem hasNestedArray_iff {ty : Text} : hasNestedArray ty ↔ ['[', ']', '[', ']'] <:+: ty := by
  fun_induction hasNestedArray ty with
  | case1 rest => exact iff_of_true rfl ⟨[], rest, rfl⟩
  | case2 c rest hne ih =>
    have hp : ¬ ['[', ']', '[', ']'] <+: c :: rest := by
      rintro ⟨t, ht⟩
      obtain ⟨rfl, rfl⟩ := List.cons.inj ht
      exact hne t rfl rfl
    rw [ih, infix_cons_of_mismatch hp]
  | case3 => simp

theorem hasEllipsis_eq_false_iff {ty : Text} :
    hasEllipsis ty = false ↔ ¬ ['.', '.', '.'] <:+: ty := by
  rw [← hasEllipsis_iff, Bool.not_eq_true]

theorem hasNestedArray_eq_false_iff {ty : Text} :
    hasNestedArray ty = false ↔ ¬ ['[', ']', '[', ']'] <:+: ty := by
  rw [← hasNestedArray_iff, Bool.not_eq_true]

theorem prefix_joinArrays_iff {w : Text} (hw : ∀ c ∈ w, c = '.') (ty : Text) :
    w <+: joinArrays ty ↔ w <+: ty := by
  fun_induction joinArrays ty generalizing w with
  | case1 rest ih =>
    cases w with
    | nil => simp
    | cons a w =>
      rw [hw a List.mem_cons_self]
      simp [List.cons_prefix_cons]
  | case2 c rest hne ih =>
    cases w with
    | nil => simp
    | cons a w => rw [List.cons_prefix_cons, List.cons_prefix_cons,
        ih fun d hd ↦ hw d (List.mem_cons_of_mem a hd)]
  | case3 => rfl

/-- Joining arrays does not bring dots together. -/
theorem infix_joinArrays_iff {w : Text} (hw : ∀ c ∈ w, c = '.') (ty : Text) :
    w <:+: joinArrays ty ↔ w <:+: ty := by
  cases w with
  | nil => simp
  | cons a w =>
    obtain ⟨rfl, hw'⟩ := List.forall_mem_cons.1 hw
    fun_induction joinArrays ty with
    | case1 rest ih => simp only [infix_cons_of_ne (show '.' ≠ '[' by decide),
        infix_cons_of_ne (show '.' ≠ ']' by decide), ih]
    | case2 c rest hne ih =>
      have hp := prefix_joinArrays_iff hw (c :: rest)
      rw [joinArrays.eq_2 _ _ hne] at hp
      rw [List.infix_cons_iff, List.infix_cons_iff, ih, hp]
    | case3 => rfl

theorem collapse_of_not_hasNestedArray {ty : Text} (h : hasNestedArray ty = false) :
    collapse ty = ty := by
  rw [collapse, dif_neg (by simp [h])]

theorem hasNestedArray_collapse (ty : Text) : hasNestedArray (collapse ty) = false := by
  fun_induction collapse ty with
  | case1 ty h ih => exact ih
  | case2 ty h => exact Bool.eq_false_iff.2 h

theorem infix_collapse_iff {w : Text} (hw : ∀ c ∈ w, c = '.') (ty : Text) :
    w <:+: collapse ty ↔ w <:+: ty := by
  fun_induction collapse ty with
  | case1 ty h ih => rw [ih, infix_joinArrays_iff hw]
  | case2 => rfl

theorem mem_joinArrays_iff {c : Char} {ty : Text} : c ∈ joinArrays ty ↔ c ∈ ty := by
  fun_induction joinArrays ty with
  | case1 rest ih =>
    simp only [List.mem_cons, ih]
    grind
  | case2 d rest hne ih => rw [List.mem_cons, List.mem_cons, ih]
  | case3 => rfl

theorem mem_collapse_iff {c : Char} {ty : Text} : c ∈ collapse ty ↔ c ∈ ty := by
  fun_induction collapse ty with
  | case1 ty h ih => rw [ih, mem_joinArrays_iff]
  | case2 => rfl

theorem joinArrays_eq_nil_iff {ty : Text} : joinArrays ty = [] ↔ ty = [] := by
  fun_induction joinArrays ty <;> simp

theorem collapse_eq_nil_iff {ty : Text} : collapse ty = [] ↔ ty = [] := by
  fun_induction collapse ty with
  | case1 ty h ih => rw [ih, joinArrays_eq_nil_iff]
  | case2 => rfl

theorem ellipsisToArray_eq_nil_iff {ty : Text} : ellipsisToArray ty = [] ↔ ty = [] := by
  fun_induction ellipsisToArray ty <;> simp

theorem ellipsisToArray_of_not_hasEllipsis {ty : Text} (h : hasEllipsis ty = false) :
    ellipsisToArray ty = ty := by
  fun_induction hasEllipsis ty with
  | case1 => cases h
  | case2 c rest hne ih => rw [ellipsisToArray.eq_2 _ _ hne, ih h]
  | case3 => rfl

theorem ellipsisToArray_cons_of_ne {c : Char} (h : c ≠ '.') (ty : Text) :
    ellipsisToArray (c :: ty) = c :: ellipsisToArray ty :=
  ellipsisToArray.eq_2 c ty fun _ hc _ ↦ h hc

theorem ellipsisToArray_append {ty : Text} (h : ¬ ['.'] <:+ ty) (u : Text) :
    ellipsisToArray (ty ++ u) = ellipsisToArray ty ++ ellipsisToArray u := by
  fun_induction ellipsisToArray ty with
  | case1 rest ih =>
    have hr : ¬ ['.'] <:+ rest := fun hs ↦ h (hs.trans (List.suffix_append ['.', '.', '.'] rest))
    simp only [List.cons_append, ellipsisToArray, ih hr]
  | case2 c rest hne ih =>
    have hr : ¬ ['.'] <:+ rest := fun hs ↦ h (hs.trans (List.suffix_cons c rest))
    have hne' : ∀ r, c = '.' → rest ++ u = '.' :: '.' :: r → False := by
      rintro r rfl hu
      match rest with
      | [] => exact h (List.suffix_refl _)
      | [d] =>
        obtain ⟨rfl, -⟩ := List.cons.inj hu
        exact hr (List.suffix_refl _)
      | d :: e :: rest =>
        obtain ⟨rfl, hu'⟩ := List.cons.inj hu
        obtain ⟨rfl, -⟩ := List.cons.inj hu'
        exact hne rest rfl rfl
    rw [List.cons_append, ellipsisToArray.eq_2 _ _ hne', ih hr, List.cons_append]
  | case3 => rfl

/-- A run of dots at the front is shortened from the left, three at a time. -/
theorem prefix_of_prefix_ellipsisToArray {w ty : Text} (hw : ∀ c ∈ w, c = '.')
    (h : w <+: ellipsisToArray ty) : w <+: ty := by
  fun_induction ellipsisToArray ty generalizing w with
  | case1 rest ih =>
    cases w with
    | nil => simp
    | cons a w =>
      rw [hw a List.mem_cons_self] at h
      exact absurd (List.cons_prefix_cons.1 h).1 (by decide)
  | case2 c rest hne ih =>
    cases w with
    | nil => simp
    | cons a w =>
      obtain ⟨ha, hp⟩ := List.cons_prefix_cons.1 h
      exact List.cons_prefix_cons.2
        ⟨ha, ih (fun d hd ↦ hw d (List.mem_cons_of_mem a hd)) hp⟩
  | case3 => exact h

theorem hasEllipsis_ellipsisToArray (ty : Text) : hasEllipsis (ellipsisToArray ty) = false := by
  rw [hasEllipsis_eq_false_iff]
  fun_induction ellipsisToArray ty with
  | case1 rest ih =>
    rwa [infix_cons_of_ne (by decide), infix_cons_of_ne (by decide)]
  | case2 c rest hne ih =>
    have hp : ¬ ['.', '.', '.'] <+: c :: ellipsisToArray rest := by
      intro h
      rw [← ellipsisToArray.eq_2 _ _ hne] at h
      obtain ⟨t, ht⟩ := prefix_of_prefix_ellipsisToArray (by simp) h
      obtain ⟨rfl, rfl⟩ := List.cons.inj ht
      exact hne t rfl rfl
    rwa [infix_cons_of_mismatch hp]
  | case3 => simp

theorem hasEllipsis_lowercase (ty : Text) : hasEllipsis (lowercase ty) = hasEllipsis ty := by
  rw [Bool.eq_iff_iff, hasEllipsis_iff, hasEllipsis_iff]
  exact infix_lowercase_iff (List.all_eq_true.1 rfl) (by simp)

theorem hasNestedArray_lowercase (ty : Text) :
    hasNestedArray (lowercase ty) = hasNestedArray ty := by
  rw [Bool.eq_iff_iff, hasNestedArray_iff, hasNestedArray_iff]
  exact infix_lowercase_iff (List.all_eq_true.1 rfl) (by simp)

theorem hasEllipsis_collapse (ty : Text) : hasEllipsis (collapse ty) = hasEllipsis ty := by
  rw [Bool.eq_iff_iff, hasEllipsis_iff, hasEllipsis_iff]
  exact infix_collapse_iff (by simp) ty

theorem mem_lowercase_iff {c : Char} (hc : isMark c) (ty : Text) :
    c ∈ lowercase ty ↔ c ∈ ty := by
  rw [← List.singleton_infix_iff, ← List.singleton_infix_iff]
  exact infix_lowercase_iff (by simpa using hc) (by simp)

theorem isArray_collapse (ty : Text) : isArray (collapse ty) = isArray ty := by
  have hc : (collapse ty).contains '[' = ty.contains '[' := by
    rw [Bool.eq_iff_iff, List.contains_iff_mem, List.contains_iff_mem, mem_collapse_iff]
  rw [isArray, isArray, hc, hasEllipsis_collapse]

theorem isArray_lowercase (ty : Text) : isArray (lowercase ty) = isArray ty := by
  have hc : (lowercase ty).contains '[' = ty.contains '[' := by
    rw [Bool.eq_iff_iff, List.contains_iff_mem, List.contains_iff_mem]
    exact mem_lowercase_iff (by decide) ty
  rw [isArray, isArray, hc, hasEllipsis_lowercase]

theorem key_eq_nil_iff {ty : Text} : key ty = [] ↔ ty = [] := by
  rw [key, lowercase_eq_nil_iff, collapse_eq_nil_iff, ellipsisToArray_eq_nil_iff]

theorem lowercase_key (ty : Text) : lowercase (key ty) = key ty := lowercase_lowercase _

theorem hasEllipsis_key (ty : Text) : hasEllipsis (key ty) = false := by
  rw [key, hasEllipsis_lowercase, hasEllipsis_collapse, hasEllipsis_ellipsisToArray]

theorem hasNestedArray_key (ty : Text) : hasNestedArray (key ty) = false := by
  rw [key, hasNestedArray_lowercase, hasNestedArray_collapse]

theorem open_mem_ellipsisToArray_iff {ty : Text} : '[' ∈ ellipsisToArray ty ↔ isArray ty := by
  rw [isArray, Bool.or_eq_true, List.contains_iff_mem]
  fun_induction ellipsisToArray ty with
  | case1 rest ih => simp [hasEllipsis]
  | case2 c rest hne ih => rw [List.mem_cons, ih, hasEllipsis.eq_2 _ _ hne, List.mem_cons, or_assoc]
  | case3 => simp [hasEllipsis]

theorem isArray_key (ty : Text) : isArray (key ty) = isArray ty := by
  rw [key, isArray_lowercase, isArray_collapse, Bool.eq_iff_iff, isArray,
    hasEllipsis_ellipsisToArray, Bool.or_false, List.contains_iff_mem, open_mem_ellipsisToArray_iff]

theorem collapse_key (ty : Text) : collapse (key ty) = key ty :=
  collapse_of_not_hasNestedArray (hasNestedArray_key ty)

theorem ellipsisToArray_key (ty : Text) : ellipsisToArray (key ty) = key ty :=
  ellipsisToArray_of_not_hasEllipsis (hasEllipsis_key ty)

theorem key_key (ty : Text) : key (key ty) = key ty := by
  rw [key, ellipsisToArray_key, collapse_key, lowercase_key]

theorem dropArrays_sublist (ty : Text) : (dropArrays ty).Sublist ty := by
  fun_induction dropArrays ty with
  | case1 rest ih => exact (ih.cons ']').cons '['
  | case2 c rest hne ih => exact ih.cons_cons c
  | case3 => exact .slnil

theorem base_eq (ty : Text) : base ty =
    if isArray ty then dropArrays ('a' :: (key ty).filter (· ≠ '.'))
    else (key ty).filter (· ≠ '.') := by
  have hc : (collapse (ellipsisToArray ty)).contains '[' = isArray ty := by
    rw [Bool.eq_iff_iff, List.contains_iff_mem, mem_collapse_iff, open_mem_ellipsisToArray_iff]
  rw [base, hc]

theorem dot_not_mem_base (ty : Text) : '.' ∉ base ty := by
  have hf : '.' ∉ (key ty).filter (· ≠ '.') := by simp
  rw [base_eq]
  split
  · intro h
    rcases List.mem_cons.1 ((dropArrays_sublist _).subset h) with h | h
    · exact absurd h (by decide)
    · exact hf h
  · exact hf

theorem base_key (ty : Text) : base (key ty) = base ty := by
  rw [base_eq, base_eq, key_key, isArray_key]

theorem key_of_not_hasEllipsis {ty : Text} (h : hasEllipsis ty = false) :
    key ty = lowercase (collapse ty) := by
  rw [key, ellipsisToArray_of_not_hasEllipsis h]

/-- A type that is given a family of its own if it finds none: it begins with a capital letter, or
it is marked as an array or as a variable number of arguments. -/
def Founds (ty : Text) : Prop :=
  (∃ c rest, ty = c :: rest ∧ 'A' ≤ c ∧ c ≤ 'Z') ∨ '[' ∈ ty ∨ ['.', '.', '.'] <:+: ty

theorem isCapitalized_iff {ty : Text} :
    isCapitalized ty ↔ ∃ c rest, ty = c :: rest ∧ 'A' ≤ c ∧ c ≤ 'Z' := by
  cases ty with
  | nil => simp [isCapitalized]
  | cons c rest =>
    have hc : c.isUpper = true ↔ 'A' ≤ c ∧ c ≤ 'Z' := decide_eq_true_iff
    simp [isCapitalized, hc]

theorem founds_iff {ty : Text} : Founds ty ↔ (isCapitalized ty || isArray ty) = true := by
  rw [Bool.or_eq_true, isCapitalized_iff, isArray, Bool.or_eq_true, List.contains_iff_mem,
    hasEllipsis_iff, Founds]

instance (ty : Text) : Decidable (Founds ty) := decidable_of_iff _ founds_iff.symm

theorem ne_nil_of_isCapitalized_or_isArray {ty : Text} (h : isCapitalized ty || isArray ty) :
    ty ≠ [] := by
  rintro rfl
  exact absurd h (by decide)

end LocalNames.TypeName
