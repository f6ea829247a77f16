import LocalNames.Proofs.TypeName

namespace LocalNames.TypeName

def joinFront : Char → Text → Text
  | '[', ']' :: '[' :: ']' :: rest => '[' :: ']' :: rest
  | c, rest => c :: rest

/-- One pass over a text, from its end, that leaves one array marker of each run of them. -/
def squeeze (ty : Text) : Text := ty.foldr joinFront []

theorem squeeze_cons (c : Char) (ty : Text) : squeeze (c :: ty) = joinFront c (squeeze ty) := rfl

theorem squeeze_append_congr {ty u u' : Text} (h : squeeze u = squeeze u') :
    squeeze (ty ++ u) = squeeze (ty ++ u') := by
  simp only [squeeze, List.foldr_append] at h ⊢
  rw [h]

theorem joinFront_close (ty : Text) : joinFront ']' ty = ']' :: ty := rfl

theorem exists_joinFront_open (ty : Text) :
    ∃ rest, joinFront '[' (']' :: ty) = '[' :: ']' :: rest := by
  unfold joinFront
  split
  · exact ⟨_, rfl⟩
  · exact ⟨_, rfl⟩

theorem squeeze_joinArrays (ty : Text) : squeeze (joinArrays ty) = squeeze ty := by
  fun_induction joinArrays ty with
  | case1 rest ih =>
    obtain ⟨rest', h⟩ := exists_joinFront_open (squeeze rest)
    simp only [squeeze_cons, joinFront_close, ih, h]
    rfl
  | case2 c rest hne ih => rw [squeeze_cons, ih, squeeze_cons]
  | case3 => rfl

theorem squeeze_of_not_hasNestedArray {ty : Text} (h : hasNestedArray ty = false) :
    squeeze ty = ty := by
  fun_induction hasNestedArray ty with
  | case1 => cases h
  | case2 c rest hne ih =>
    rw [squeeze_cons, ih h]
    unfold joinFront
    split
    · exact absurd rfl (hne _ rfl)
    · rfl
  | case3 => rfl

/-- However often the loop goes round, one pass comes to the same. -/
theorem collapse_eq_squeeze (ty : Text) : collapse ty = squeeze ty := by
  fun_induction collapse ty with
  | case1 ty h ih => rw [ih, squeeze_joinArrays]
  | case2 ty h => rw [squeeze_of_not_hasNestedArray (Bool.eq_false_iff.2 h)]

theorem collapse_append_congr {ty u u' : Text} (h : collapse u = collapse u') :
    collapse (ty ++ u) = collapse (ty ++ u') := by
  simp only [collapse_eq_squeeze] at h ⊢
  exact squeeze_append_congr h

def markers : Nat → Text
  | 0 => []
  | n + 1 => '[' :: ']' :: markers n

theorem collapse_markers (n : Nat) : collapse (markers (n + 1)) = markers 1 := by
  rw [collapse_eq_squeeze]
  induction n with
  | zero => rfl
  | succ n ih => rw [markers, squeeze_cons, squeeze_cons, ih]; rfl

theorem collapse_append_markers (ty : Text) (n : Nat) :
    collapse (ty ++ markers (n + 1)) = collapse (ty ++ markers 1) :=
  collapse_append_congr ((collapse_markers n).trans (collapse_markers 0).symm)

theorem ellipsisToArray_markers_append (n : Nat) (u : Text) :
    ellipsisToArray (markers n ++ u) = markers n ++ ellipsisToArray u := by
  induction n with
  | zero => rfl
  | succ n ih =>
    simp only [markers, List.cons_append]
    rw [ellipsisToArray_cons_of_ne (by decide), ellipsisToArray_cons_of_ne (by decide), ih]

theorem ellipsisToArray_markers (n : Nat) : ellipsisToArray (markers n) = markers n := by
  simpa only [List.append_nil, ellipsisToArray] using ellipsisToArray_markers_append n []

theorem markers_append_one (n : Nat) : markers n ++ markers 1 = markers (n + 1) := by
  induction n with
  | zero => rfl
  | succ n ih => exact congrArg (fun t ↦ '[' :: ']' :: t) ih

/-- The ways to write an array of a type: with a marker for each dimension, or as a variable number
of arguments, be they arrays themselves or not. -/
inductive ArraySpelling (ty : Text) : Text → Prop
  | dimensions (n : Nat) : ArraySpelling ty (ty ++ markers (n + 1))
  | arguments (n : Nat) : ArraySpelling ty (ty ++ (markers n ++ ['.', '.', '.']))

variable {ty spelling : Text}

theorem ArraySpelling.isArray (h : ArraySpelling ty spelling) : isArray spelling := by
  rw [TypeName.isArray, Bool.or_eq_true, List.contains_iff_mem, hasEllipsis_iff]
  cases h with
  | dimensions n => exact .inl (List.mem_append_right ty List.mem_cons_self)
  | arguments n =>
    right
    rw [← List.append_assoc]
    exact (List.suffix_append _ _).isInfix

theorem ArraySpelling.key_eq (h : ArraySpelling ty spelling) (hd : ¬ ['.'] <:+ ty) :
    key spelling = key (ty ++ markers 1) := by
  -- in either way a text of markers follows on the type
  have hm : ∃ n, ellipsisToArray spelling = ellipsisToArray ty ++ markers (n + 1) := by
    cases h with
    | dimensions n =>
      exact ⟨n, by rw [ellipsisToArray_append hd, ellipsisToArray_markers]⟩
    | arguments n =>
      have he := ellipsisToArray_markers_append n ['.', '.', '.']
      exact ⟨n, by rw [ellipsisToArray_append hd, he, ← markers_append_one]; rfl⟩
  obtain ⟨n, hm⟩ := hm
  rw [key, hm, collapse_append_markers, key, ellipsisToArray_append hd, ellipsisToArray_markers]

end LocalNames.TypeName
