import LocalNames.Proofs.Collapse
import Mathlib.Logic.Function.Iterate

namespace LocalNames.TypeName

/-- The second text is the first one with a single array marker in place of each maximal run of
them. -/
inductive RunsJoined : Text → Text → Prop
  | nil : RunsJoined [] []
  | char (c : Char) {ty u : Text} (hc : ¬ markers 1 <+: c :: ty) (h : RunsJoined ty u) :
      RunsJoined (c :: ty) (c :: u)
  | run (n : Nat) {ty u : Text} (hn : ¬ markers 1 <+: ty) (h : RunsJoined ty u) :
      RunsJoined (markers (n + 1) ++ ty) (markers 1 ++ u)

variable {c : Char} {ty u : Text}

theorem head?_joinFront (c : Char) (ty : Text) : (joinFront c ty).head? = some c := by
  unfold joinFront
  split
  · rfl
  · rfl

theorem head?_squeeze (ty : Text) : (squeeze ty).head? = ty.head? := by
  cases ty with
  | nil => rfl
  | cons c ty => rw [squeeze_cons, head?_joinFront, List.head?_cons]

theorem marker_prefix_cons_iff : markers 1 <+: c :: ty ↔ c = '[' ∧ ty.head? = some ']' := by
  cases ty <;> simp [markers, eq_comm]

theorem squeeze_cons_of_no_marker (h : ¬ markers 1 <+: c :: ty) :
    squeeze (c :: ty) = c :: squeeze ty := by
  rw [squeeze_cons]
  apply joinFront.eq_2
  intro rest hc hs
  -- squeezing keeps the first character, so a marker that it brings about was there before
  rw [marker_prefix_cons_iff, ← head?_squeeze, hs] at h
  exact h ⟨hc, rfl⟩

theorem not_prefix_squeeze (h : ¬ markers 1 <+: ty) : ¬ markers 1 <+: squeeze ty := by
  cases ty with
  | nil => exact h
  | cons c ty =>
    rw [squeeze_cons_of_no_marker h, marker_prefix_cons_iff, head?_squeeze]
    rwa [marker_prefix_cons_iff] at h

theorem squeeze_markers_append (h : ¬ markers 1 <+: ty) (n : Nat) :
    squeeze (markers (n + 1) ++ ty) = markers 1 ++ squeeze ty := by
  induction n with
  | zero =>
    have hs := not_prefix_squeeze h
    change joinFront '[' (joinFront ']' (squeeze ty)) = '[' :: ']' :: squeeze ty
    rw [joinFront_close]
    apply joinFront.eq_2
    intro rest _ he
    rw [(List.cons.inj he).2] at hs
    exact hs (List.prefix_append (markers 1) rest)
  | succ n ih =>
    rw [markers, List.cons_append, List.cons_append, squeeze_cons, squeeze_cons, ih]
    rfl

theorem RunsJoined.exists_marker (h : RunsJoined ty u) : ∃ v, RunsJoined (markers 1 ++ ty) v := by
  by_cases hm : markers 1 <+: ty
  · cases h with
    | nil => exact absurd hm (by decide)
    | char c hc h => exact absurd hm hc
    | run n hn h => exact ⟨_, .run (n + 1) hn h⟩
  · exact ⟨_, .run 0 hm h⟩

theorem exists_runsJoined (ty : Text) : ∃ u, RunsJoined ty u := by
  fun_induction dropArrays ty with
  | case1 rest ih =>
    obtain ⟨u, h⟩ := ih
    exact h.exists_marker
  | case2 c rest hne ih =>
    obtain ⟨u, h⟩ := ih
    refine ⟨c :: u, .char c ?_ h⟩
    rintro ⟨tail, ht⟩
    obtain ⟨rfl, hr⟩ := List.cons.inj ht
    exact hne tail rfl hr.symm
  | case3 => exact ⟨[], .nil⟩

theorem RunsJoined.eq_squeeze (h : RunsJoined ty u) : u = squeeze ty := by
  induction h with
  | nil => rfl
  | char c hc _ ih => rw [squeeze_cons_of_no_marker hc, ih]
  | run n hn _ ih => rw [squeeze_markers_append hn, ih]

theorem runsJoined_iff : RunsJoined ty u ↔ u = squeeze ty := by
  constructor
  · exact RunsJoined.eq_squeeze
  · rintro rfl
    obtain ⟨u, h⟩ := exists_runsJoined ty
    rwa [← h.eq_squeeze]

/-- The loop ends since every round shortens the text. -/
theorem exists_rounds (ty : Text) : ∃ rounds, collapse ty = joinArrays^[rounds] ty ∧
    ∀ i < rounds, hasNestedArray (joinArrays^[i] ty) ∧
      (joinArrays^[i + 1] ty).length < (joinArrays^[i] ty).length := by
  fun_induction collapse ty with
  | case1 ty h ih =>
    obtain ⟨rounds, hr, hi⟩ := ih
    refine ⟨rounds + 1, hr, fun i hl ↦ ?_⟩
    cases i with
    | zero => exact ⟨h, length_joinArrays_lt h⟩
    | succ i => exact hi i (by omega)
  | case2 ty h => exact ⟨0, rfl, fun i hl ↦ by omega⟩

/-- The loop comes to an end, and what it comes to is the text with its runs of markers joined. -/
theorem collapse_joins_runs (ty : Text) :
    (∃ rounds, collapse ty = joinArrays^[rounds] ty ∧
      ∀ i < rounds, markers 2 <:+: joinArrays^[i] ty ∧
        (joinArrays^[i + 1] ty).length < (joinArrays^[i] ty).length) ∧
    (∀ u, RunsJoined ty u ↔ u = collapse ty) ∧
    collapse ty = squeeze ty ∧
    ¬ markers 2 <:+: collapse ty ∧
    collapse (collapse ty) = collapse ty ∧
    ('[' ∈ collapse ty ↔ '[' ∈ ty) ∧
    (['.', '.', '.'] <:+: collapse ty ↔ ['.', '.', '.'] <:+: ty) := by
  have hs : collapse ty = squeeze ty := collapse_eq_squeeze ty
  have hn : hasNestedArray (collapse ty) = false := hasNestedArray_collapse ty
  refine ⟨?_, fun u ↦ ?_, hs, ?_, collapse_of_not_hasNestedArray hn, mem_collapse_iff,
    infix_collapse_iff (by simp) ty⟩
  · obtain ⟨rounds, hr, hi⟩ := exists_rounds ty
    exact ⟨rounds, hr, fun i hl ↦ ⟨hasNestedArray_iff.1 (hi i hl).1, (hi i hl).2⟩⟩
  · rw [hs, runsJoined_iff]
  · intro hm
    rw [hasNestedArray_iff.2 hm] at hn
    cases hn

theorem collapse_joins_runs_nested :
    RunsJoined "a[[][]][][][]" "a[[]][]" ∧ collapse "a[[][]][][][]" = ("a[[]][]" : Text) := by
  have hr : RunsJoined "[][][]" "[]" := .run 2 (by decide) .nil
  have hb : RunsJoined "][][][]" "][]" := .char ']' (by decide) hr
  have hn : RunsJoined "[][]][][][]" "[]][]" := .run 1 (by decide) hb
  have ha : RunsJoined "a[[][]][][][]" "a[[]][]" :=
    .char 'a' (by decide) (.char '[' (by decide) hn)
  obtain ⟨-, hu, -⟩ := collapse_joins_runs "a[[][]][][][]"
  exact ⟨ha, ((hu _).1 ha).symm⟩

end LocalNames.TypeName
