import LocalNames.Proofs.Batch

namespace LocalNames

variable {l : List (Variable × Text)} {ty : Text}

theorem typesOf_eq_replicate (h : ∀ e ∈ l, e.2 = ty) (ht : ty ≠ TypeName.receiver) :
    typesOf l = List.replicate l.length (TypeName.simple ty) := by
  induction l with
  | nil => rfl
  | cons e l ih =>
    obtain ⟨rfl, hl⟩ := List.forall_mem_cons.1 h
    rw [typesOf_cons_of_ne ht, ih hl, List.length_cons, List.replicate_succ]

theorem typesOf_eq_nil (h : ∀ e ∈ l, e.2 = TypeName.receiver) : typesOf l = [] := by
  induction l with
  | nil => rfl
  | cons e l ih =>
    obtain ⟨he, hl⟩ := List.forall_mem_cons.1 h
    rw [typesOf_cons_of_eq he, ih hl]

namespace Batch

def ofOneType (vs : List Variable) (ty : Text) : Batch := .ofList (vs.map (·, ty))

variable {vs : List Variable}

theorem entries_ofOneType (h : vs.Nodup) : (ofOneType vs ty).entries = vs.map (·, ty) := by
  have hk : Assoc.keys (vs.map (·, ty)) = vs := by
    rw [Assoc.keys, List.map_map]
    exact List.map_id vs
  rw [ofOneType, Table.ofList, Table.entries_insertAll]
  · rfl
  · rwa [hk]
  · intro v _ hv
    cases hv

theorem eq_of_mem_sorted_ofOneType (h : vs.Nodup) : ∀ e ∈ (ofOneType vs ty).sorted, e.2 = ty := by
  intro e he
  have hm := (ofOneType vs ty).sorted_perm.mem_iff.1 he
  rw [entries_ofOneType h] at hm
  obtain ⟨v, -, rfl⟩ := List.mem_map.1 hm
  rfl

theorem length_sorted_ofOneType (h : vs.Nodup) : (ofOneType vs ty).sorted.length = vs.length := by
  rw [(sorted_perm _).length_eq, entries_ofOneType h, List.length_map]

theorem types_ofOneType (h : vs.Nodup) (ht : ty ≠ TypeName.receiver) :
    (ofOneType vs ty).types = List.replicate vs.length (TypeName.simple ty) := by
  have hr := typesOf_eq_replicate (eq_of_mem_sorted_ofOneType h) ht
  rwa [length_sorted_ofOneType h] at hr

theorem types_ofOneType_receiver (h : vs.Nodup) : (ofOneType vs TypeName.receiver).types = [] :=
  typesOf_eq_nil (eq_of_mem_sorted_ofOneType h)

end Batch

namespace Scope

variable (s : Scope)

theorem rename_eq_drawAll (batch : Batch) :
    (s.rename batch).names.map Prod.snd = (s.drawAll batch.types).names ∧
      (s.rename batch).scope = (s.drawAll batch.types).scope :=
  nameAll_eq_drawAll s batch.sorted

/-- Batches of one variable each, one after the other, come to draws one after the other. -/
theorem nameEach_eq_drawAll {ty : Text} {tys : List Text}
    (h : (Batch.ofOneType [⟨1, 0⟩] ty).types = tys) (n : Nat) :
    (s.nameEach ty n).1 = (s.drawAll (List.replicate n tys).flatten).names ∧
      (s.nameEach ty n).2.1 = (s.drawAll (List.replicate n tys).flatten).scope := by
  induction n generalizing s with
  | zero => exact ⟨rfl, rfl⟩
  | succ n ih =>
    obtain ⟨hn, hs⟩ := s.rename_eq_drawAll (.ofOneType [⟨1, 0⟩] ty)
    obtain ⟨hn', hs'⟩ := ih (s.rename (.ofOneType [⟨1, 0⟩] ty)).scope
    rw [List.replicate_succ, List.flatten_cons, drawAll_append_names, drawAll_append_scope,
      ← h, ← hn, ← hs, h, ← hn', ← hs']
    exact ⟨rfl, rfl⟩

/-- Variables of one type get the same names, and leave the same scope behind, whether they are
named one by one or in one batch, or names are drawn for them. -/
theorem same_names_by_every_route (ty : Text) (n : Nat) :
    (ty ≠ TypeName.receiver →
      let draws := s.drawAll (List.replicate n (TypeName.simple ty))
      (s.nameEach ty n).1.length = n ∧ (s.nameEach ty n).1 = draws.names ∧
        (s.nameEach ty n).2.1 = draws.scope ∧
        ∀ vs : List Variable, vs.Nodup → vs.length = n →
          (s.rename (.ofOneType vs ty)).names.map Prod.snd = draws.names ∧
            (s.rename (.ofOneType vs ty)).scope = draws.scope) ∧
    (ty = TypeName.receiver → (s.nameEach ty n).1 = [] ∧ (s.nameEach ty n).2.1 = s) := by
  have hv : [(⟨1, 0⟩ : Variable)].Nodup := List.nodup_singleton _
  constructor
  · intro ht draws
    obtain ⟨hn, hs⟩ := s.nameEach_eq_drawAll (Batch.types_ofOneType hv ht) n
    rw [List.length_singleton, List.replicate_one, List.flatten_replicate_singleton] at hn hs
    refine ⟨?_, hn, hs, fun vs hd hl ↦ ?_⟩
    · rw [hn, length_names_drawAll, List.length_replicate]
    · have hb := s.rename_eq_drawAll (.ofOneType vs ty)
      rwa [Batch.types_ofOneType hd ht, hl] at hb
  · rintro rfl
    obtain ⟨hn, hs⟩ := s.nameEach_eq_drawAll (Batch.types_ofOneType_receiver hv) n
    rw [List.flatten_replicate_nil] at hn hs
    exact ⟨hn, hs⟩

theorem same_names_by_every_route_widget :
    let s := new ⟨"Demo", "run", "()V"⟩
    let vs : List Variable := [⟨7, 0⟩, ⟨2, 1⟩, ⟨2, 0⟩]
    (s.nameEach "demo.Widget<T>" 3).1 = (["widget", "widget1", "widget2"] : List Text) ∧
      (s.rename (.ofOneType vs "demo.Widget<T>")).scope = (s.nameEach "demo.Widget<T>" 3).2.1 ∧
      (s.rename (.ofOneType vs "foo")).names.map Prod.snd = (s.nameEach "foo" 3).1 ∧
      (s.nameEach "this" 3).2.1 = s := by
  intro s vs
  obtain ⟨hw, -⟩ := same_names_by_every_route s "demo.Widget<T>" 3
  obtain ⟨-, hn, hs, hb⟩ := hw (by decide)
  obtain ⟨hf, -⟩ := same_names_by_every_route s "foo" 3
  obtain ⟨-, hn', -, hb'⟩ := hf (by decide)
  obtain ⟨-, ht⟩ := same_names_by_every_route s "this" 3
  have hd : vs.Nodup := by decide
  exact ⟨hn.trans (by decide +kernel), (hb vs hd rfl).2.trans hs.symm,
    (hb' vs hd rfl).1.trans hn'.symm, (ht rfl).2⟩

end Scope

end LocalNames
