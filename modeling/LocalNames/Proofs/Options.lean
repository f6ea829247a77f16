import LocalNames.Scope

namespace LocalNames

theorem Seed.defect?_eq_none_iff {s : Seed} :
    s.defect? = none ↔ s.key ≠ [] ∧ s.family.candidates ≠ [] := by
  unfold Seed.defect?
  split
  · rename_i h
    simp [h]
  · rename_i h
    simp [h]

namespace Options

theorem remapDefect?_eq_none_iff {o : Options} {remap : Text × Text} :
    o.remapDefect? remap = none ↔ remap.2 ∈ o.keys := by
  simp [remapDefect?]

theorem defect?_eq_none_iff {o : Options} :
    o.defect? = none ↔
      (∀ seed ∈ o.families, seed.key ≠ [] ∧ seed.family.candidates ≠ []) ∧
        ∀ remap ∈ o.remaps.entries, remap.2 ∈ o.keys := by
  simp only [defect?, Option.or_eq_none_iff, List.findSome?_eq_none_iff, Seed.defect?_eq_none_iff,
    remapDefect?_eq_none_iff]

theorem validate_bind_eq_ok_iff {α : Type} {o : Options} {a b : α} :
    (do o.validate; return a : Except Failure α) = .ok b ↔ o.defect? = none ∧ b = a := by
  cases h : o.defect? with
  | none =>
    have hv : o.validate = .ok () := by rw [validate, h]
    simp only [hv, true_and]
    exact ⟨fun h ↦ (Except.ok.inj h).symm, fun h ↦ congrArg _ h.symm⟩
  | some failure =>
    have hv : o.validate = .error failure := by rw [validate, h]
    simp only [hv, reduceCtorEq, false_and, iff_false]
    exact fun h ↦ by cases h

end Options

theorem Scope.withOptions_eq_ok_iff {method : Method} {o : Options} {s : Scope} :
    Scope.withOptions method o = .ok s ↔ o.defect? = none ∧ s = .seeded method o :=
  Options.validate_bind_eq_ok_iff

theorem Factory.ofOptions_eq_ok_iff {o : Options} {f : Factory} :
    Factory.ofOptions o = .ok f ↔ o.defect? = none ∧ f = ⟨o⟩ :=
  Options.validate_bind_eq_ok_iff

theorem Scope.family?_seeded (method : Method) (o : Options) (key : Text) :
    (Scope.seeded method o).family? key =
      Assoc.find? key (o.families.map fun s ↦ (s.key, s.family)).reverse :=
  Table.get?_ofList key _

theorem Scope.exists_seed_of_family?_seeded {method : Method} {o : Options} {key : Text}
    {f : Family} (h : (Scope.seeded method o).family? key = some f) : ⟨key, f⟩ ∈ o.families := by
  rw [Scope.family?_seeded] at h
  have hm := List.mem_reverse.1 (Assoc.mem_of_find?_eq_some h)
  obtain ⟨seed, hs, he⟩ := List.mem_map.1 hm
  obtain ⟨rfl, rfl⟩ := Prod.mk.inj he
  exact hs

theorem Scope.exists_family?_seeded {method : Method} {o : Options} {key : Text}
    (h : key ∈ o.keys) : ∃ f, (Scope.seeded method o).family? key = some f := by
  rw [← Option.ne_none_iff_exists', ne_eq, Scope.family?_seeded, Assoc.find?_eq_none_iff,
    Classical.not_not]
  obtain ⟨seed, hs, rfl⟩ := List.mem_map.1 h
  simp only [Assoc.keys, List.map_reverse, List.map_map, List.mem_reverse, List.mem_map]
  exact ⟨seed, hs, rfl⟩

end LocalNames
