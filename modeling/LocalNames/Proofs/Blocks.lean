import LocalNames.Proofs.Batch

namespace LocalNames

namespace Batch

variable {batch first second : Batch}

/-- The blocks hold the entries of a batch, each the stretch of them that follows on the last. -/
def CutInto (batch : Batch) (blocks : List Batch) : Prop :=
  blocks.flatMap sorted = batch.sorted

theorem mem_keys_of_mem_sorted {e : Variable × Text} (h : e ∈ batch.sorted) : e.1 ∈ batch.keys :=
  List.mem_map_of_mem (batch.sorted_perm.mem_iff.1 h)

theorem ordered_append_sorted (hb : ∀ v ∈ first.keys, ∀ w ∈ second.keys, v.Before w) :
    Ordered (first.sorted ++ second.sorted) := by
  apply List.pairwise_append.2
  refine ⟨first.ordered_sorted, second.ordered_sorted, fun e he f hf ↦ ?_⟩
  exact hb _ (mem_keys_of_mem_sorted he) _ (mem_keys_of_mem_sorted hf)

theorem cutInto_pair (hb : ∀ v ∈ first.keys, ∀ w ∈ second.keys, v.Before w)
    (hu : batch.entries.Perm (first.entries ++ second.entries)) :
    batch.CutInto [first, second] := by
  have hp : (first.sorted ++ second.sorted).Perm batch.sorted := by
    apply (first.sorted_perm.append second.sorted_perm).trans
    exact hu.symm.trans batch.sorted_perm.symm
  simpa only [CutInto, List.flatMap_cons, List.flatMap_nil, List.append_nil] using
    (ordered_append_sorted hb).eq_of_perm batch.ordered_sorted hp

end Batch

namespace Scope

def renameAll (s : Scope) : List Batch → Naming
  | [] => ⟨[], s, []⟩
  | batch :: batches =>
    let first := s.rename batch
    let others := first.scope.renameAll batches
    ⟨first.names ++ others.names, others.scope, first.log ++ others.log⟩

theorem nameAll_append (s : Scope) (l l' : List (Variable × Text)) :
    (s.nameAll (l ++ l')).names = (s.nameAll l).names ++ ((s.nameAll l).scope.nameAll l').names ∧
      (s.nameAll (l ++ l')).scope = ((s.nameAll l).scope.nameAll l').scope := by
  induction l generalizing s with
  | nil => exact ⟨rfl, rfl⟩
  | cons e l ih =>
    by_cases h : e.2 = TypeName.receiver
    · simp only [List.cons_append, nameAll, if_pos h]
      exact ih s
    · simp only [List.cons_append, nameAll, if_neg h]
      obtain ⟨hn, hs⟩ := ih (s.draw (TypeName.simple e.2)).scope
      exact ⟨congrArg (_ :: ·) hn, hs⟩

theorem renameAll_eq_nameAll (s : Scope) (blocks : List Batch) :
    (s.renameAll blocks).names = (s.nameAll (blocks.flatMap Batch.sorted)).names ∧
      (s.renameAll blocks).scope = (s.nameAll (blocks.flatMap Batch.sorted)).scope := by
  induction blocks generalizing s with
  | nil => exact ⟨rfl, rfl⟩
  | cons block blocks ih =>
    obtain ⟨hn, hs⟩ := ih (s.rename block).scope
    obtain ⟨hn', hs'⟩ := nameAll_append s block.sorted (blocks.flatMap Batch.sorted)
    rw [List.flatMap_cons, hn', hs', renameAll, hn, hs]
    exact ⟨rfl, rfl⟩

/-- It makes no difference over how many calls a batch is spread, as long as their variables are in
order. -/
theorem rename_in_blocks (s : Scope) :
    (∀ batch first second : Batch, (∀ v ∈ first.keys, ∀ w ∈ second.keys, v.Before w) →
      batch.entries.Perm (first.entries ++ second.entries) →
      let naming := s.rename first
      let naming' := naming.scope.rename second
      (s.rename batch).names = naming.names ++ naming'.names ∧
        (s.rename batch).scope = naming'.scope) ∧
    ∀ (batch : Batch) (blocks : List Batch), batch.CutInto blocks →
      (s.rename batch).names = (s.renameAll blocks).names ∧
        (s.rename batch).scope = (s.renameAll blocks).scope := by
  have hc (batch : Batch) (blocks : List Batch) (h : batch.CutInto blocks) :
      (s.rename batch).names = (s.renameAll blocks).names ∧
        (s.rename batch).scope = (s.renameAll blocks).scope := by
    obtain ⟨hn, hs⟩ := renameAll_eq_nameAll s blocks
    rw [hn, hs, h]
    exact ⟨rfl, rfl⟩
  refine ⟨fun batch first second hb hu ↦ ?_, hc⟩
  obtain ⟨hn, hs⟩ := hc batch [first, second] (Batch.cutInto_pair hb hu)
  simp only [renameAll, List.append_nil] at hn hs
  exact ⟨hn, hs⟩

theorem rename_in_blocks_widget :
    let s := new ⟨"Demo", "run", "()V"⟩
    let batch : Batch := .ofList [(⟨2, 0⟩, "foo"), (⟨1, 1⟩, "WIDGET[]"), (⟨0, 0⟩, "this"),
      (⟨1, 0⟩, "demo.Widget[][]")]
    let first : Batch := .ofList [(⟨1, 0⟩, "demo.Widget[][]"), (⟨0, 0⟩, "this")]
    let second : Batch := .ofList [(⟨1, 1⟩, "WIDGET[]"), (⟨2, 0⟩, "foo")]
    batch.CutInto [first, second] ∧
      (s.rename batch).names = (s.renameAll [first, second]).names ∧
      (s.rename batch).names = (s.rename first).names ++
        [((⟨1, 1⟩ : Variable), ("awidget1" : Text)), (⟨2, 0⟩, "foo")] := by
  intro s batch first second
  have hb : ∀ v ∈ first.keys, ∀ w ∈ second.keys, v.Before w := by
    unfold Variable.Before
    decide
  have hu : batch.entries.Perm (first.entries ++ second.entries) := by decide
  have hc : batch.CutInto [first, second] := Batch.cutInto_pair hb hu
  obtain ⟨hp, hn⟩ := rename_in_blocks s
  refine ⟨hc, (hn batch [first, second] hc).1, ?_⟩
  rw [(hp batch first second hb hu).1]
  congr 1
  have hf : first.entries.reverse = first.sorted := Batch.eq_sorted (by decide) (by decide)
  have hs : second.entries = second.sorted := Batch.eq_sorted (by decide) (by decide)
  simp only [rename_eq, ← hf, ← hs]
  decide +kernel

end Scope

end LocalNames
