import LocalNames.Proofs.Call
import Mathlib.Data.List.Perm.Basic
import Mathlib.Data.List.Nodup

namespace LocalNames

namespace Variable

def Before (v w : Variable) : Prop := v.slot < w.slot ∨ v.slot = w.slot ∧ v.version < w.version

variable {u v w : Variable}

theorem before_iff : v.Before w ↔ v.slot.toNat < w.slot.toNat ∨
    v.slot.toNat = w.slot.toNat ∧ v.version.toNat < w.version.toNat := by
  rw [Before, UInt32.lt_iff_toNat_lt, UInt32.lt_iff_toNat_lt, UInt32.toNat_inj]

theorem le_iff : v.le w ↔ v.slot.toNat < w.slot.toNat ∨
    v.slot.toNat = w.slot.toNat ∧ v.version.toNat ≤ w.version.toNat := by
  simp only [le, Bool.or_eq_true, Bool.and_eq_true, decide_eq_true_eq, beq_iff_eq,
    UInt32.lt_iff_toNat_lt, UInt32.le_iff_toNat_le, UInt32.toNat_inj]

theorem eq_iff : v = w ↔ v.slot.toNat = w.slot.toNat ∧ v.version.toNat = w.version.toNat := by
  rw [UInt32.toNat_inj, UInt32.toNat_inj]
  cases v
  cases w
  simp only [mk.injEq]

theorem le_trans (h : u.le v) (h' : v.le w) : u.le w := by
  rw [le_iff] at *
  omega

theorem le_total (v w : Variable) : v.le w || w.le v := by
  rw [Bool.or_eq_true, le_iff, le_iff]
  omega

theorem Before.asymm (h : v.Before w) : ¬ w.Before v := by
  rw [before_iff] at *
  omega

theorem Before.ne (h : v.Before w) : v ≠ w := by
  rintro rfl
  exact h.asymm h

theorem before_of_le_of_ne (h : v.le w) (hne : v ≠ w) : v.Before w := by
  rw [le_iff] at h
  rw [ne_eq, eq_iff] at hne
  rw [before_iff]
  omega

end Variable

open Variable

def Ordered (entries : List (Variable × Text)) : Prop := entries.Pairwise fun e f ↦ e.1.Before f.1

variable {l l' : List (Variable × Text)}

theorem ordered_of_le (hl : l.Pairwise fun e f ↦ e.1.le f.1) (hn : (l.map Prod.fst).Nodup) :
    Ordered l := by
  have hd : l.Pairwise fun e f ↦ e.1 ≠ f.1 := List.pairwise_map.1 hn
  exact (hl.and hd).imp fun h ↦ before_of_le_of_ne h.1 h.2

theorem Ordered.eq_of_perm (h : Ordered l) (h' : Ordered l') (hp : l.Perm l') : l = l' :=
  List.Perm.eq_of_pairwise (fun _ _ _ _ hb hb' ↦ absurd hb' hb.asymm) h h' hp

theorem Ordered.nodup (h : Ordered l) : l.Nodup :=
  h.imp fun hb he ↦ hb.ne (congrArg Prod.fst he)

theorem Ordered.ext (h : Ordered l) (h' : Ordered l') (hm : ∀ e, e ∈ l ↔ e ∈ l') : l = l' :=
  h.eq_of_perm h' ((List.perm_ext_iff_of_nodup h.nodup h'.nodup).2 hm)

namespace Batch

theorem sorted_perm (batch : Batch) : batch.sorted.Perm batch.entries := List.mergeSort_perm _ _

theorem nodup_keys_of_perm {batch : Batch} (hp : l.Perm batch.entries) :
    (l.map Prod.fst).Nodup := (hp.map Prod.fst).nodup_iff.2 batch.distinct

theorem ordered_sorted (batch : Batch) : Ordered batch.sorted := by
  refine ordered_of_le ?_ (nodup_keys_of_perm batch.sorted_perm)
  apply List.pairwise_mergeSort
  · intro e f g hef hfg
    exact le_trans hef hfg
  · intro e f
    exact le_total e.1 f.1

/-- Any sort gives the same order, also one that may exchange entries that it takes for equal. -/
theorem eq_sorted {batch : Batch} (hp : l.Perm batch.entries)
    (hl : l.Pairwise fun e f ↦ e.1.le f.1) : l = batch.sorted :=
  (ordered_of_le hl (nodup_keys_of_perm hp)).eq_of_perm batch.ordered_sorted
    (hp.trans batch.sorted_perm.symm)

theorem sorted_eq_of_perm {batch batch' : Batch} (hp : batch'.entries.Perm batch.entries) :
    batch'.sorted = batch.sorted :=
  batch'.ordered_sorted.eq_of_perm batch.ordered_sorted
    ((batch'.sorted_perm.trans hp).trans batch.sorted_perm.symm)

end Batch

def named (entries : List (Variable × Text)) : List (Variable × Text) :=
  entries.filter (·.2 ≠ TypeName.receiver)

theorem named_cons_of_eq {e : Variable × Text} (h : e.2 = TypeName.receiver) :
    named (e :: l) = named l := List.filter_cons_of_neg (by simpa using h)

theorem named_cons_of_ne {e : Variable × Text} (h : e.2 ≠ TypeName.receiver) :
    named (e :: l) = e :: named l := List.filter_cons_of_pos (by simpa using h)

theorem mem_named {e : Variable × Text} : e ∈ named l ↔ e ∈ l ∧ e.2 ≠ TypeName.receiver := by
  rw [named, List.mem_filter, decide_eq_true_iff]

theorem Ordered.named (h : Ordered l) : Ordered (named l) := h.filter _

theorem Batch.mem_named_sorted_iff {batch : Batch} {v : Variable} {ty : Text} :
    (v, ty) ∈ named batch.sorted ↔ batch.get? v = some ty ∧ ty ≠ TypeName.receiver := by
  rw [mem_named, batch.sorted_perm.mem_iff, Table.get?_eq_some_iff]

/-- Batches that differ in receivers only have the same entries to name, in the same order. -/
theorem Batch.named_sorted_eq {batch batch' : Batch}
    (h : ∀ v ty, ty ≠ TypeName.receiver → (batch'.get? v = some ty ↔ batch.get? v = some ty)) :
    named batch'.sorted = named batch.sorted := by
  refine batch'.ordered_sorted.named.ext batch.ordered_sorted.named fun ⟨v, ty⟩ ↦ ?_
  rw [Batch.mem_named_sorted_iff, Batch.mem_named_sorted_iff]
  exact and_congr_left fun ht ↦ h v ty ht

namespace Scope

theorem rename_eq (s : Scope) (batch : Batch) : s.rename batch =
    { s.nameAll batch.sorted with
      log := .batch s.label batch.size :: (s.nameAll batch.sorted).log } := rfl

theorem nameAll_named (s : Scope) (entries : List (Variable × Text)) :
    s.nameAll (named entries) = s.nameAll entries := by
  induction entries generalizing s with
  | nil => rfl
  | cons e entries ih =>
    by_cases h : e.2 = TypeName.receiver
    · rw [named_cons_of_eq h, ih, nameAll, if_pos h]
    · simp only [named_cons_of_ne h, nameAll, if_neg h, ih]

theorem map_fst_names_nameAll (s : Scope) (entries : List (Variable × Text)) :
    (s.nameAll entries).names.map Prod.fst = (named entries).map Prod.fst := by
  induction entries generalizing s with
  | nil => rfl
  | cons e entries ih =>
    by_cases h : e.2 = TypeName.receiver
    · rw [named_cons_of_eq h, nameAll, if_pos h, ih]
    · simp only [named_cons_of_ne h, nameAll, if_neg h, List.map_cons, ih]

theorem rename_in_any_order (s : Scope) (batch : Batch) :
    (∀ entries : List (Variable × Text), entries.Perm batch.entries →
      (entries.Pairwise fun e f ↦ e.1.le f.1) →
      s.rename batch =
        { s.nameAll entries with
          log := .batch s.label batch.size :: (s.nameAll entries).log }) ∧
    (∀ batch' : Batch, batch'.entries.Perm batch.entries → s.rename batch' = s.rename batch) ∧
    ((s.rename batch).names.Pairwise fun e f ↦ e.1.Before f.1) ∧
    (∀ v, v ∈ (s.rename batch).names.map Prod.fst ↔
      ∃ ty, batch.get? v = some ty ∧ ty ≠ TypeName.receiver) ∧
    ∀ batch' : Batch,
      (∀ v ty, ty ≠ TypeName.receiver → (batch'.get? v = some ty ↔ batch.get? v = some ty)) →
      (s.rename batch').names = (s.rename batch).names ∧
        (s.rename batch').scope = (s.rename batch).scope ∧
        (s.rename batch').log.tail = (s.rename batch).log.tail := by
  have hk : (s.rename batch).names.map Prod.fst = (named batch.sorted).map Prod.fst :=
    map_fst_names_nameAll s batch.sorted
  refine ⟨fun entries hp hl ↦ ?_, fun batch' hp ↦ ?_, ?_, fun v ↦ ?_, fun batch' h ↦ ?_⟩
  · rw [Batch.eq_sorted hp hl]
    rfl
  · have hb : batch'.size = batch.size := hp.length_eq
    rw [rename_eq, rename_eq, Batch.sorted_eq_of_perm hp, hb]
  · rw [← List.pairwise_map, hk, List.pairwise_map]
    exact batch.ordered_sorted.named
  · rw [hk, List.mem_map]
    constructor
    · rintro ⟨⟨v, ty⟩, hm, rfl⟩
      exact ⟨ty, Batch.mem_named_sorted_iff.1 hm⟩
    · rintro ⟨ty, hm⟩
      exact ⟨(v, ty), Batch.mem_named_sorted_iff.2 hm, rfl⟩
  · have hn : s.nameAll batch'.sorted = s.nameAll batch.sorted := by
      rw [← nameAll_named, Batch.named_sorted_eq h, nameAll_named]
    rw [rename_eq, rename_eq, hn]
    exact ⟨rfl, rfl, rfl⟩

theorem rename_in_any_order_receiver :
    let s := new ⟨"Demo", "run", "()V"⟩
    let batch : Batch := .ofList
      [(⟨2, 0⟩, "int"), (⟨0, 0⟩, "this"), (⟨1, 1⟩, "int"), (⟨1, 0⟩, "java.lang.String")]
    let batch' : Batch := .ofList
      [(⟨1, 1⟩, "int"), (⟨1, 0⟩, "java.lang.String"), (⟨2, 0⟩, "int"), (⟨0, 0⟩, "this")]
    s.rename batch' = s.rename batch ∧
      (s.rename batch).names =
        ([(⟨1, 0⟩, "s"), (⟨1, 1⟩, "i"), (⟨2, 0⟩, "j")] : List (Variable × Text)) := by
  intro s batch batch'
  obtain ⟨ho, hp, -⟩ := rename_in_any_order s batch
  refine ⟨hp batch' (by decide), ?_⟩
  rw [ho [(⟨0, 0⟩, "this"), (⟨1, 0⟩, "java.lang.String"), (⟨1, 1⟩, "int"), (⟨2, 0⟩, "int")]
    (by decide) (by decide)]
  decide +kernel

end Scope

end LocalNames
