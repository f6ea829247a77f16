import LocalNames.Family
import LocalNames.Proofs.Text
import Mathlib.Data.List.Nodup

namespace LocalNames.Family

def candidate (f : Family) : Text := f.candidateAt f.counter.toNat

/-- What stands behind the candidate in a name: the number of the round, or nothing. -/
def suffixAt (f : Family) (id : Nat) : Text :=
  if id < f.candidates.length && f.plainFirst then [] else numeral (id / f.candidates.length)

def suffix (f : Family) : Text := f.suffixAt f.counter.toNat

theorem isSuffix_suffixAt (f : Family) (id : Nat) : IsSuffix (f.suffixAt id) := by
  unfold suffixAt
  split
  · exact .inl rfl
  · exact .inr ⟨_, rfl⟩

theorem isSuffix_suffix (f : Family) : IsSuffix f.suffix := f.isSuffix_suffixAt _

theorem getElem?_index {f : Family} (h : f.candidates ≠ []) (id : Nat) :
    f.candidates[id % f.candidates.length]? = some (f.candidateAt id) := by
  have hi : id % f.candidates.length < f.candidates.length :=
    Nat.mod_lt _ (List.length_pos_iff.2 h)
  rw [candidateAt, List.getElem?_eq_getElem hi, Option.getD_some]

theorem candidate_mem {f : Family} (h : f.candidates ≠ []) : f.candidate ∈ f.candidates :=
  List.mem_of_getElem? (getElem?_index h _)

/-- Lone candidates follow the rule for rotations, as rotations of one. -/
theorem nameAt_eq {f : Family} (h : f.candidates ≠ []) (id : Nat) :
    f.nameAt id = f.candidateAt id ++ f.suffixAt id := by
  obtain ⟨candidates, counter, plainFirst⟩ := f
  match candidates with
  | [] => exact absurd rfl h
  | [only] =>
    simp only [nameAt, candidateAt, suffixAt, List.length_singleton, Nat.mod_one, Nat.div_one,
      Nat.lt_one_iff, List.getElem?_cons_zero, Option.getD_some]
    split <;> simp
  | first :: second :: rest =>
    simp only [nameAt, suffixAt]
    split <;> simp

theorem name_eq {f : Family} (h : f.candidates ≠ []) : f.name = f.candidate ++ f.suffix :=
  nameAt_eq h _

theorem counter_advance_ne (f : Family) : f.advance.counter ≠ f.counter := by
  simp [advance]

theorem after_succ (f : Family) (n : Nat) : f.after (n + 1) = f.advance.after n := rfl

theorem after_eq (f : Family) (n : Nat) :
    f.after n = { f with counter := f.counter + .ofNat n } := by
  induction n generalizing f with
  | zero => exact congrArg (Family.mk _ · _) (UInt64.add_zero _).symm
  | succ n ih =>
    rw [after_succ, ih, advance, UInt64.ofNat_add, UInt64.add_comm (.ofNat n), ← UInt64.add_assoc]
    rfl

theorem after_after (f : Family) (m n : Nat) : (f.after m).after n = f.after (m + n) := by
  simp only [after_eq, UInt64.ofNat_add, UInt64.add_assoc]

@[simp] theorem candidates_after (f : Family) (n : Nat) :
    (f.after n).candidates = f.candidates := by
  rw [after_eq]

theorem toNat_counter_after (f : Family) (n : Nat) :
    (f.after n).counter.toNat = (f.counter.toNat + n) % UInt64.size := by
  rw [after_eq, UInt64.toNat_add, UInt64.toNat_ofNat', Nat.add_mod_mod]

theorem name_after (f : Family) (n : Nat) :
    (f.after n).name = f.nameAt ((f.counter.toNat + n) % UInt64.size) := by
  rw [name, toNat_counter_after, after_eq]
  simp only [nameAt, candidateAt]

theorem name_after_of_lt {f : Family} {n : Nat} (h : f.counter.toNat + n < UInt64.size) :
    (f.after n).name = f.nameAt (f.counter.toNat + n) := by
  rw [name_after, Nat.mod_eq_of_lt h]

theorem names_add (f : Family) (m n : Nat) :
    f.names (m + n) = f.names m ++ (f.after m).names n := by
  induction m generalizing f with
  | zero => rw [Nat.zero_add]; rfl
  | succ m ih => rw [Nat.succ_add, names, ih, names, List.cons_append, after_succ]

/-- No candidate is another one followed by nothing or by a positive number. -/
def Separate (candidates : List Text) : Prop :=
  ∀ (i j : Nat) (a d : Text), candidates[i]? = some a → candidates[j]? = some (a ++ d) →
    d = [] ∨ (∃ n, 0 < n ∧ d = numeral n) → i = j

theorem separate_of_length_eq {candidates : List Text} {k : Nat} (hn : candidates.Nodup)
    (hl : ∀ a ∈ candidates, a.length = k) : Separate candidates := by
  intro i j a d hi hj _
  have ha := hl a (List.mem_of_getElem? hi)
  have hb := hl _ (List.mem_of_getElem? hj)
  rw [List.length_append] at hb
  obtain rfl : d = [] := List.eq_nil_of_length_eq_zero (by omega)
  rw [List.append_nil] at hj
  exact (List.getElem?_inj (List.getElem?_eq_some_iff.1 hi).1 hn).1 (hi.trans hj.symm)

theorem separate_singleton (a : Text) : Separate [a] :=
  separate_of_length_eq (List.nodup_singleton a) (List.forall_mem_singleton.2 rfl)

variable {f : Family} {i j : Nat}

theorem suffixAt_eq_nil_iff :
    f.suffixAt i = [] ↔ i < f.candidates.length ∧ f.plainFirst := by
  unfold suffixAt
  split
  · rename_i h
    simpa using h
  · rename_i h
    refine iff_of_false (numeral_ne_nil _) ?_
    simpa using h

theorem suffixAt_of_ne_nil (h : f.suffixAt i ≠ []) :
    f.suffixAt i = numeral (i / f.candidates.length) := by
  unfold suffixAt at h ⊢
  split
  · rename_i hc
    rw [if_pos hc] at h
    exact absurd rfl h
  · rfl

theorem eq_of_suffixAt_eq (hi : i % f.candidates.length = j % f.candidates.length)
    (hs : f.suffixAt i = f.suffixAt j) : i = j := by
  by_cases hn : f.suffixAt i = []
  · have hil := (suffixAt_eq_nil_iff.1 hn).1
    have hjl := (suffixAt_eq_nil_iff.1 (hs ▸ hn)).1
    rwa [Nat.mod_eq_of_lt hil, Nat.mod_eq_of_lt hjl] at hi
  · have hq : i / f.candidates.length = j / f.candidates.length := by
      apply numeral_injective
      rw [← suffixAt_of_ne_nil hn, hs, ← suffixAt_of_ne_nil (hs ▸ hn)]
    rw [← Nat.div_add_mod i f.candidates.length, hq, hi, Nat.div_add_mod]

/-- Zero is only written by families without plain names, so it cannot make up for a plain name. -/
theorem suffixAt_ne_zero_append_suffixAt (hne : f.candidates ≠ []) :
    f.suffixAt i ≠ numeral 0 ++ f.suffixAt j := by
  intro h
  have hi : f.suffixAt i ≠ [] := by
    rw [h]
    exact fun h ↦ numeral_ne_nil 0 (List.append_eq_nil_iff.1 h).1
  have he := suffixAt_of_ne_nil hi
  have hz : i / f.candidates.length = 0 := by
    apply eq_zero_of_zero_prefix_numeral
    rw [← he, h]
    exact List.prefix_append _ _
  rw [h, hz] at he
  obtain ⟨-, hp⟩ := suffixAt_eq_nil_iff.1 (List.append_right_eq_self.1 he)
  have hl : i < f.candidates.length :=
    (Nat.div_eq_zero_iff.1 hz).resolve_left (List.length_pos_iff.2 hne).ne'
  exact hi (suffixAt_eq_nil_iff.2 ⟨hl, hp⟩)

theorem eq_of_overlap (hne : f.candidates ≠ []) (hs : Separate f.candidates) {d : Text}
    (hd : IsSuffix d) (hb : f.candidateAt j = f.candidateAt i ++ d)
    (hx : f.suffixAt i = d ++ f.suffixAt j) : i = j := by
  have hi := getElem?_index hne i
  have hj := getElem?_index hne j
  rw [hb] at hj
  have hij (h : d = [] ∨ ∃ n, 0 < n ∧ d = numeral n) := hs _ _ _ d hi hj h
  rcases hd with rfl | ⟨n, rfl⟩
  · exact eq_of_suffixAt_eq (hij (.inl rfl)) hx
  · cases n with
    | zero => exact absurd hx (suffixAt_ne_zero_append_suffixAt hne)
    | succ n =>
      rw [← hij (.inr ⟨n + 1, by omega, rfl⟩), hi, Option.some_inj] at hj
      exact absurd (List.self_eq_append_right.1 hj) (numeral_ne_nil _)

theorem nameAt_injective (hne : f.candidates ≠ []) (hs : Separate f.candidates) :
    Function.Injective f.nameAt := by
  intro i j h
  rw [nameAt_eq hne, nameAt_eq hne] at h
  obtain ⟨d, hd, ⟨hb, hx⟩ | ⟨hb, hx⟩⟩ := exists_of_append_eq_append
    (f.isSuffix_suffixAt i) (f.isSuffix_suffixAt j) h
  · exact eq_of_overlap hne hs hd hb hx
  · exact (eq_of_overlap hne hs hd hb hx).symm

theorem name_after_eq_name_iff (hne : f.candidates ≠ []) (hs : Separate f.candidates) (n : Nat) :
    (f.after n).name = f.name ↔ UInt64.size ∣ n := by
  have hc := f.counter.toNat_lt_size
  rw [name_after, name, (nameAt_injective hne hs).eq_iff, Nat.dvd_iff_mod_eq_zero]
  simp only [UInt64.size] at hc ⊢
  omega

end LocalNames.Family
