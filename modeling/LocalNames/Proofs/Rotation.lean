import LocalNames.Proofs.Family

namespace LocalNames.Family

def roundSuffix (f : Family) (round : Nat) : Text :=
  if f.plainFirst ∧ round = 0 then [] else numeral round

variable {f : Family}

theorem suffixAt_eq (id : Nat) : f.suffixAt id =
    if f.plainFirst ∧ id < f.candidates.length then []
    else numeral (id / f.candidates.length) := by
  simp only [suffixAt, Bool.and_eq_true, decide_eq_true_eq, and_comm]

theorem suffixAt_of_round {id p round : Nat} (hp : p < f.candidates.length)
    (hi : id = f.candidates.length * round + p) : f.suffixAt id = f.roundSuffix round := by
  have hd : id / f.candidates.length = round :=
    ((Nat.div_mod_unique (by omega)).2 ⟨by omega, hp⟩).1
  -- the first round is that of the numbers less than the number of candidates
  have hr : id < f.candidates.length ↔ round = 0 := by
    rw [← hd, Nat.div_eq_zero_iff_lt (by omega)]
  simp only [suffixAt_eq, roundSuffix, hd, hr]

theorem nameAt_of_round {id p round : Nat} {a : Text} (ha : f.candidates[p]? = some a)
    (hi : id = f.candidates.length * round + p) : f.nameAt id = a ++ f.roundSuffix round := by
  have hp : p < f.candidates.length := (List.getElem?_eq_some_iff.1 ha).1
  have hne : f.candidates ≠ [] := List.ne_nil_of_length_pos (by omega)
  have hc := getElem?_index hne id
  rw [hi, Nat.mul_add_mod, Nat.mod_eq_of_lt hp, ha, Option.some_inj] at hc
  rw [nameAt_eq hne, suffixAt_of_round hp hi, hc, hi]

end LocalNames.Family
