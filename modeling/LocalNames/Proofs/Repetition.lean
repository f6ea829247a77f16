import LocalNames.Proofs.Numbering
import LocalNames.Proofs.Rotation

namespace LocalNames.Family

/-- Two candidates at different places, the second of which is the first with digits behind it that
do not start with zero. There need not be any digits. -/
def Overlaps (candidates : List Text) : Prop :=
  ∃ (p q : Nat) (a d : Text), p ≠ q ∧ candidates[p]? = some a ∧ candidates[q]? = some (a ++ d) ∧
    (∀ c ∈ d, c.isDigit) ∧ d.head? ≠ some '0'

theorem separate_iff_not_overlaps {candidates : List Text} :
    Separate candidates ↔ ¬ Overlaps candidates := by
  constructor
  · rintro hs ⟨p, q, a, d, hne, hp, hq, hd, h0⟩
    exact hne (hs p q a d hp hq (isDigit_and_head?_ne_zero_iff.1 ⟨hd, h0⟩))
  · intro ho p q a d hp hq hd
    by_contra hne
    exact ho ⟨p, q, a, d, hne, hp, hq, isDigit_and_head?_ne_zero_iff.2 hd⟩

variable {f : Family}

theorem exists_nameAt_eq {p round start : Nat} {a : Text} (hp : f.candidates[p]? = some a)
    (hr : start < round) :
    ∃ i, start + i = f.candidates.length * round + p ∧
      f.nameAt (start + i) = a ++ numeral round := by
  have hl : p < f.candidates.length := (List.getElem?_eq_some_iff.1 hp).1
  have hle : round ≤ f.candidates.length * round := Nat.le_mul_of_pos_left round (by omega)
  obtain ⟨i, hi⟩ := Nat.exists_eq_add_of_le
    (show start ≤ f.candidates.length * round + p by omega)
  refine ⟨i, hi.symm, ?_⟩
  rw [nameAt_of_round hp hi.symm, roundSuffix, if_neg (by omega)]

/-- The digits of the longer candidate are those that the number of a later round begins with. -/
theorem not_injective_of_overlaps (h : Overlaps f.candidates) (start : Nat) :
    ¬ Function.Injective fun n ↦ f.nameAt (start + n) := by
  obtain ⟨p, q, a, d, hne, hp, hq, hd⟩ := h
  intro hf
  obtain ⟨round, hr, he⟩ : ∃ round, start < round ∧
      a ++ numeral round = a ++ d ++ numeral (start + 1) := by
    rcases isDigit_and_head?_ne_zero_iff.1 hd with rfl | ⟨n, hn, rfl⟩
    · exact ⟨start + 1, by omega, by rw [List.append_nil]⟩
    · obtain ⟨k, hk, he⟩ := exists_numeral_append hn (start + 1)
      exact ⟨k, by omega, by rw [he, List.append_assoc]⟩
  obtain ⟨i, hi, hni⟩ := exists_nameAt_eq hp hr
  obtain ⟨j, hj, hnj⟩ := exists_nameAt_eq hq (Nat.lt_succ_self start)
  obtain rfl : i = j := hf ((hni.trans he).trans hnj.symm)
  -- one turn belongs to one candidate
  have hpl : p < f.candidates.length := (List.getElem?_eq_some_iff.1 hp).1
  have hql : q < f.candidates.length := (List.getElem?_eq_some_iff.1 hq).1
  have hm := congrArg (· % f.candidates.length) (hi.symm.trans hj)
  simp only [Nat.mul_add_mod, Nat.mod_eq_of_lt hpl, Nat.mod_eq_of_lt hql] at hm
  exact hne hm

theorem injective_nameAt_add (h : f.candidates ≠ []) (hs : Separate f.candidates) (start : Nat) :
    Function.Injective fun n ↦ f.nameAt (start + n) :=
  (nameAt_injective h hs).comp fun _ _ ↦ Nat.add_left_cancel

/-- However far the numbers go on, from wherever they start, a family has different names for them
unless two of its candidates overlap, and if they do it comes to a name twice. The names that it
issues are these as long as its counter goes up. -/
theorem never_repeats_iff {f : Family} (h : f.candidates ≠ []) (start : Nat) :
    (Function.Injective (fun n ↦ f.nameAt (start + n)) ↔ ¬ Overlaps f.candidates) ∧
      (f.candidates.length = 1 → Function.Injective fun n ↦ f.nameAt (start + n)) ∧
      (∀ seed ∈ Options.builtinFamilies, f.candidates = seed.family.candidates →
        Function.Injective fun n ↦ f.nameAt (start + n)) ∧
      ∀ n, f.counter.toNat = start → start + n < UInt64.size →
        (f.after n).name = f.nameAt (start + n) := by
  refine ⟨⟨fun hf ho ↦ not_injective_of_overlaps ho start hf, fun ho ↦ ?_⟩, fun hl ↦ ?_,
    fun seed hs hc ↦ ?_, ?_⟩
  · exact injective_nameAt_add h (separate_iff_not_overlaps.2 ho) start
  · obtain ⟨a, ha⟩ := List.length_eq_one_iff.1 hl
    exact injective_nameAt_add h (ha ▸ separate_singleton a) start
  · exact injective_nameAt_add h (hc ▸ Options.separate_builtinFamilies seed hs) start
  · rintro n rfl hn
    exact name_after_of_lt hn

theorem never_repeats_iff_int :
    (Function.Injective fun n ↦ (⟨["i", "j", "k", "l"], 6, true⟩ : Family).nameAt (6 + n)) ∧
      (Function.Injective fun n ↦ (⟨["a1"], 0, true⟩ : Family).nameAt (0 + n)) ∧
      ¬ Function.Injective fun n ↦ (⟨["a", "a1"], 3, false⟩ : Family).nameAt (3 + n) := by
  refine ⟨?_, ?_, fun hf ↦ ?_⟩
  · have h := never_repeats_iff (f := ⟨["i", "j", "k", "l"], 6, true⟩) (by decide) 6
    exact h.2.2.1 _ List.mem_cons_self rfl
  · have h := never_repeats_iff (f := ⟨["a1"], 0, true⟩) (by decide) 0
    exact h.2.1 rfl
  · have h := never_repeats_iff (f := ⟨["a", "a1"], 3, false⟩) (by decide) 3
    have hd : ∀ c ∈ ("1" : Text), c.isDigit := List.all_eq_true.1 rfl
    exact h.1.1 hf ⟨0, 1, "a", "1", by decide, rfl, rfl, hd, by decide⟩

end LocalNames.Family
