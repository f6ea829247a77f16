import LocalNames.Text
import Mathlib.Data.List.Infix
import Mathlib.Data.List.TakeWhile

namespace LocalNames

section Cut

variable {c : Char} {t u : Text}

theorem takeWhile_ne_append (ht : c ∉ t) (hu : u = [] ∨ [c] <+: u) :
    (t ++ u).takeWhile (· ≠ c) = t := by
  have hp : ∀ d ∈ t, decide (d ≠ c) = true := fun d hd ↦ decide_eq_true fun h ↦ ht (h ▸ hd)
  rw [List.takeWhile_append_of_pos hp]
  rcases hu with rfl | ⟨rest, rfl⟩
  · rw [List.takeWhile_nil, List.append_nil]
  · rw [List.singleton_append, List.takeWhile_cons_of_neg (by simp), List.append_nil]

theorem exists_append_of_char (c : Char) (t : Text) :
    ∃ u rest, t = u ++ rest ∧ c ∉ u ∧ (rest = [] ∨ [c] <+: rest) := by
  induction t with
  | nil => exact ⟨[], [], rfl, List.not_mem_nil, .inl rfl⟩
  | cons d t ih =>
    by_cases h : c = d
    · exact ⟨[], d :: t, rfl, List.not_mem_nil, .inr (h ▸ List.prefix_append [c] t)⟩
    · obtain ⟨u, rest, rfl, hu, hr⟩ := ih
      exact ⟨d :: u, rest, rfl, fun hm ↦ (List.mem_cons.1 hm).elim h hu, hr⟩

/-- There is one way only to cut a text at the first place where a character stands. -/
theorem eq_of_append_cons_eq {t' u' : Text} (ht : c ∉ t) (ht' : c ∉ t')
    (h : t ++ c :: u = t' ++ c :: u') : t = t' ∧ u = u' := by
  -- both are what comes before that place, so the whole gives them back
  have htt : t = t' := by
    have hw := takeWhile_ne_append ht (.inr (List.prefix_append [c] u))
    have hw' := takeWhile_ne_append ht' (.inr (List.prefix_append [c] u'))
    rw [← hw, ← hw']
    exact congrArg (List.takeWhile _) h
  rw [htt, List.append_cancel_left_eq, List.cons.injEq] at h
  exact ⟨htt, h.2⟩

end Cut

theorem numeral_ne_nil (n : Nat) : numeral n ≠ [] := Nat.toDigits_ne_nil

theorem numeral_injective : Function.Injective numeral := by
  intro m n h
  have hv := congrArg (fun digits ↦ Nat.ofDigitChars 10 digits 0) h
  simpa only [numeral, Nat.ofDigitChars_ten_toDigits] using hv

theorem numeral_of_lt_ten {n : Nat} (h : n < 10) : numeral n = [n.digitChar] :=
  Nat.toDigits_of_lt_base h

theorem numeral_of_ten_le {n : Nat} (h : 10 ≤ n) :
    numeral n = numeral (n / 10) ++ [(n % 10).digitChar] :=
  Nat.toDigits_of_base_le (by decide) h

theorem isDigit_numeral (n : Nat) : ∀ c ∈ numeral n, c.isDigit :=
  fun _ hc ↦ Nat.isDigit_of_mem_toDigits (by decide) (by decide) hc

theorem not_mem_numeral {c : Char} (hc : c.isDigit = false) (n : Nat) : c ∉ numeral n := by
  intro hm
  rw [isDigit_numeral n c hm] at hc
  cases hc

theorem fromDigits_numeral (n : Nat) : fromDigits 10 (numeral n) = n := by
  have hd : fromDigits 10 (numeral n) = Nat.ofDigitChars 10 (numeral n) 0 := by
    rw [fromDigits, Nat.ofDigitChars_eq_foldl]
    apply List.foldl_ext
    intro m c hc
    rw [digitValue, if_pos (isDigit_numeral n c hc), Nat.mul_comm]
  rw [hd, numeral, Nat.ofDigitChars_ten_toDigits]

/-- What may stand behind the base of a name: nothing, or a number. -/
def IsSuffix (d : Text) : Prop := d = [] ∨ ∃ n, d = numeral n

theorem prefix_numeral_iff {n : Nat} {d : Text} :
    d <+: numeral n ↔ d = [] ∨ d = numeral n ∨ (10 ≤ n ∧ d <+: numeral (n / 10)) := by
  by_cases hn : n < 10
  · have hl : ¬ 10 ≤ n := by omega
    rw [numeral_of_lt_ten hn, List.prefix_cons_iff]
    simp only [List.prefix_nil, exists_eq_right, hl, false_and, or_false]
  · have hl : 10 ≤ n := by omega
    have he := numeral_of_ten_le hl
    rw [he, List.prefix_concat_iff, ← he]
    simp only [hl, true_and]
    exact ⟨.inr, fun h ↦ h.elim (fun h ↦ .inr (h ▸ List.nil_prefix)) id⟩

theorem isSuffix_of_prefix_numeral {n : Nat} {d : Text} (h : d <+: numeral n) : IsSuffix d := by
  induction n using Nat.strongRecOn with
  | ind n ih =>
    rcases prefix_numeral_iff.1 h with h | h | ⟨hn, h⟩
    · exact .inl h
    · exact .inr ⟨n, h⟩
    · exact ih (n / 10) (by omega) h

theorem eq_zero_of_zero_prefix_numeral {n : Nat} (h : numeral 0 <+: numeral n) : n = 0 := by
  induction n using Nat.strongRecOn with
  | ind n ih =>
    rcases prefix_numeral_iff.1 h with h | h | ⟨hn, h⟩
    · exact absurd h (numeral_ne_nil 0)
    · exact (numeral_injective h).symm
    · have h0 := ih (n / 10) (by omega) h
      omega

theorem eq_zero_of_head?_numeral {n : Nat} (h : (numeral n).head? = some '0') : n = 0 := by
  apply eq_zero_of_zero_prefix_numeral
  obtain ⟨ds, hd⟩ := List.head?_eq_some_iff.1 h
  rw [hd]
  exact List.prefix_append ['0'] ds

theorem length_numeral_of_head? {n : Nat} (h : (numeral n).head? = some '0') :
    (numeral n).length = 1 := by
  rw [eq_zero_of_head?_numeral h]
  rfl

theorem numeral_append_digit {n d : Nat} (hn : 0 < n) (hd : d < 10) :
    numeral n ++ numeral d = numeral (10 * n + d) :=
  Nat.toDigits_append_toDigits (by decide) hn hd

/-- With a positive number in front, a numeral goes on to be one of a number at least as large. -/
theorem exists_numeral_append {m : Nat} (hm : 0 < m) (n : Nat) :
    ∃ k, n ≤ k ∧ numeral k = numeral m ++ numeral n := by
  induction n using Nat.strongRecOn with
  | ind n ih =>
    by_cases hn : n < 10
    · exact ⟨10 * m + n, by omega, (numeral_append_digit hm hn).symm⟩
    · obtain ⟨k, hk, he⟩ := ih (n / 10) (by omega)
      have hd : n % 10 < 10 := Nat.mod_lt n (by decide)
      refine ⟨10 * k + n % 10, by omega, ?_⟩
      rw [numeral_of_ten_le (show 10 ≤ n by omega), ← List.append_assoc, ← he,
        ← numeral_of_lt_ten hd, numeral_append_digit (by omega) hd]

theorem exists_numeral_of_isDigit {c : Char} (h : c.isDigit) : ∃ d < 10, numeral d = [c] := by
  have hc : 48 ≤ c.toNat ∧ c.toNat ≤ 57 := Char.isDigit_iff_toNat.1 h
  have hd : c.toNat - 48 < 10 := by omega
  refine ⟨c.toNat - 48, hd, ?_⟩
  rw [numeral_of_lt_ten hd, List.singleton_inj, ← Char.toNat_inj, Nat.toNat_digitChar_of_lt_ten hd]
  omega

theorem isDigit_and_head?_ne_zero_iff {d : Text} :
    (∀ c ∈ d, c.isDigit) ∧ d.head? ≠ some '0' ↔ d = [] ∨ ∃ n, 0 < n ∧ d = numeral n := by
  constructor
  · rintro ⟨hd, h0⟩
    -- by the last digit, at which numerals come apart
    induction d using List.reverseRecOn with
    | nil => exact .inl rfl
    | append_singleton d c ih =>
      right
      obtain ⟨hd, hc⟩ := List.forall_mem_append.1 hd
      obtain ⟨m, hm, hmc⟩ := exists_numeral_of_isDigit (hc c (List.mem_singleton_self c))
      by_cases hn : d = []
      · subst hn
        refine ⟨m, Nat.pos_of_ne_zero fun hz ↦ h0 ?_, hmc.symm⟩
        rw [List.nil_append, ← hmc, hz]
        rfl
      · rw [List.head?_append_of_ne_nil d hn] at h0
        obtain ⟨n, hp, rfl⟩ := (ih hd h0).resolve_left hn
        exact ⟨10 * n + m, by omega, by rw [← hmc, numeral_append_digit hp hm]⟩
  · rintro (rfl | ⟨n, hn, rfl⟩)
    · simp
    · exact ⟨isDigit_numeral n, fun h0 ↦ hn.ne' (eq_zero_of_head?_numeral h0)⟩

theorem IsSuffix.of_prefix {x d : Text} (hx : IsSuffix x) (h : d <+: x) : IsSuffix d := by
  rcases hx with rfl | ⟨n, rfl⟩
  · exact .inl (List.prefix_nil.1 h)
  · exact isSuffix_of_prefix_numeral h

/-- Two names with numbered bases are the same only if the longer base ends in the beginning of
the other's number. -/
theorem exists_of_append_eq_append {p q x y : Text} (hx : IsSuffix x) (hy : IsSuffix y)
    (h : p ++ x = q ++ y) :
    ∃ d, IsSuffix d ∧ ((q = p ++ d ∧ x = d ++ y) ∨ (p = q ++ d ∧ y = d ++ x)) := by
  rcases List.append_eq_append_iff.1 h with ⟨d, rfl, rfl⟩ | ⟨d, rfl, rfl⟩
  · exact ⟨d, hx.of_prefix (List.prefix_append d y), .inl ⟨rfl, rfl⟩⟩
  · exact ⟨d, hy.of_prefix (List.prefix_append d x), .inr ⟨rfl, rfl⟩⟩

end LocalNames
