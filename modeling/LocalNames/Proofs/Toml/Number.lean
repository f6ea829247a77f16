import LocalNames.Proofs.Text
import LocalNames.Toml.Value
import Mathlib.Data.List.TakeWhile

namespace LocalNames.Toml

theorem rest_of_fixed? {width : Nat} {text : Text} {number : Nat × Text}
    (h : fixed? width text = some number) : number.2 = text.drop width := by
  rw [fixed?] at h
  split at h
  · exact congrArg Prod.snd (Option.some.inj h).symm
  · cases h

section

variable {digits : Text} (hd : ∀ c ∈ digits, c.isDigit)
include hd

theorem ne_of_not_isDigit {token : Text} {c : Char} (hc : c ∈ token) (hn : c.isDigit = false) :
    digits ≠ token := by
  rintro rfl
  exact Bool.false_ne_true (hn.symm.trans (hd c hc))

theorem takeWhile_of_isDigit {p : Char → Bool} (hp : ∀ c, c.isDigit → p c) :
    digits.takeWhile p = digits :=
  List.takeWhile_eq_self_iff.2 fun c hc ↦ hp c (hd c hc)

theorem ungroup?_of_isDigit (hn : digits ≠ []) : ungroup? Char.isDigit digits = some digits := by
  fun_induction ungroup? Char.isDigit digits with
  | case1 => exact absurd rfl hn
  | case2 c hc => rfl
  | case3 c hc => exact absurd (hd c List.mem_cons_self) hc
  | case4 c rest hc ih => exact absurd rfl (ne_of_not_isDigit hd (c := '_') (by simp) rfl)
  | case5 c rest hc => exact absurd (hd c List.mem_cons_self) hc
  | case6 c rest h1 h2 hc ih =>
    rw [ih (fun c hc ↦ hd c (List.mem_cons_of_mem _ hc)) h1]
    rfl
  | case7 c rest h1 h2 hc => exact absurd (hd c List.mem_cons_self) hc

theorem unsigned_of_isDigit : unsigned digits = (false, digits) := by
  unfold unsigned
  split
  · cases hd '+' List.mem_cons_self
  · cases hd '-' List.mem_cons_self
  · rfl

theorem wholeNumber?_of_isDigit :
    wholeNumber? digits = (decimal? digits).map fun ds ↦ (fromDigits 10 ds : Int) := by
  unfold wholeNumber?
  split
  · cases hd 'x' (by simp)
  · cases hd 'o' (by simp)
  · cases hd 'b' (by simp)
  · rw [unsigned_of_isDigit hd]
    rfl

theorem isDecimalFloat_of_isDigit : isDecimalFloat digits = false := by
  have hm : digits.takeWhile (fun c ↦ c ≠ 'e' ∧ c ≠ 'E') = digits :=
    takeWhile_of_isDigit hd fun c hc ↦ by
      simp only [decide_eq_true_eq]
      constructor <;> (rintro rfl; cases hc)
  have hw : digits.takeWhile (· ≠ '.') = digits :=
    takeWhile_of_isDigit hd fun c hc ↦ by
      simp only [decide_eq_true_eq]
      rintro rfl
      cases hc
  simp only [isDecimalFloat, unsigned_of_isDigit hd, hm, hw, List.drop_length]
  split
  · simp
  · rfl

theorem isFloat_of_isDigit : isFloat digits = false := by
  have hi : digits ≠ "inf".toList := ne_of_not_isDigit hd (c := 'i') (by decide) rfl
  have hn : digits ≠ "nan".toList := ne_of_not_isDigit hd (c := 'n') (by decide) rfl
  simp only [isFloat, unsigned_of_isDigit hd, isDecimalFloat_of_isDigit hd, hi, hn, decide_false,
    Bool.or_false]

theorem mark?_of_isDigit : mark? "-" digits = none := by
  cases digits with
  | nil => rfl
  | cons c rest =>
    refine if_neg fun hc ↦ ?_
    obtain rfl := List.mem_singleton.1 hc
    cases hd '-' List.mem_cons_self

theorem read?_of_isDigit : Date.read? digits = none := by
  have hm : mark? "-" (digits.drop 4) = none :=
    mark?_of_isDigit fun c hc ↦ hd c (List.mem_of_mem_drop hc)
  rw [Date.read?]
  cases hf : fixed? 4 digits with
  | none => rfl
  | some year =>
    change (mark? "-" year.2).bind _ = none
    rw [rest_of_fixed? hf, hm]
    rfl

end

theorem decimal?_numeral (n : Nat) : decimal? (numeral n) = some (numeral n) := by
  have hd := isDigit_numeral n
  have hz : (numeral n).length = 1 ∨ (numeral n).head? ≠ some '0' := by
    by_cases h0 : (numeral n).head? = some '0'
    · exact .inl (length_numeral_of_head? h0)
    · exact .inr h0
  have hg : guard (f := Option) ((numeral n).length = 1 ∨ (numeral n).head? ≠ some '0') =
    some () := if_pos hz
  rw [decimal?, ungroup?_of_isDigit hd (numeral_ne_nil n), Option.bind_eq_bind, Option.bind_some,
    hg]
  rfl

theorem integer?_numeral {n : Nat} (h : n < 0x8000000000000000) :
    integer? (numeral n) = some (n : Int) := by
  have hd := isDigit_numeral n
  rw [integer?, wholeNumber?_of_isDigit hd, decimal?_numeral, Option.map_some, fromDigits_numeral]
  apply Option.filter_eq_some_iff.2
  refine ⟨rfl, ?_⟩
  simp only [decide_eq_true_eq]
  omega

theorem scalar?_numeral {n : Nat} (h : n < 0x8000000000000000) :
    scalar? (numeral n) = some (.int n) := by
  have hd := isDigit_numeral n
  have ht : numeral n ≠ "true".toList := ne_of_not_isDigit hd (c := 't') (by decide) rfl
  have hf : numeral n ≠ "false".toList := ne_of_not_isDigit hd (c := 'f') (by decide) rfl
  rw [scalar?, if_neg ht, if_neg hf, if_neg (by rw [isFloat_of_isDigit hd]; decide),
    integer?_numeral h]
  rfl

end LocalNames.Toml
