import LocalNames.Text.Lowercase
import Mathlib.Data.List.Infix

namespace LocalNames

namespace CaseRun

/-- No image of `r` lies in `q`: the two intervals are disjoint, or they advance by two and out of
step. A run of one character may count as advancing by two. -/
def avoids (r q : CaseRun) : Bool :=
  r.image + (r.last - r.first) < q.first || q.last < r.image ||
    ((r.stride == 2 || r.first == r.last) && q.stride == 2 && (r.image + q.first) % 2 == 1)

theorem imageOf?_eq_none_of_avoids {r q : CaseRun} (h : r.avoids q) {n m : Nat}
    (hm : r.imageOf? n = some m) : q.imageOf? m = none := by
  simp only [imageOf?, Option.ite_none_right_eq_some, Option.some.injEq] at hm
  obtain ⟨⟨hf, hl, hs⟩, rfl⟩ := hm
  simp only [avoids, Bool.or_eq_true, Bool.and_eq_true, decide_eq_true_eq, beq_iff_eq] at h
  refine if_neg fun ⟨hf', hl', hs'⟩ ↦ ?_
  rcases h with (h | h) | ⟨⟨hr | hr, hq⟩, hp⟩
  · omega
  · omega
  · rw [hr] at hs
    rw [hq] at hs'
    omega
  · rw [hq] at hs'
    omega

theorem exists_of_search_eq_some {n m : Nat} {rs : List CaseRun} (h : search n rs = some m) :
    ∃ r ∈ rs, r.imageOf? n = some m := by
  induction rs with
  | nil => cases h
  | cons r rs ih =>
    rw [search] at h
    split at h
    · cases h
    · rcases Option.or_eq_some_iff.1 h with h | ⟨-, h⟩
      · exact ⟨r, List.mem_cons_self, h⟩
      · obtain ⟨q, hq, hm⟩ := ih h
        exact ⟨q, List.mem_cons_of_mem r hq, hm⟩

theorem search_eq_none {n : Nat} {rs : List CaseRun} (h : ∀ r ∈ rs, r.imageOf? n = none) :
    search n rs = none := by
  cases hs : search n rs with
  | none => rfl
  | some m =>
    obtain ⟨r, hr, hm⟩ := exists_of_search_eq_some hs
    rw [h r hr] at hm
    cases hm

end CaseRun

/-- The characters that type names are taken apart at. Changing case leaves them alone. -/
def isMark (c : Char) : Bool := c == '.' || c == '[' || c == ']' || c == '<'

def CaseRun.isSound (r : CaseRun) : Bool :=
  lowercaseRuns.all r.avoids && 0x5D < r.image && r.first ≤ r.last &&
    (r.image + (r.last - r.first) < 0x130 || 0x130 < r.image) &&
    (r.image + (r.last - r.first) < 0xD800 || 0xDFFF < r.image) &&
    r.image + (r.last - r.first) < 0x110000

theorem isSound_of_mem_lowercaseRuns : ∀ r ∈ lowercaseRuns, r.isSound := by
  decide +kernel

theorem search_image {n m : Nat} (h : CaseRun.search n lowercaseRuns = some m) :
    CaseRun.search m lowercaseRuns = none ∧ m.isValidChar ∧ m ≠ 0x130 ∧ 0x5D < m := by
  obtain ⟨r, hr, hm⟩ := CaseRun.exists_of_search_eq_some h
  have hs := isSound_of_mem_lowercaseRuns r hr
  simp only [CaseRun.isSound, Bool.and_eq_true, Bool.or_eq_true, decide_eq_true_eq,
    List.all_eq_true] at hs
  obtain ⟨⟨⟨⟨⟨ha, hi⟩, hl⟩, h0⟩, hd⟩, ht⟩ := hs
  refine ⟨CaseRun.search_eq_none fun q hq ↦ CaseRun.imageOf?_eq_none_of_avoids (ha q hq) hm, ?_⟩
  simp only [CaseRun.imageOf?, Option.ite_none_right_eq_some, Option.some.injEq] at hm
  obtain ⟨⟨hf, hl', -⟩, rfl⟩ := hm
  unfold Nat.isValidChar
  omega

theorem toNat_ofNat_of_isValidChar {n : Nat} (h : n.isValidChar) : (Char.ofNat n).toNat = n := by
  rw [Char.ofNat, dif_pos h]
  rfl

theorem lowerChar_cases (c : Char) :
    (c = '\u0130' ∧ lowerChar c = ['i', '\u0307']) ∨
    (∃ d : Char, CaseRun.search c.toNat lowercaseRuns = some d.toNat ∧ lowerChar c = [d] ∧
      lowerChar d = [d] ∧ 0x5D < d.toNat) ∨
    (CaseRun.search c.toNat lowercaseRuns = none ∧ lowerChar c = [c]) := by
  by_cases hc : c = '\u0130'
  · exact .inl ⟨hc, by rw [lowerChar, if_pos hc]⟩
  · cases hs : CaseRun.search c.toNat lowercaseRuns with
    | none => exact .inr (.inr ⟨rfl, by simp only [lowerChar, if_neg hc, hs]⟩)
    | some n =>
      obtain ⟨hn, hv, h0, hm⟩ := search_image hs
      have ht := toNat_ofNat_of_isValidChar hv
      have hd : Char.ofNat n ≠ '\u0130' := by
        intro h
        rw [h] at ht
        exact h0 ht.symm
      refine .inr (.inl ⟨Char.ofNat n, by rw [ht], ?_, ?_, by rwa [ht]⟩)
      · simp only [lowerChar, if_neg hc, hs]
      · simp only [lowerChar, if_neg hd, ht, hn]

structure IsLower (c : Char) (low : Text) : Prop where
  ne_nil : low ≠ []
  fixed : ∀ d ∈ low, d ≠ 'Σ' ∧ lowerChar d = [d]
  mark : isMark c → low = [c]
  letter : isMark c = false → ∀ d ∈ low, isMark d = false
  digit : ∀ d ∈ low, d.isDigit → d = c

theorem isMark_eq_false_of_lt {c : Char} (h : 0x5D < c.toNat) : isMark c = false := by
  cases hc : isMark c with
  | false => rfl
  | true =>
    simp only [isMark, Bool.or_eq_true, beq_iff_eq] at hc
    rcases hc with ((rfl | rfl) | rfl) | rfl <;> exact absurd h (by decide)

theorem isDigit_eq_false_of_lt {c : Char} (h : 0x5D < c.toNat) : c.isDigit = false := by
  refine Bool.and_eq_false_iff.2 (.inr (decide_eq_false_iff_not.2 fun hle ↦ ?_))
  have h9 : c.toNat ≤ 0x39 := UInt32.le_iff_toNat_le.1 hle
  omega

theorem search_mark {c : Char} (h : isMark c) : CaseRun.search c.toNat lowercaseRuns = none := by
  simp only [isMark, Bool.or_eq_true, beq_iff_eq] at h
  rcases h with ((rfl | rfl) | rfl) | rfl <;> rfl

theorem ne_sigma_of_lowerChar {c : Char} (h : lowerChar c = [c]) : c ≠ 'Σ' := by
  rintro rfl
  exact absurd h (by decide)

theorem isLower_lowerChar (c : Char) : IsLower c (lowerChar c) := by
  rcases lowerChar_cases c with ⟨rfl, h⟩ | ⟨d, hs, h, hd, ht⟩ | ⟨hs, h⟩
  · rw [h]
    constructor
    · simp
    · exact List.forall_mem_cons.2 ⟨by decide, List.forall_mem_singleton.2 (by decide)⟩
    · decide
    · exact fun _ ↦ List.forall_mem_cons.2 ⟨rfl, List.forall_mem_singleton.2 rfl⟩
    · exact List.forall_mem_cons.2 ⟨by decide, List.forall_mem_singleton.2 (by decide)⟩
  · rw [h]
    refine ⟨by simp, ?_, fun hm ↦ ?_, ?_, ?_⟩
    · simpa using And.intro (ne_sigma_of_lowerChar hd) hd
    · rw [search_mark hm] at hs
      cases hs
    · simpa using fun _ ↦ isMark_eq_false_of_lt ht
    · simp [isDigit_eq_false_of_lt ht]
  · rw [h]
    refine ⟨by simp, ?_, fun _ ↦ rfl, by simp, by simp⟩
    simpa using And.intro (ne_sigma_of_lowerChar h) h

theorem isLower_final : IsLower 'Σ' ['ς'] := by
  constructor
  · simp
  · exact List.forall_mem_singleton.2 (by decide)
  · decide
  · exact fun _ ↦ List.forall_mem_singleton.2 rfl
  · exact List.forall_mem_singleton.2 (by decide)

/-- A text and what it may become when its characters are lowercased one by one. -/
inductive Lowered : Text → Text → Prop
  | nil : Lowered [] []
  | cons {c : Char} {low t u : Text} : IsLower c low → Lowered t u → Lowered (c :: t) (low ++ u)

theorem lowered_lowerAfter (before t : Text) : Lowered t (lowerAfter before t) := by
  induction t generalizing before with
  | nil => exact .nil
  | cons c t ih =>
    refine .cons ?_ (ih (c :: before))
    split
    · rename_i h
      simp only [Bool.and_eq_true, decide_eq_true_eq] at h
      rw [h.1.1]
      exact isLower_final
    · exact isLower_lowerChar c

theorem lowered_lowercase (t : Text) : Lowered t (lowercase t) := lowered_lowerAfter [] t

theorem Lowered.exists_append {t t' u : Text} (h : Lowered (t ++ t') u) :
    ∃ low low', u = low ++ low' ∧ Lowered t low ∧ Lowered t' low' := by
  induction t generalizing u with
  | nil => exact ⟨[], u, rfl, .nil, h⟩
  | cons c t ih =>
    cases h with
    | cons hc h =>
      obtain ⟨low, low', rfl, hl, hl'⟩ := ih h
      exact ⟨_, low', (List.append_assoc _ low low').symm, .cons hc hl, hl'⟩

theorem Lowered.eq_of_marks {t u : Text} (h : Lowered t u) (ht : ∀ c ∈ t, isMark c) : u = t := by
  induction h with
  | nil => rfl
  | cons hc _ ih =>
    obtain ⟨hm, ht⟩ := List.forall_mem_cons.1 ht
    rw [hc.mark hm, ih ht, List.singleton_append]

theorem Lowered.unmarked {t u : Text} (h : Lowered t u) (ht : ∀ c ∈ t, isMark c = false) :
    ∀ c ∈ u, isMark c = false := by
  induction h with
  | nil => simp
  | cons hc _ ih =>
    obtain ⟨hm, ht⟩ := List.forall_mem_cons.1 ht
    exact List.forall_mem_append.2 ⟨hc.letter hm, ih ht⟩

theorem Lowered.fixed {t u : Text} (h : Lowered t u) : ∀ d ∈ u, d ≠ 'Σ' ∧ lowerChar d = [d] := by
  induction h with
  | nil => simp
  | cons hl _ ih =>
    intro d hd
    rcases List.mem_append.1 hd with hd | hd
    · exact hl.fixed d hd
    · exact ih d hd

theorem lowerAfter_of_fixed {t : Text} (h : ∀ d ∈ t, d ≠ 'Σ' ∧ lowerChar d = [d])
    (before : Text) : lowerAfter before t = t := by
  induction t generalizing before with
  | nil => rfl
  | cons c t ih =>
    obtain ⟨⟨hs, hc⟩, ht⟩ := List.forall_mem_cons.1 h
    simp only [lowerAfter, hs, decide_false, Bool.false_and, Bool.false_eq_true, if_false, hc,
      ih ht, List.singleton_append]

theorem lowercase_lowercase (t : Text) : lowercase (lowercase t) = lowercase t :=
  lowerAfter_of_fixed (lowered_lowercase t).fixed []

theorem lowercase_eq_nil_iff {t : Text} : lowercase t = [] ↔ t = [] := by
  refine ⟨fun h ↦ ?_, fun h ↦ by rw [h]; rfl⟩
  have hl := lowered_lowercase t
  rw [h] at hl
  generalize hu : ([] : Text) = u at hl
  cases hl with
  | nil => rfl
  | cons hc _ => exact absurd (List.append_eq_nil_iff.1 hu.symm).1 hc.ne_nil

theorem infix_append_of_unmarked {w low u : Text} (hw : ∀ c ∈ w, isMark c) (hne : w ≠ [])
    (hl : ∀ d ∈ low, isMark d = false) : w <:+: low ++ u ↔ w <:+: u := by
  induction low with
  | nil => rfl
  | cons d low ih =>
    obtain ⟨hd, hl⟩ := List.forall_mem_cons.1 hl
    rw [List.cons_append, List.infix_cons_iff, ih hl]
    refine or_iff_right fun hp ↦ ?_
    obtain ⟨c, w, rfl⟩ := List.exists_cons_of_ne_nil hne
    have hc := hw c List.mem_cons_self
    rw [(List.cons_prefix_cons.1 hp).1, hd] at hc
    cases hc

theorem Lowered.prefix_iff {t u w : Text} (h : Lowered t u) (hw : ∀ c ∈ w, isMark c) :
    w <+: u ↔ w <+: t := by
  induction h generalizing w with
  | nil => rfl
  | @cons c low t u hl h ih =>
    cases w with
    | nil => simp
    | cons m w =>
      obtain ⟨hm, hw⟩ := List.forall_mem_cons.1 hw
      cases hc : isMark c with
      | true => rw [hl.mark hc, List.singleton_append, List.cons_prefix_cons, List.cons_prefix_cons,
          ih hw]
      | false =>
        have hne (d : Char) (hd : isMark d = false) : m ≠ d := by
          rintro rfl
          rw [hm] at hd
          cases hd
        obtain ⟨d, low', rfl⟩ := List.exists_cons_of_ne_nil hl.ne_nil
        have hd := hl.letter hc d List.mem_cons_self
        simp only [List.cons_append, List.cons_prefix_cons, hne d hd, hne c hc, false_and]

/-- Lowercasing neither brings marks together nor draws them apart. -/
theorem Lowered.infix_iff {t u w : Text} (h : Lowered t u) (hw : ∀ c ∈ w, isMark c)
    (hne : w ≠ []) : w <:+: u ↔ w <:+: t := by
  induction h with
  | nil => rfl
  | @cons c low t u hl h ih =>
    have hp := (Lowered.cons hl h).prefix_iff hw
    rw [List.infix_cons_iff, ← hp]
    cases hc : isMark c with
    | true => rw [hl.mark hc, List.singleton_append, List.infix_cons_iff, ih]
    | false =>
      rw [infix_append_of_unmarked hw hne (hl.letter hc), ih]
      refine ⟨.inr, fun hi ↦ hi.elim (fun hi ↦ ?_) id⟩
      exact ih.1 ((infix_append_of_unmarked hw hne (hl.letter hc)).1 hi.isInfix)

theorem infix_lowercase_iff {t w : Text} (hw : ∀ c ∈ w, isMark c) (hne : w ≠ []) :
    w <:+: lowercase t ↔ w <:+: t := (lowered_lowercase t).infix_iff hw hne

end LocalNames
