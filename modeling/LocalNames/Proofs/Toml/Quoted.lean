import LocalNames.Options.Toml

namespace LocalNames.Toml

def isPlain (c : Char) : Bool := c ≠ '"' && c ≠ '\\' && ' ' ≤ c && c ≠ '\x7f'

variable {c : Char} {text rest : Text}

theorem isPlain_iff : isPlain c ↔ c ≠ '"' ∧ c ≠ '\\' ∧ ' ' ≤ c ∧ c ≠ '\x7f' := by
  simp only [isPlain, Bool.and_eq_true, decide_eq_true_eq, and_assoc]

theorem isPrintable_of_isPlain (h : isPlain c) : isPrintable c := by
  obtain ⟨-, -, hs, hd⟩ := isPlain_iff.1 h
  simp [isPrintable, hs, hd]

theorem ne_of_isPlain {d : Char} (h : isPlain c) (hd : d < ' ') : c ≠ d := by
  rintro rfl
  exact Char.not_lt.2 (isPlain_iff.1 h).2.2.1 hd

theorem escape_of_isPlain (h : isPlain c) : escape c = [c] := by
  obtain ⟨hq, hb, -⟩ := isPlain_iff.1 h
  have ht : c ≠ '\t' := ne_of_isPlain h (by decide)
  simp [escape, hq, hb, ht, isPrintable_of_isPlain h]

theorem all_cons_iff : (c :: text).all isPlain ↔ isPlain c ∧ text.all isPlain := by
  rw [List.all_cons, Bool.and_eq_true]

theorem quote_eq (h : text.all isPlain) : quote text = '"' :: text ++ ['"'] := by
  have hf : text.flatMap escape = text := by
    induction text with
    | nil => rfl
    | cons c text ih =>
      obtain ⟨hc, ht⟩ := all_cons_iff.1 h
      rw [List.flatMap_cons, escape_of_isPlain hc, ih ht, List.singleton_append]
  rw [quote, hf]

theorem basicContent_cons (h : isPlain c) (text : Text) :
    basicContent false .plain (c :: text) = prepend c (basicContent false .plain text) := by
  obtain ⟨hq, hb, -⟩ := isPlain_iff.1 h
  simp [basicContent, hq, hb, isPrintable_of_isPlain h]

theorem basicContent_append (h : text.all isPlain) (rest : Text) :
    basicContent false .plain (text ++ '"' :: rest) = some (text, rest) := by
  induction text with
  | nil => rfl
  | cons c text ih =>
    obtain ⟨hc, ht⟩ := all_cons_iff.1 h
    rw [List.cons_append, basicContent_cons hc, ih ht]
    rfl

theorem quotedLine?_quote (h : text.all isPlain) (rest : Text) :
    quotedLine? (quote text ++ rest) = some (text, rest) := by
  rw [quote_eq h, List.append_assoc]
  exact basicContent_append h rest

/-- What follows must not make three quotes of an empty string. -/
theorem quoted?_quote (h : text.all isPlain) (hr : rest.head? ≠ some '"') :
    quoted? (quote text ++ rest) = some (text, rest) := by
  have hl := quotedLine?_quote h rest
  rw [quote_eq h] at hl ⊢
  unfold quoted?
  split
  · rename_i after ht
    cases text with
    | nil =>
      have he : rest = '"' :: after := by simpa using ht
      exact absurd (congrArg List.head? he) hr
    | cons c text =>
      have hc : c = '"' := (List.cons.inj (List.cons.inj ht).2).1
      exact absurd hc (isPlain_iff.1 (all_cons_iff.1 h).1).1
  · rename_i ht
    cases ht
  · exact hl

end LocalNames.Toml
