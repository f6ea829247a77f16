import LocalNames.Proofs.Toml.Number
import LocalNames.Proofs.Toml.Quoted

namespace LocalNames.Toml

variable {c : Char} {text rest : Text}

theorem isBlank_eq_false (h : c ≠ ' ') (h' : c ≠ '\t') : isBlank c = false := by
  simp [isBlank, h, h']

theorem quotedLine?_of_ne (hq : c ≠ '"') (hs : c ≠ '\'') (rest : Text) :
    quotedLine? (c :: rest) = none := by
  simp [quotedLine?, hq, hs]

theorem quoted?_of_ne (hq : c ≠ '"') (hs : c ≠ '\'') (rest : Text) :
    quoted? (c :: rest) = none := by
  simp [quoted?, quotedLine?_of_ne hq hs, hq, hs]

theorem ne_of_isTokenChar {d : Char} (h : isTokenChar c) (hd : isTokenChar d = false) : c ≠ d := by
  rintro rfl
  exact Bool.false_ne_true (hd.symm.trans h)

section

variable {token : Text} {d : Data}

theorem tokenLength_append (ht : ∀ c ∈ token, isTokenChar c) (hr : Date.read? token = none)
    (rest : Text) : tokenLength (token ++ '\n' :: rest) = token.length := by
  have hw : (token ++ '\n' :: rest).takeWhile isTokenChar = token := by
    rw [List.takeWhile_append_of_pos ht, List.takeWhile_cons_of_neg (by decide), List.append_nil]
  rw [tokenLength, hw, List.take_left, hr]

theorem flatValue?_token (hn : token ≠ []) (ht : ∀ c ∈ token, isTokenChar c)
    (hr : Date.read? token = none) (hs : scalar? token = some d) (rest : Text) :
    flatValue? (token ++ '\n' :: rest) = some (d, '\n' :: rest) := by
  have hq : quoted? (token ++ '\n' :: rest) = none := by
    obtain ⟨c, token', rfl⟩ := List.exists_cons_of_ne_nil hn
    have hc := ht c List.mem_cons_self
    exact quoted?_of_ne (ne_of_isTokenChar hc (by decide)) (ne_of_isTokenChar hc (by decide)) _
  simp only [flatValue?, hq, tokenLength_append ht hr, List.take_left, List.drop_left, hs]
  rfl

end

theorem flatValue?_quote (h : text.all isPlain) (hr : rest.head? ≠ some '"') :
    flatValue? (quote text ++ rest) = some (.text text, rest) := by
  rw [flatValue?, quoted?_quote h hr]
  rfl

theorem value?_of_ne (hl : text.head? ≠ some '[') (hb : text.head? ≠ some '\x7b') (depth : Nat) :
    value? depth text = flatValue? text := by
  cases depth with
  | zero => rfl
  | succ depth =>
    unfold value?
    split
    · exact absurd rfl hl
    · exact absurd rfl hb
    · rfl

theorem value?_quote (h : text.all isPlain) (hr : rest.head? ≠ some '"') (depth : Nat) :
    value? depth (quote text ++ rest) = some (.text text, rest) := by
  rw [value?_of_ne, flatValue?_quote h hr]
  · exact fun he ↦ by cases he
  · exact fun he ↦ by cases he

theorem elements?_blank (value? : Text → Option (Data × Text)) (fuel : Nat) (text : Text) :
    elements? value? fuel (' ' :: text) = elements? value? fuel text := by
  cases fuel <;> rfl

theorem elements?_succ {value? : Text → Option (Data × Text)} {d : Data} (fuel : Nat)
    (hs : skipLines false text = text) (hb : text.head? ≠ some ']')
    (hv : value? text = some (d, rest)) :
    elements? value? (fuel + 1) text =
      match skipLines false rest with
      | ']' :: rest => some ([d], rest)
      | ',' :: rest => (elements? value? fuel rest).map fun (ds, rest) ↦ (d :: ds, rest)
      | _ => none := by
  rw [elements?, hs]
  split
  · exact absurd rfl hb
  · rw [hv]
    rfl

theorem elements?_intercalate (depth : Nat) {t : Text} {ts : List Text} (ht : t.all isPlain)
    (hts : ∀ u ∈ ts, u.all isPlain) (rest : Text) {fuel : Nat} (hf : ts.length < fuel) :
    elements? (value? depth) fuel (List.intercalate ", " ((t :: ts).map quote) ++ ']' :: rest) =
      some ((t :: ts).map .text, rest) := by
  induction ts generalizing t fuel with
  | nil =>
    obtain ⟨fuel, rfl⟩ := Nat.exists_eq_add_one.2 hf
    rw [List.map_singleton, List.intercalate_singleton,
      elements?_succ fuel rfl (fun he ↦ by cases he) (value?_quote ht (fun he ↦ by cases he) depth)]
    rfl
  | cons u us ih =>
    obtain ⟨fuel, rfl⟩ : ∃ m, fuel = m + 1 := Nat.exists_eq_add_one.2 (Nat.zero_lt_of_lt hf)
    obtain ⟨hu, hus⟩ := List.forall_mem_cons.1 hts
    have hi := ih hu hus (Nat.lt_of_succ_lt_succ hf)
    rw [List.map_cons, List.map_cons, List.intercalate_cons_cons, List.append_assoc,
      List.append_assoc, elements?_succ fuel rfl (fun he ↦ by cases he)
        (value?_quote ht (fun he ↦ by cases he) depth)]
    -- a comma and a blank stand before the next text
    change (elements? _ fuel (' ' :: (List.intercalate ", " ((u :: us).map quote) ++ _))).map _ = _
    rw [elements?_blank, hi]
    rfl

theorem length_le_length_intercalate (texts : List Text) :
    texts.length ≤ (List.intercalate ", " (texts.map quote)).length := by
  induction texts with
  | nil => exact Nat.le_refl 0
  | cons t ts ih =>
    cases ts with
    | nil => simp [quote]
    | cons u us =>
      simp only [List.map_cons, List.intercalate_cons_cons, List.length_append,
        List.length_cons] at ih ⊢
      have hq : 0 < (quote t).length := Nat.succ_pos _
      omega

theorem value?_printTexts {texts : List Text} (h : ∀ t ∈ texts, t.all isPlain) (depth : Nat)
    (rest : Text) :
    value? (depth + 1) (printTexts texts ++ rest) = some (.list (texts.map .text), rest) := by
  cases texts with
  | nil => rfl
  | cons t ts =>
    obtain ⟨ht, hts⟩ := List.forall_mem_cons.1 h
    have hl := length_le_length_intercalate (t :: ts)
    simp only [printTexts, List.cons_append, List.append_assoc, List.nil_append, value?]
    rw [elements?_intercalate depth ht hts rest]
    · rfl
    · rw [List.length_append]
      simp only [List.length_cons] at hl
      omega

end LocalNames.Toml
