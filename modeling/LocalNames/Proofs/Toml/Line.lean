import LocalNames.Proofs.Toml.Value
import LocalNames.Toml

namespace LocalNames.Toml

variable {key v text rest : Text} {d : Data} {lines : List Line}

theorem exists_printKey (key : Text) :
    ∃ c t, printKey key = c :: t ∧ (c = '"' ∨ isBareKeyChar c) := by
  unfold printKey
  split
  · rename_i h
    obtain ⟨c, t, rfl⟩ := List.exists_cons_of_ne_nil h.1
    exact ⟨c, t, rfl, .inr (List.all_eq_true.1 h.2 c List.mem_cons_self)⟩
  · exact ⟨'"', _, rfl, .inl rfl⟩

theorem head?_printKey_append {c : Char} (hq : c ≠ '"') (hb : isBareKeyChar c = false)
    (key rest : Text) : (printKey key ++ rest).head? ≠ some c := by
  obtain ⟨c', t, hk, hs⟩ := exists_printKey key
  rw [hk]
  rintro he
  obtain rfl := Option.some.inj he
  rcases hs with rfl | hs
  · exact hq rfl
  · exact Bool.false_ne_true (hb.symm.trans hs)

theorem skipBlanks_of_head? (hs : text.head? ≠ some ' ') (ht : text.head? ≠ some '\t') :
    skipBlanks text = text := by
  cases text with
  | nil => rfl
  | cons c text =>
    have hb : isBlank c = false :=
      isBlank_eq_false (fun h ↦ hs (congrArg some h)) (fun h ↦ ht (congrArg some h))
    rw [skipBlanks, List.dropWhile_cons_of_neg]
    rw [hb]
    exact Bool.false_ne_true

theorem skipBlanks_printKey_append (key rest : Text) :
    skipBlanks (printKey key ++ rest) = printKey key ++ rest :=
  skipBlanks_of_head? (head?_printKey_append (by decide) (by decide) key rest)
    (head?_printKey_append (by decide) (by decide) key rest)

theorem keyPart?_printKey (h : key.all isPlain) (rest : Text) :
    keyPart? (printKey key ++ ' ' :: rest) = some (key, ' ' :: rest) := by
  unfold printKey
  split
  · rename_i hk
    obtain ⟨hn, hb⟩ := hk
    have hq : quotedLine? (key ++ ' ' :: rest) = none := by
      obtain ⟨c, t, rfl⟩ := List.exists_cons_of_ne_nil hn
      have hc : isBareKeyChar c := List.all_eq_true.1 hb c List.mem_cons_self
      apply quotedLine?_of_ne <;> (rintro rfl; cases hc)
    have hw : (key ++ ' ' :: rest).takeWhile isBareKeyChar = key := by
      rw [List.takeWhile_append_of_pos (List.all_eq_true.1 hb),
        List.takeWhile_cons_of_neg (by decide), List.append_nil]
    rw [keyPart?, hq, hw, if_neg hn, List.drop_left]
    rfl
  · rw [keyPart?, quotedLine?_quote h]
    rfl

theorem key?_printKey (h : key.all isPlain) (rest : Text) :
    key? (printKey key ++ ' ' :: '=' :: rest) = some (⟨[], key⟩, '=' :: rest) := by
  have hp : keyParts? (depthLimit - 1) (printKey key ++ ' ' :: '=' :: rest) =
      some ([key], '=' :: rest) := by
    change keyParts? (77 + 1 + 1) _ = _
    rw [keyParts?, skipBlanks_printKey_append, keyPart?_printKey h]
    rfl
  rw [key?, hp]
  rfl

theorem not_mem_quote (h : text.all isPlain) : '\x0d' ∉ quote text := by
  have ht : '\x0d' ∉ text := fun hm ↦ by cases List.all_eq_true.1 h _ hm
  simp [quote_eq h, ht]

theorem not_mem_printKey (h : key.all isPlain) : '\x0d' ∉ printKey key := by
  unfold printKey
  split
  · exact fun hm ↦ by cases List.all_eq_true.1 h _ hm
  · exact not_mem_quote h

/-- What is written stands for a value where its line ends after it. -/
structure Printed (v : Text) (d : Data) : Prop where
  skipBlanks_eq (rest : Text) : skipBlanks (v ++ rest) = v ++ rest
  value?_eq (rest : Text) : value? (depthLimit - 1) (v ++ '\n' :: rest) = some (d, '\n' :: rest)
  not_mem : '\x0d' ∉ v

theorem printed_quote (h : text.all isPlain) : Printed (quote text) (.text text) :=
  ⟨fun _ ↦ rfl, fun _ ↦ value?_quote h (fun he ↦ by cases he) _, not_mem_quote h⟩

theorem not_mem_intercalate {texts : List Text} (h : ∀ t ∈ texts, t.all isPlain) :
    '\x0d' ∉ List.intercalate ", " (texts.map quote) := by
  induction texts with
  | nil => exact List.not_mem_nil
  | cons t ts ih =>
    obtain ⟨ht, hts⟩ := List.forall_mem_cons.1 h
    have hq := not_mem_quote ht
    cases ts with
    | nil => simpa using hq
    | cons u us =>
      rw [List.map_cons, List.map_cons, List.intercalate_cons_cons, List.mem_append,
        List.mem_append, not_or, not_or]
      exact ⟨⟨hq, by decide⟩, ih hts⟩

theorem printed_printTexts {texts : List Text} (h : ∀ t ∈ texts, t.all isPlain) :
    Printed (printTexts texts) (.list (texts.map .text)) := by
  refine ⟨fun _ ↦ rfl, fun rest ↦ value?_printTexts h _ ('\n' :: rest), ?_⟩
  rw [printTexts, List.cons_append, List.mem_cons, List.mem_append, not_or, not_or]
  exact ⟨by decide, not_mem_intercalate h, by decide⟩

theorem printed_printBool (b : Bool) : Printed (printBool b) (.bool b) := by
  cases b with
  | false => exact ⟨fun _ ↦ rfl, fun _ ↦ rfl, by decide⟩
  | true => exact ⟨fun _ ↦ rfl, fun _ ↦ rfl, by decide⟩

theorem isTokenChar_of_isDigit {c : Char} (h : c.isDigit) : isTokenChar c := by
  simp [isTokenChar, Char.isAlphanum, h]

theorem printed_numeral {n : Nat} (h : n < 0x8000000000000000) : Printed (numeral n) (.int n) := by
  have hd := isDigit_numeral n
  have hh {c : Char} (hc : c.isDigit = false) (rest : Text) :
      (numeral n ++ rest).head? ≠ some c := by
    rw [List.head?_append_of_ne_nil _ (numeral_ne_nil n)]
    intro he
    exact Bool.false_ne_true (hc.symm.trans (hd c (List.mem_of_head? he)))
  refine ⟨fun rest ↦ ?_, fun rest ↦ ?_, fun hm ↦ by cases hd _ hm⟩
  · exact skipBlanks_of_head? (hh (by decide) rest) (hh (by decide) rest)
  · rw [value?_of_ne (hh (by decide) _) (hh (by decide) _)]
    exact flatValue?_token (numeral_ne_nil n) (fun c hc ↦ isTokenChar_of_isDigit (hd c hc))
      (read?_of_isDigit hd) (scalar?_numeral h) rest

def entry (key v : Text) : Text := printKey key ++ " = " ++ v

theorem entry_append (key v rest : Text) :
    entry key v ++ rest = printKey key ++ ' ' :: '=' :: ' ' :: (v ++ rest) := by
  simp [entry]

theorem head?_entry_append {c : Char} (hq : c ≠ '"') (hb : isBareKeyChar c = false)
    (key v rest : Text) : (entry key v ++ rest).head? ≠ some c := by
  rw [entry_append]
  exact head?_printKey_append hq hb key _

theorem line?_entry (hk : key.all isPlain) (hv : Printed v d) (rest : Text) :
    line? (entry key v ++ '\n' :: rest) = some (.entry ⟨[], key⟩ d, '\n' :: rest) := by
  have hb := head?_entry_append (c := '[') (by decide) (by decide) key v ('\n' :: rest)
  have he : keyed? (value? (depthLimit - 1)) (entry key v ++ '\n' :: rest) =
      some ((⟨[], key⟩, d), '\n' :: rest) := by
    rw [entry_append, keyed?, key?_printKey hk]
    change (value? _ (skipBlanks (v ++ '\n' :: rest))).map _ = _
    rw [hv.skipBlanks_eq, hv.value?_eq]
    rfl
  unfold line?
  split
  · rename_i ht
    exact absurd (congrArg List.head? ht) hb
  · rename_i ht
    exact absurd (congrArg List.head? ht) hb
  · rw [he]
    rfl

theorem not_mem_entry (hk : key.all isPlain) (hv : Printed v d) : '\x0d' ∉ entry key v := by
  rw [entry, List.mem_append, List.mem_append, not_or, not_or]
  exact ⟨⟨not_mem_printKey hk, by decide⟩, hv.not_mem⟩

/-- A text with these lines, whatever the fuel, as long as it lasts for all of it. -/
structure Reads (text : Text) (lines : List Line) : Prop where
  linesIn?_eq {fuel : Nat} : text.length ≤ fuel → linesIn? fuel text = some lines
  not_mem : '\x0d' ∉ text

theorem reads_nil : Reads [] [] := by
  refine ⟨fun {fuel} _ ↦ ?_, List.not_mem_nil⟩
  cases fuel <;> rfl

theorem Reads.vacant (h : Reads rest lines) : Reads ('\n' :: rest) lines := by
  refine ⟨fun {fuel} hf ↦ ?_, ?_⟩
  · obtain ⟨fuel, rfl⟩ := Nat.exists_eq_add_one.2 (Nat.zero_lt_of_lt hf)
    exact h.linesIn?_eq (Nat.le_of_succ_le_succ hf)
  · simp [h.not_mem]

theorem isVacant_eq_false (hn : text ≠ []) (hl : text.head? ≠ some '\n')
    (hc : text.head? ≠ some '#') : isVacant text = false := by
  obtain ⟨c, t, rfl⟩ := List.exists_cons_of_ne_nil hn
  apply decide_eq_false
  rintro (rfl | rfl)
  · exact hl rfl
  · exact hc rfl

theorem Reads.line {l : Line} (start : Text) (h : Reads rest lines) (hn : '\x0d' ∉ start)
    (hs : skipBlanks (start ++ '\n' :: rest) = start ++ '\n' :: rest)
    (hv : isVacant (start ++ '\n' :: rest) = false)
    (hl : line? (start ++ '\n' :: rest) = some (l, '\n' :: rest)) :
    Reads (start ++ '\n' :: rest) (l :: lines) := by
  refine ⟨fun {fuel} hf ↦ ?_, ?_⟩
  · rw [List.length_append, List.length_cons] at hf
    obtain ⟨fuel, rfl⟩ : ∃ m, fuel = m + 1 := Nat.exists_eq_add_one.2 (by omega)
    have hr : linesIn? fuel rest = some lines := h.linesIn?_eq (by omega)
    have he : endLine? ('\n' :: rest) = some rest := rfl
    rw [linesIn?]
    · simp only [hs, hv, hl, Bool.false_eq_true, if_false, Option.bind_eq_bind, Option.bind_some,
        he, hr]
      rfl
    · exact fun hnil ↦ by simp at hnil
  · simp [hn, h.not_mem]

theorem Reads.entry (h : Reads rest lines) (hk : key.all isPlain) (hv : Printed v d) :
    Reads (entry key v ++ '\n' :: rest) (.entry ⟨[], key⟩ d :: lines) := by
  have hh {c : Char} (hq : c ≠ '"') (hb : isBareKeyChar c = false) :=
    head?_entry_append hq hb key v ('\n' :: rest)
  apply h.line _ (not_mem_entry hk hv)
  · exact skipBlanks_of_head? (hh (by decide) (by decide)) (hh (by decide) (by decide))
  · exact isVacant_eq_false (by simp) (hh (by decide) (by decide)) (hh (by decide) (by decide))
  · exact line?_entry hk hv rest

theorem Reads.table (h : Reads rest lines) :
    Reads ("[remap]\n" ++ rest) (.table ⟨[], "remap"⟩ :: lines) :=
  h.line "[remap]" (by decide) rfl rfl rfl

theorem Reads.element (h : Reads rest lines) :
    Reads ("[[family]]\n" ++ rest) (.element ⟨[], "family"⟩ :: lines) :=
  h.line "[[family]]" (by decide) rfl rfl rfl

theorem joinLineEnds_of_not_mem (h : '\x0d' ∉ text) : joinLineEnds text = text := by
  fun_induction joinLineEnds text with
  | case1 rest ih => exact absurd List.mem_cons_self h
  | case2 c rest hne ih => rw [ih (mt (List.mem_cons_of_mem c) h)]
  | case3 => rfl

theorem dropByteOrderMark_of_head? (h : text.head? ≠ some '\ufeff') :
    dropByteOrderMark text = text := by
  unfold dropByteOrderMark
  split
  · exact absurd rfl h
  · rfl

theorem Reads.read?_eq {draft : Draft} (h : Reads text lines)
    (hb : text.head? ≠ some '\ufeff') (hd : Draft.ofLines? lines = some draft) :
    read? text = some (.record (fieldsToData draft.fields)) := by
  rw [read?, dropByteOrderMark_of_head? hb, joinLineEnds_of_not_mem h.not_mem, lines?,
    h.linesIn?_eq (Nat.le_refl _)]
  simp only [Option.bind_eq_bind, Option.bind_some, hd]
  rfl

end LocalNames.Toml
