import LocalNames.Proofs.Batch
import LocalNames.Proofs.Collapse
import LocalNames.Proofs.Numbering
import LocalNames.Proofs.Stability

namespace LocalNames

open LocalNames.TypeName

/-- A name that can stand for a variable of a type whose own name is `word`. It may start with a
digit only if the type name does. -/
structure PlainFor (word name : Text) : Prop where
  ne_nil : name ≠ []
  unmarked : ∀ c ∈ name, isMark c = false
  digit : ∀ c, name.head? = some c → c.isDigit → ∃ d, word.head? = some d ∧ d.isDigit

theorem isMark_eq_false_of_isDigit {c : Char} (h : c.isDigit) : isMark c = false := by
  rw [Bool.eq_false_iff]
  intro hm
  simp only [isMark, Bool.or_eq_true, beq_iff_eq] at hm
  rcases hm with ((rfl | rfl) | rfl) | rfl <;> exact absurd h (by decide)

theorem IsSuffix.unmarked {d : Text} (h : IsSuffix d) : ∀ c ∈ d, isMark c = false := by
  rcases h with rfl | ⟨n, rfl⟩
  · simp
  · exact fun c hc ↦ isMark_eq_false_of_isDigit (isDigit_numeral n c hc)

variable {word name : Text}

theorem PlainFor.append {d : Text} (h : PlainFor word name) (hd : IsSuffix d) :
    PlainFor word (name ++ d) := by
  refine ⟨List.append_ne_nil_of_left_ne_nil h.ne_nil d, ?_, ?_⟩
  · exact List.forall_mem_append.2 ⟨h.unmarked, hd.unmarked⟩
  · rw [List.head?_append_of_ne_nil name h.ne_nil]
    exact h.digit

theorem Lowered.plainFor (h : Lowered word name) (hne : word ≠ [])
    (hw : ∀ c ∈ word, isMark c = false) : PlainFor word name := by
  cases h with
  | nil => exact absurd rfl hne
  | @cons c low t u hc h =>
    refine ⟨List.append_ne_nil_of_left_ne_nil hc.ne_nil u, (Lowered.cons hc h).unmarked hw, ?_⟩
    intro d hd hdd
    rw [List.head?_append_of_ne_nil low hc.ne_nil] at hd
    obtain rfl := hc.digit d (List.mem_of_mem_head? hd) hdd
    exact ⟨d, rfl, hdd⟩

theorem PlainFor.array (h : PlainFor word name) : PlainFor word ('a' :: name) := by
  refine ⟨List.cons_ne_nil _ _, List.forall_mem_cons.2 ⟨rfl, h.unmarked⟩, ?_⟩
  intro c hc hd
  cases hc
  exact absurd hd (by decide)

theorem plainFor_builtin {seed : Seed} (hs : seed ∈ Options.builtinFamilies)
    (hm : name ∈ seed.family.candidates) : PlainFor word name := by
  have h : ∀ seed ∈ Options.builtinFamilies, ∀ a ∈ seed.family.candidates,
      a ≠ [] ∧ a.all (!isMark ·) ∧ a.head?.all (!·.isDigit) := by decide
  obtain ⟨hne, hu, hd⟩ := h seed hs name hm
  refine ⟨hne, fun c hc ↦ ?_, fun c hc hdc ↦ ?_⟩
  · simpa using List.all_eq_true.1 hu c hc
  · rw [hc, Option.all_some, hdc] at hd
    cases hd

namespace TypeName

theorem hasNestedArray_append (hw : ∀ c ∈ word, isMark c = false) (u : Text) :
    hasNestedArray (word ++ u) = hasNestedArray u := by
  rw [Bool.eq_iff_iff, hasNestedArray_iff, hasNestedArray_iff]
  exact infix_append_of_unmarked (List.all_eq_true.1 rfl) (by simp) hw

theorem hasEllipsis_append (hw : ∀ c ∈ word, isMark c = false) (u : Text) :
    hasEllipsis (word ++ u) = hasEllipsis u := by
  rw [Bool.eq_iff_iff, hasEllipsis_iff, hasEllipsis_iff]
  exact infix_append_of_unmarked (List.all_eq_true.1 rfl) (by simp) hw

theorem hasEllipsis_markers (n : Nat) : hasEllipsis (markers n) = false := by
  rw [← ellipsisToArray_markers, hasEllipsis_ellipsisToArray]

theorem dropArrays_append_marker (hw : ∀ c ∈ word, isMark c = false) :
    dropArrays (word ++ markers 1) = word := by
  induction word with
  | nil => rfl
  | cons c word ih =>
    obtain ⟨hc, hw⟩ := List.forall_mem_cons.1 hw
    have hne : ∀ rest, c = '[' → word ++ markers 1 = ']' :: rest → False := by
      rintro rest rfl -
      cases hc
    rw [List.cons_append, dropArrays.eq_2 _ _ hne, ih hw]

theorem dot_not_mem_append_markers {u : Text} (hu : ∀ c ∈ u, isMark c = false) (n : Nat) :
    '.' ∉ u ++ markers n := by
  have hm : '.' ∉ markers n := by
    induction n with
    | zero => exact List.not_mem_nil
    | succ n ih => simpa [markers] using ih
  rintro h
  rcases List.mem_append.1 h with h | h
  · exact absurd (hu '.' h) (by decide)
  · exact hm h

theorem filter_append_markers {u : Text} (hu : ∀ c ∈ u, isMark c = false) (n : Nat) :
    (u ++ markers n).filter (· ≠ '.') = u ++ markers n := by
  apply List.filter_eq_self.2
  intro c hc
  exact decide_eq_true fun h ↦ dot_not_mem_append_markers hu n (h ▸ hc)

theorem isArray_append_markers (hw : ∀ c ∈ word, isMark c = false) (n : Nat) :
    isArray (word ++ markers n) ↔ n ≠ 0 := by
  rw [isArray, hasEllipsis_append hw, hasEllipsis_markers, Bool.or_false, List.contains_iff_mem,
    List.mem_append, or_iff_right (fun h ↦ absurd (hw '[' h) (by decide))]
  cases n with
  | zero => simp [markers]
  | succ n => simp [markers]

/-- The base of a type, or of an array of it, is the lowercase of its name, behind an `a` for an
array. -/
theorem exists_base_eq (hw : ∀ c ∈ word, isMark c = false) (n : Nat) :
    ∃ low, Lowered word low ∧ base (word ++ markers n) = if n = 0 then low else 'a' :: low := by
  have he : hasEllipsis (word ++ markers n) = false := by
    rw [hasEllipsis_append hw, hasEllipsis_markers]
  have hn (m : Nat) (hm : hasNestedArray (markers m) = false) :
      collapse (word ++ markers m) = word ++ markers m :=
    collapse_of_not_hasNestedArray ((hasNestedArray_append hw _).trans hm)
  rw [base_eq, key_of_not_hasEllipsis he]
  cases n with
  | zero =>
    have hl := lowered_lowercase word
    have hf := filter_append_markers (hl.unmarked hw) 0
    have ha : ¬ isArray (word ++ markers 0) := fun h ↦ (isArray_append_markers hw 0).1 h rfl
    rw [if_neg ha, hn 0 rfl]
    simp only [markers, List.append_nil] at hf ⊢
    exact ⟨_, hl, hf⟩
  | succ n =>
    have hl := lowered_lowercase (word ++ markers 1)
    obtain ⟨low, low', hu, hlow, hlow'⟩ := hl.exists_append
    obtain rfl := hlow'.eq_of_marks (List.all_eq_true.1 rfl)
    have hu' := hlow.unmarked hw
    refine ⟨low, hlow, ?_⟩
    rw [if_pos ((isArray_append_markers hw _).2 (Nat.succ_ne_zero n)), collapse_append_markers,
      hn 1 rfl, hu, filter_append_markers hu', if_neg (Nat.succ_ne_zero n)]
    exact dropArrays_append_marker (List.forall_mem_cons.2 ⟨rfl, hu'⟩)

end TypeName

theorem plainFor_base (hne : word ≠ []) (hw : ∀ c ∈ word, isMark c = false) (n : Nat) :
    PlainFor word (base (word ++ markers n)) := by
  obtain ⟨low, hl, hb⟩ := exists_base_eq hw n
  rw [hb]
  split
  · exact hl.plainFor hne hw
  · exact (hl.plainFor hne hw).array

namespace Scope

theorem candidates_of_drawnKey? (method : Method) (tys : List Text) {ty key : Text} :
    let s := ((new method).drawAll tys).scope
    s.drawnKey? ty = some key →
    (∃ seed ∈ Options.builtinFamilies, (s.numbering key).candidates = seed.family.candidates) ∨
      (s.numbering key).candidates = [base ty] := by
  intro s hd
  have hc : (s.numbering key).candidates = ((new method).numbering key).candidates := by
    rw [(leads_drawAll (new method) tys).numbering, Family.candidates_after]
  rw [hc]
  cases hf : (new method).family? key with
  | some f =>
    left
    exact ⟨_, exists_seed_of_family?_seeded hf, by rw [numbering_of_family? hf]⟩
  | none =>
    right
    obtain rfl := (grows_drawAll (new method) tys).eq_key_of_new (sound_new method) hd hf
    rw [numbering_key_of_family?_eq_none hf, Family.ofBase]

theorem plainFor_draw (method : Method) (tys : List Text) (hne : word ≠ [])
    (hw : ∀ c ∈ word, isMark c = false) (n : Nat) :
    PlainFor word ((((new method).drawAll tys).scope).draw (word ++ markers n)).name := by
  have hs : ((new method).drawAll tys).scope.Sound := (sound_new method).drawAll tys
  cases hd : ((new method).drawAll tys).scope.drawnKey? (word ++ markers n) with
  | some key =>
    have hc := hs.candidates_numbering_ne_nil key
    rw [(draw_of_drawnKey? hd).1, Family.name_eq hc]
    refine PlainFor.append ?_ (Family.isSuffix_suffix _)
    have hm := Family.candidate_mem hc
    rcases candidates_of_drawnKey? method tys hd with ⟨seed, hseed, he⟩ | he
    · exact plainFor_builtin hseed (he ▸ hm)
    · rw [he, List.mem_singleton] at hm
      rw [hm]
      exact plainFor_base hne hw n
  | none =>
    -- only the type itself keeps its name, no array of it
    have hf := hs.not_founds_of_drawnKey?_eq_none hd
    have hn : n = 0 := by
      by_contra hn
      exact hf (founds_iff.2 (by rw [(isArray_append_markers hw n).2 hn, Bool.or_true]))
    subst hn
    rw [draw_of_drawnKey?_eq_none hd, keep, markers, List.append_nil]
    exact (lowered_lowercase word).plainFor hne hw

theorem exists_find?_nameAll (s : Scope) {l : List (Variable × Text)} {v : Variable} {ty : Text}
    (hm : (v, ty) ∈ l) (hn : (l.map Prod.fst).Nodup) (ht : ty ≠ receiver) :
    ∃ tys, Assoc.find? v (s.nameAll l).names =
      some (((s.drawAll tys).scope).draw (simple ty)).name := by
  induction l generalizing s with
  | nil => cases hm
  | cons e l ih =>
    obtain ⟨w, u⟩ := e
    obtain ⟨hw, hn⟩ := List.nodup_cons.1 hn
    rcases List.mem_cons.1 hm with he | hm
    · cases he
      refine ⟨[], ?_⟩
      rw [nameAll, if_neg ht, Assoc.find?_cons, if_pos rfl]
      rfl
    · have hne : w ≠ v := fun h ↦ hw (List.mem_map.2 ⟨(v, ty), hm, h.symm⟩)
      by_cases hu : u = receiver
      · rw [nameAll, if_pos hu]
        exact ih s hm hn
      · obtain ⟨tys, hf⟩ := ih (s.draw (simple u)).scope hm hn
        refine ⟨simple u :: tys, ?_⟩
        rw [nameAll, if_neg hu, Assoc.find?_cons, if_neg hne]
        exact hf

/-- No variable of a plain type, or of arrays of one, is given a name with marks in it, whatever
types were named before. -/
theorem rename_plain (method : Method) (calls : List Call) {batch : Batch} {v : Variable}
    {ty : Text} (hv : batch.get? v = some ty) (ht : ty ≠ receiver) {n : Nat}
    (hs : simple ty = word ++ markers n) (hne : word ≠ []) (hw : ∀ c ∈ word, isMark c = false) :
    let s := (new method).performAll calls
    ∃ name, Assoc.find? v (s.rename batch).names = some name ∧ PlainFor word name := by
  intro s
  have hm : (v, ty) ∈ batch.sorted := (mem_named.1 (Batch.mem_named_sorted_iff.2 ⟨hv, ht⟩)).1
  obtain ⟨tys, hf⟩ := exists_find?_nameAll s hm (Batch.nodup_keys_of_perm batch.sorted_perm) ht
  refine ⟨_, hf, ?_⟩
  simp only [s, performAll_eq_drawAll, ← drawAll_append_scope, hs]
  exact plainFor_draw method _ hne hw n

theorem rename_plain_gadget :
    let s := (new ⟨"Demo", "run", "()V"⟩).performAll [.draw "GADGET[]...", .draw "a.[b"]
    let batch : Batch := .ofList [(⟨1, 0⟩, "demo.Gadget[][]<int>"), (⟨2, 0⟩, "9Lives")]
    (∃ name, Assoc.find? ⟨1, 0⟩ (s.rename batch).names = some name ∧ PlainFor "Gadget" name) ∧
      ∃ name, Assoc.find? ⟨2, 0⟩ (s.rename batch).names = some name ∧ PlainFor "9Lives" name := by
  intro s batch
  have hg : batch.get? ⟨1, 0⟩ = some ("demo.Gadget[][]<int>" : Text) := by decide
  have hl : batch.get? ⟨2, 0⟩ = some ("9Lives" : Text) := by decide
  have hs : simple "demo.Gadget[][]<int>" = "Gadget" ++ markers 2 := by decide
  have hs' : simple "9Lives" = "9Lives" ++ markers 0 := by decide
  have hw {word : Text} (h : word.all (!isMark ·)) : ∀ c ∈ word, isMark c = false := by
    simpa using List.all_eq_true.1 h
  refine ⟨rename_plain _ _ hg (by decide) hs (by decide) (hw (by decide)), ?_⟩
  exact rename_plain _ _ hl (by decide) hs' (by decide) (hw (by decide))

end Scope

end LocalNames
