import LocalNames.Proofs.Accounting
import LocalNames.Proofs.Collapse
import LocalNames.Proofs.Lookup

namespace LocalNames.Scope

open LocalNames.TypeName

theorem family?_new_of_isArray {method : Method} {ty : Text} (h : isArray ty) :
    (new method).family? ty = none := by
  have hb : ∀ seed ∈ Options.builtinFamilies, isArray seed.key = false := by decide
  rw [Option.eq_none_iff_forall_not_mem]
  intro f hf
  have hs := hb _ (exists_seed_of_family?_seeded hf)
  rw [h] at hs
  cases hs

theorem remap?_new_of_isArray {method : Method} {ty : Text} (h : isArray ty) :
    (new method).remap? ty = none := by
  rw [Option.eq_none_iff_forall_not_mem]
  intro target ht
  obtain ⟨rfl, -⟩ := remap?_new_eq_some_iff.1 ht
  exact absurd h (by decide)

/-- However the tables have grown, an array is drawn from under its derived key: a spelling that is
found in the table was registered under this key as well. -/
theorem Grows.drawnKey?_of_isArray {method : Method} {s : Scope} (h : Grows (new method) s)
    {ty : Text} (ha : isArray ty) : s.drawnKey? ty = some (key ty) := by
  have hnew {key : Text} (hd : s.drawnKey? ty = some key) (hk : isArray key) :
      s.drawnKey? ty = some (TypeName.key ty) := by
    rw [hd, h.eq_key_of_new (sound_new method) hd (family?_new_of_isArray hk)]
  rcases ownKey_or_unmatched s ty with ⟨key, hk⟩ | ⟨-, ⟨target, hr⟩ | hf⟩
  · cases hk with
    | exact hf => exact hnew (OwnKey.exact hf).drawnKey?_eq (by rwa [isArray_collapse])
    | lowered hc hf =>
      refine hnew (OwnKey.lowered hc hf).drawnKey?_eq ?_
      rwa [isArray_lowercase, isArray_collapse]
    | derived hn hr hd => exact (OwnKey.derived hn hr hd).drawnKey?_eq
  · rw [h.remaps, remap?_new_of_isArray ha] at hr
    cases hr
  · exact absurd (founds_iff.2 (by rw [ha, Bool.or_true])) hf

/-- All ways to write an array draw from one family, which goes by the number of draws from it. -/
theorem array_spellings_share (method : Method) (calls : List Call) {ty : Text}
    (h : ¬ ['.'] <:+ ty) :
    let key := TypeName.key (ty ++ markers 1)
    let s := (new method).performAll calls
    let types := calls.flatMap Call.types
    let issues := (new method).issuedAll calls
    let drawn := issues.countP (·.key? = some key)
    (∀ spelling, ArraySpelling ty spelling →
      s.drawnKey? spelling = some key ∧
        (s.draw spelling).name = (s.numbering key).name ∧
        (s.draw spelling).scope = s.put key (s.numbering key).advance) ∧
    (∀ (i : Nat) (spelling : Text), types[i]? = some spelling → ArraySpelling ty spelling →
      ∃ name, issues[i]? = some ⟨some key, name⟩) ∧
    namesOf key issues = (Family.ofBase (base (ty ++ markers 1))).names drawn ∧
    s.family? key =
      if drawn = 0 then none else some ⟨[base (ty ++ markers 1)], .ofNat drawn, true⟩ := by
  intro key s types issues drawn
  have hd {s' : Scope} (hg : Grows (new method) s') {spelling : Text}
      (hs : ArraySpelling ty spelling) : s'.drawnKey? spelling = some key := by
    rw [hg.drawnKey?_of_isArray hs.isArray, hs.key_eq h]
  refine ⟨fun spelling hs ↦ ?_, fun i spelling hi hs ↦ ?_, ?_⟩
  · have hk := hd (grows_performAll (new method) calls) hs
    exact ⟨hk, draw_of_drawnKey? hk⟩
  · have hk := hd (grows_drawAll (new method) (types.take i)) hs
    refine ⟨(((new method).drawAll (types.take i)).scope.draw spelling).name, ?_⟩
    simp only [issues, issuedAll_eq_issues, getElem?_issues, types, hi, Option.map_some]
    rw [← hk]
  · have hn : (new method).family? key = none := by
      apply family?_new_of_isArray
      rw [isArray_key]
      exact (ArraySpelling.dimensions 0).isArray
    have ha : Accounts (new method) issues s := accounts_performAll (new method) calls
    have hl : (namesOf key issues).length = drawn := namesOf_length_eq_countP key issues
    have hf : (new method).numbering key = .ofBase (base (ty ++ markers 1)) :=
      numbering_key_of_family?_eq_none hn
    have hz : namesOf key issues = [] ↔ drawn = 0 := by rw [← hl, List.length_eq_zero_iff]
    refine ⟨?_, ?_⟩
    · rw [← hf, ← hl]
      exact ha.names key
    · simp only [ha.family?_eq, hz, hl, hn, hf, Family.after_eq, Family.ofBase, UInt64.zero_add]

theorem array_spellings_share_string :
    let calls : List Call := [.draw "String[]", .draw "int", .draw "STRING[]", .draw "String[][]"]
    let s := (new ⟨"Demo", "run", "()V"⟩).performAll calls
    namesOf "string[]" ((new ⟨"Demo", "run", "()V"⟩).issuedAll calls) =
        (["astring", "astring1", "astring2"] : List Text) ∧
      s.family? "string[]" = some ⟨["astring"], 3, true⟩ ∧
      s.drawnKey? "String[]..." = some ("string[]" : Text) := by
  intro calls s
  have hd : ¬ ['.'] <:+ ("String" : Text) := by decide
  obtain ⟨hs, -, hn, hf⟩ := array_spellings_share ⟨"Demo", "run", "()V"⟩ calls hd
  have hk : key ("String" ++ markers 1) = ("string[]" : Text) := by decide +kernel
  rw [hk] at hs hn hf
  refine ⟨?_, ?_, ?_⟩
  · rw [hn]
    decide +kernel
  · rw [hf]
    decide +kernel
  · exact (hs _ (.arguments 1)).1

end LocalNames.Scope
