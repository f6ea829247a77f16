import LocalNames.Proofs.Batch
import LocalNames.Proofs.Text

namespace LocalNames

namespace TypeName

/-- The three parts of a type: its qualifiers up to the last dot, its simple name, and all that
comes from the first angle bracket on. -/
structure Parts (ty qualifiers name arguments : Text) : Prop where
  whole : ty = qualifiers ++ name ++ arguments
  qualifiers_end : qualifiers = [] ∨ ['.'] <:+ qualifiers
  arguments_start : arguments = [] ∨ ['<'] <+: arguments
  no_bracket : '<' ∉ qualifiers ++ name
  no_dot : '.' ∉ name

variable {ty q name arguments : Text}

theorem Parts.simple_eq (h : Parts ty q name arguments) : simple ty = name := by
  have hq : q.reverse = [] ∨ ['.'] <+: q.reverse := by
    refine h.qualifiers_end.imp List.reverse_eq_nil_iff.2 fun hs ↦ ?_
    exact List.reverse_prefix.2 hs
  have hn : '.' ∉ name.reverse := fun hm ↦ h.no_dot (List.mem_reverse.1 hm)
  rw [simple, h.whole, takeWhile_ne_append h.no_bracket h.arguments_start, List.reverse_append,
    takeWhile_ne_append hn hq, List.reverse_reverse]

theorem exists_parts (ty : Text) : ∃ q arguments, Parts ty q (simple ty) arguments := by
  obtain ⟨t, arguments, rfl, hb, ha⟩ := exists_append_of_char '<' ty
  -- the last dot is the first one from the end
  obtain ⟨u, rest, hr, hu, hd⟩ := exists_append_of_char '.' t.reverse
  have ht : t = rest.reverse ++ u.reverse := by
    rw [← List.reverse_append, ← hr, List.reverse_reverse]
  have hp : Parts (t ++ arguments) rest.reverse u.reverse arguments := by
    refine ⟨by rw [ht], ?_, ha, ht ▸ hb, fun hm ↦ hu (List.mem_reverse.1 hm)⟩
    refine hd.imp List.reverse_eq_nil_iff.2 fun hs ↦ ?_
    exact List.reverse_prefix.1 (by rwa [List.reverse_reverse])
  exact ⟨rest.reverse, arguments, hp.simple_eq.symm ▸ hp⟩

theorem Parts.of_name (h : Parts ty q name arguments) : Parts name [] name [] where
  whole := by rw [List.nil_append, List.append_nil]
  qualifiers_end := .inl rfl
  arguments_start := .inl rfl
  no_bracket := fun hm ↦ h.no_bracket (List.mem_append_right q hm)
  no_dot := h.no_dot

theorem Parts.qualify (h : Parts ty q name arguments) {p : Text} (hp : '<' ∉ p) :
    Parts (p ++ '.' :: ty) (p ++ '.' :: q) name arguments where
  whole := by rw [h.whole]; simp only [List.append_assoc, List.cons_append]
  qualifiers_end := by
    right
    rcases h.qualifiers_end with rfl | hs
    · exact List.suffix_append p ['.']
    · exact hs.trans ((List.suffix_cons '.' q).trans (List.suffix_append p ('.' :: q)))
  arguments_start := h.arguments_start
  no_bracket := by
    have hb := h.no_bracket
    simp only [List.mem_append, List.mem_cons, not_or] at hb ⊢
    exact ⟨⟨hp, by decide, hb.1⟩, hb.2⟩
  no_dot := h.no_dot

theorem Parts.apply (h : Parts ty q name arguments) (more : Text) :
    Parts (ty ++ '<' :: more) q name (arguments ++ '<' :: more) where
  whole := by rw [h.whole, List.append_assoc]
  qualifiers_end := h.qualifiers_end
  arguments_start := by
    right
    rcases h.arguments_start with rfl | hs
    · exact List.prefix_append ['<'] more
    · exact hs.trans (List.prefix_append arguments ('<' :: more))
  no_bracket := h.no_bracket
  no_dot := h.no_dot

end TypeName

open LocalNames.TypeName

def simplified (entries : List (Variable × Text)) : List (Variable × Text) :=
  (named entries).map fun e ↦ (e.1, simple e.2)

theorem ordered_simplified {l : List (Variable × Text)} (h : Ordered l) : Ordered (simplified l) :=
  List.pairwise_map.2 h.named

namespace Batch

variable {batch batch' : Batch}

theorem mem_simplified_sorted_iff {e : Variable × Text} : e ∈ simplified batch.sorted ↔
    ∃ ty, (e.1, ty) ∈ batch.entries ∧ ty ≠ receiver ∧ simple ty = e.2 := by
  rw [simplified, List.mem_map]
  constructor
  · rintro ⟨⟨v, ty⟩, hm, rfl⟩
    obtain ⟨hm, ht⟩ := mem_named.1 hm
    exact ⟨ty, batch.sorted_perm.mem_iff.1 hm, ht, rfl⟩
  · rintro ⟨ty, hm, ht, he⟩
    refine ⟨(e.1, ty), mem_named.2 ⟨batch.sorted_perm.mem_iff.2 hm, ht⟩, ?_⟩
    rw [he]

/-- Batches of the same variables, each of which is the receiver in both, or of types with the same
simple name. -/
structure Alike (batch batch' : Batch) : Prop where
  keys : batch.keys.Perm batch'.keys
  receivers : ∀ e ∈ batch.entries, ∀ e' ∈ batch'.entries, e.1 = e'.1 →
    (e.2 = receiver ↔ e'.2 = receiver)
  types : ∀ e ∈ batch.entries, ∀ e' ∈ batch'.entries, e.1 = e'.1 → e.2 ≠ receiver →
    simple e.2 = simple e'.2

theorem Alike.symm (h : batch.Alike batch') : batch'.Alike batch where
  keys := h.keys.symm
  receivers e he e' he' hv := (h.receivers e' he' e he hv.symm).symm
  types e he e' he' hv ht :=
    (h.types e' he' e he hv.symm (mt (h.receivers e' he' e he hv.symm).1 ht)).symm

theorem Alike.mem_simplified (h : batch.Alike batch') {e : Variable × Text}
    (hm : e ∈ simplified batch.sorted) : e ∈ simplified batch'.sorted := by
  obtain ⟨ty, hm, ht, he⟩ := mem_simplified_sorted_iff.1 hm
  have hk : e.1 ∈ batch'.keys := h.keys.mem_iff.1 (List.mem_map.2 ⟨_, hm, rfl⟩)
  obtain ⟨⟨v, ty'⟩, hm', hv⟩ := List.mem_map.1 hk
  obtain rfl : v = e.1 := hv
  refine mem_simplified_sorted_iff.2 ⟨ty', hm', ?_, ?_⟩
  · exact mt (h.receivers _ hm _ hm' rfl).2 ht
  · rw [← he]
    exact (h.types _ hm _ hm' rfl ht).symm

theorem Alike.simplified_eq (h : batch.Alike batch') :
    simplified batch.sorted = simplified batch'.sorted :=
  (ordered_simplified batch.ordered_sorted).ext (ordered_simplified batch'.ordered_sorted)
    fun _ ↦ ⟨h.mem_simplified, h.symm.mem_simplified⟩

end Batch

theorem typesOf_eq_map_simplified (l : List (Variable × Text)) :
    typesOf l = (simplified l).map Prod.snd := by
  rw [simplified, List.map_map]
  rfl

namespace Scope

theorem nameAll_eq_of_simplified (s : Scope) {l l' : List (Variable × Text)}
    (h : simplified l = simplified l') :
    (s.nameAll l).names = (s.nameAll l').names ∧ (s.nameAll l).scope = (s.nameAll l').scope := by
  have ht : typesOf l = typesOf l' := by
    rw [typesOf_eq_map_simplified, h, typesOf_eq_map_simplified]
  have hf (l : List (Variable × Text)) :
      (s.nameAll l).names.map Prod.fst = (simplified l).map Prod.fst := by
    rw [map_fst_names_nameAll, simplified, List.map_map]
    rfl
  obtain ⟨hn, hs⟩ := nameAll_eq_drawAll s l
  obtain ⟨hn', hs'⟩ := nameAll_eq_drawAll s l'
  refine ⟨?_, by rw [hs, hs', ht]⟩
  rw [List.zip_of_prod ((hf l).trans (congrArg _ h)) hn, List.zip_of_prod (hf l') hn', ht]

/-- The simple name of a type is the only text that its parts can have in their middle, and all that
a variable of the type is named by. -/
theorem simple_name_decides :
    (∀ ty : Text,
      (∀ name, (∃ q arguments, Parts ty q name arguments) ↔ name = simple ty) ∧
      simple (simple ty) = simple ty ∧
      (∀ p, '<' ∉ p → simple (p ++ '.' :: ty) = simple ty) ∧
      ∀ more, simple (ty ++ '<' :: more) = simple ty) ∧
    ∀ (s : Scope) (batch batch' : Batch), batch.Alike batch' →
      (s.rename batch).names = (s.rename batch').names ∧
        (s.rename batch).scope = (s.rename batch').scope := by
  refine ⟨fun ty ↦ ?_, fun s batch batch' h ↦ s.nameAll_eq_of_simplified h.simplified_eq⟩
  obtain ⟨q, arguments, h⟩ := exists_parts ty
  refine ⟨fun name ↦ ⟨fun ⟨_, _, hp⟩ ↦ hp.simple_eq.symm, ?_⟩, h.of_name.simple_eq,
    fun p hp ↦ (h.qualify hp).simple_eq, fun more ↦ (h.apply more).simple_eq⟩
  rintro rfl
  exact ⟨q, arguments, h⟩

theorem simple_name_decides_map :
    let s := new ⟨"Demo", "run", "()V"⟩
    let batch : Batch := .ofList [(⟨2, 0⟩, "int"), (⟨0, 0⟩, "this"), (⟨1, 0⟩, "a.this<T>")]
    let batch' : Batch := .ofList [(⟨1, 0⟩, "b.c.this"), (⟨0, 0⟩, "this"), (⟨2, 0⟩, "x.int<>")]
    simple "java.util.Map<K, a.b.List<V>>" = ("Map" : Text) ∧
      simple "Map.Entry<K<V>, a.b>.Node<T>" = simple "Entry" ∧
      (s.rename batch).names = (s.rename batch').names := by
  intro s batch batch'
  obtain ⟨hs, hb⟩ := simple_name_decides
  refine ⟨?_, ?_, (hb s batch batch' ⟨by decide, by decide, by decide⟩).1⟩
  · have hp : Parts "java.util.Map<K, a.b.List<V>>" "java.util." "Map" "<K, a.b.List<V>>" :=
      ⟨rfl, .inr ⟨"java.util", rfl⟩, .inr ⟨"K, a.b.List<V>>", rfl⟩, by decide, by decide⟩
    exact (((hs "java.util.Map<K, a.b.List<V>>").1 "Map").1 ⟨_, _, hp⟩).symm
  · have ha := (hs "Map.Entry").2.2.2 "K<V>, a.b>.Node<T>"
    exact ha.trans ((hs "Entry").2.2.1 "Map" (by decide))

end Scope

end LocalNames
