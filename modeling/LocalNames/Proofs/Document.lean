import LocalNames.Options.Document
import LocalNames.Proofs.Options

namespace LocalNames

open Options

def Seed.last? (key : Text) (seeds : List Seed) : Option Family :=
  (seeds.filter (·.key = key)).getLast?.map Seed.family

theorem Seed.last?_append (key : Text) (seeds seeds' : List Seed) :
    last? key (seeds ++ seeds') = (last? key seeds').or (last? key seeds) := by
  rw [last?, List.filter_append, List.getLast?_append, last?, last?]
  cases (seeds'.filter (·.key = key)).getLast? <;> rfl

theorem Seed.find?_reverse_eq_last? (key : Text) (seeds : List Seed) :
    Assoc.find? key (seeds.map fun s ↦ (s.key, s.family)).reverse = last? key seeds := by
  induction seeds with
  | nil => rfl
  | cons seed seeds ih =>
    have hs : Assoc.find? key [(seed.key, seed.family)] = last? key [seed] := by
      by_cases h : seed.key = key <;> simp [Assoc.find?_cons, last?, h]
    rw [List.map_cons, List.reverse_cons, Assoc.find?_append, ih, hs, ← last?_append]
    rfl

theorem Seed.last?_eq_none {key : Text} {seeds : List Seed} (h : key ∉ seeds.map Seed.key) :
    last? key seeds = none := by
  have hn : seeds.filter (·.key = key) = [] := by
    apply List.filter_eq_nil_iff.2
    intro seed hs he
    exact h (List.mem_map.2 ⟨seed, hs, of_decide_eq_true he⟩)
  rw [last?, hn]
  rfl

theorem Scope.family?_seeded_eq_last? (method : Method) (o : Options) (key : Text) :
    (seeded method o).family? key = Seed.last? key o.families :=
  (family?_seeded method o key).trans (Seed.find?_reverse_eq_last? key o.families)

theorem Options.validate_eq_ok_iff {o : Options} : o.validate = .ok () ↔ o.defect? = none := by
  unfold validate
  cases o.defect? <;> simp

/-- What options say is what holds in the scopes made of them. -/
theorem Options.exists_withOptions {o : Options} (h : o.validate = .ok ()) (method : Method) :
    ∃ s, Scope.withOptions method o = .ok s ∧
      (∀ key, s.family? key = Seed.last? key o.families) ∧
      ∀ source, s.remap? source = o.remaps.get? source := by
  refine ⟨.seeded method o, ?_, Scope.family?_seeded_eq_last? method o, fun _ ↦ rfl⟩
  exact Scope.withOptions_eq_ok_iff.2 ⟨validate_eq_ok_iff.1 h, rfl⟩

namespace Document

variable {d : Document}

def ownFamilies (d : Document) : List Seed := d.families.getD []

def ownKeys (d : Document) : List Text := d.ownFamilies.map Seed.key

def ownRemaps (d : Document) : Table Text Text := d.remaps.getD .empty

theorem toOptions_of_extends (h : d.extendBuiltins = true) : d.toOptions =
    ⟨builtinFamilies ++ d.ownFamilies, builtinRemaps.insertAll d.ownRemaps.entries⟩ := by
  rw [toOptions, if_pos h]
  rfl

theorem toOptions_of_not_extends (h : d.extendBuiltins = false) : d.toOptions =
    ⟨d.families.getD builtinFamilies, d.remaps.getD builtinRemaps⟩ := by
  rw [toOptions, h]
  rfl

theorem keys_of_extends (h : d.extendBuiltins = true) :
    d.toOptions.keys = builtin.keys ++ d.ownKeys := by
  rw [toOptions_of_extends h, Options.keys, List.map_append]
  rfl

theorem validate_of_extends (h : d.extendBuiltins = true) :
    d.toOptions.validate = .ok () ↔
      (∀ seed ∈ d.ownFamilies, seed.key ≠ [] ∧ seed.family.candidates ≠ []) ∧
        ∀ remap ∈ d.ownRemaps.entries, remap.2 ∈ builtin.keys ∨ remap.2 ∈ d.ownKeys := by
  -- the builtin part has no defect of its own, and further families cannot give it one
  obtain ⟨hs, hr⟩ := defect?_eq_none_iff.1 defect?_builtin
  have hf : d.toOptions.families = builtinFamilies ++ d.ownFamilies := by
    rw [toOptions_of_extends h]
  have hg (source : Text) : d.toOptions.remaps.get? source =
      (d.ownRemaps.get? source).or (builtinRemaps.get? source) := by
    rw [toOptions_of_extends h, Table.get?_insertAll_entries]
  rw [validate_eq_ok_iff, defect?_eq_none_iff, hf, keys_of_extends h]
  refine and_congr ?_ ?_
  · exact ⟨fun ha seed hm ↦ ha seed (List.mem_append_right _ hm),
      fun ho seed hm ↦ (List.mem_append.1 hm).elim (hs seed) (ho seed)⟩
  · constructor
    · rintro ha ⟨source, target⟩ hm
      have ho : d.ownRemaps.get? source = some target := Table.get?_eq_some_iff.2 hm
      have hm' : (source, target) ∈ d.toOptions.remaps.entries := by
        rw [← Table.get?_eq_some_iff, hg, ho, Option.some_or]
      exact List.mem_append.1 (ha _ hm')
    · rintro ho ⟨source, target⟩ hm
      rw [← Table.get?_eq_some_iff, hg, Option.or_eq_some_iff] at hm
      apply List.mem_append.2
      rcases hm with hm | ⟨-, hm⟩
      · exact ho _ (Table.get?_eq_some_iff.1 hm)
      · exact .inl (hr _ (Table.get?_eq_some_iff.1 hm))

theorem exists_withOptions_of_extends (h : d.extendBuiltins = true)
    (hv : d.toOptions.validate = .ok ()) (method : Method) :
    ∃ s, Scope.withOptions method d.toOptions = .ok s ∧
      (∀ key, s.family? key =
        (Seed.last? key d.ownFamilies).or (Seed.last? key builtinFamilies)) ∧
      ∀ source, s.remap? source = (d.ownRemaps.get? source).or (builtinRemaps.get? source) := by
  obtain ⟨s, hs, hf, hr⟩ := exists_withOptions hv method
  refine ⟨s, hs, fun key ↦ ?_, fun source ↦ ?_⟩
  · rw [hf, toOptions_of_extends h, Seed.last?_append]
  · rw [hr, toOptions_of_extends h, Table.get?_insertAll_entries]

theorem tables_in_force (d : Document) (method : Method) :
    (d.extendBuiltins = true →
      (d.toOptions.validate = .ok () ↔
        (∀ seed ∈ d.ownFamilies, seed.key ≠ [] ∧ seed.family.candidates ≠ []) ∧
          ∀ remap ∈ d.ownRemaps.entries, remap.2 ∈ builtin.keys ∨ remap.2 ∈ d.ownKeys) ∧
      (d.toOptions.validate = .ok () → ∃ s, Scope.withOptions method d.toOptions = .ok s ∧
        (∀ key, s.family? key =
          (Seed.last? key d.ownFamilies).or (Seed.last? key builtinFamilies)) ∧
        ∀ source, s.remap? source =
          (d.ownRemaps.get? source).or (builtinRemaps.get? source)) ∧
      d.toOptions.remaps.keys =
        builtinRemaps.keys ++ d.ownRemaps.keys.filter (!builtinRemaps.contains ·)) ∧
    (d.extendBuiltins = false →
      let families := d.families.getD builtinFamilies
      let remaps := d.remaps.getD builtinRemaps
      (d.toOptions.validate = .ok () ↔
        (∀ seed ∈ families, seed.key ≠ [] ∧ seed.family.candidates ≠ []) ∧
          ∀ remap ∈ remaps.entries, remap.2 ∈ families.map Seed.key) ∧
      (d.toOptions.validate = .ok () → ∃ s, Scope.withOptions method d.toOptions = .ok s ∧
        (∀ key, s.family? key = Seed.last? key families) ∧
        ∀ source, s.remap? source = remaps.get? source) ∧
      d.toOptions = ⟨families, remaps⟩) := by
  refine ⟨fun h ↦ ⟨validate_of_extends h, ?_, ?_⟩, fun h ↦ ?_⟩
  · exact fun hv ↦ exists_withOptions_of_extends h hv method
  · rw [toOptions_of_extends h]
    exact builtinRemaps.keys_insertAll d.ownRemaps.distinct
  · intro families remaps
    have ho : d.toOptions = ⟨families, remaps⟩ := toOptions_of_not_extends h
    rw [ho]
    refine ⟨?_, fun hv ↦ exists_withOptions hv method, rfl⟩
    rw [validate_eq_ok_iff, defect?_eq_none_iff]
    rfl

theorem tables_in_force_int :
    let families : List Seed :=
      [⟨"int", ["n"], 0, false⟩, ⟨"Object", ["obj"], 0, true⟩, ⟨"int", ["m"], 5, true⟩]
    let extending : Document :=
      ⟨true, some families, some (.ofList [("Integer", "Object"), ("long", "short")])⟩
    let replacing : Document := ⟨false, some families, none⟩
    let method : Method := ⟨"Demo", "run", "()V"⟩
    (∃ s, Scope.withOptions method extending.toOptions = .ok s ∧
      s.family? "int" = some ⟨["m"], 5, true⟩ ∧ s.family? "char" = some ⟨["c"], 0, false⟩ ∧
      s.remap? "long" = some ("short" : Text)) ∧
    extending.toOptions.remaps.keys = (["long", "Integer"] : List Text) ∧
    ∃ s, Scope.withOptions method replacing.toOptions = .ok s ∧
      s.family? "char" = none ∧ s.remap? "long" = some ("int" : Text) := by
  intro families extending replacing method
  obtain ⟨hv, ht, hk⟩ := (tables_in_force extending method).1 rfl
  obtain ⟨hv', ht', -⟩ := (tables_in_force replacing method).2 rfl
  obtain ⟨s, hs, hf, hr⟩ := ht (hv.2 (by decide))
  obtain ⟨s', hs', hf', hr'⟩ := ht' (hv'.2 (by decide))
  refine ⟨⟨s, hs, ?_, ?_, ?_⟩, hk.trans (by decide), s', hs', ?_, ?_⟩
  · rw [hf]
    decide
  · rw [hf]
    decide
  · rw [hr]
    decide
  · rw [hf']
    decide
  · rw [hr']
    decide

end Document

end LocalNames
