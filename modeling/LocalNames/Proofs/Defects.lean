import LocalNames.Options.Toml
import LocalNames.Proofs.Document

namespace LocalNames

def IsFirst {α : Type} (P : α → Prop) (l : List α) (a : α) : Prop :=
  P a ∧ ∃ before after, l = before ++ a :: after ∧ ∀ b ∈ before, ¬ P b

theorem findSome?_eq_some_iff_isFirst {α β : Type} {f : α → Option β} {P : α → Prop}
    (hf : ∀ a, f a = none ↔ ¬ P a) {l : List α} {b : β} :
    l.findSome? f = some b ↔ ∃ a, IsFirst P l a ∧ f a = some b := by
  rw [List.findSome?_eq_some_iff]
  constructor
  · rintro ⟨before, a, after, hl, hb, hn⟩
    have ha : P a := by
      apply Classical.not_not.1
      intro hp
      rw [(hf a).2 hp] at hb
      cases hb
    exact ⟨a, ⟨ha, before, after, hl, fun x hx ↦ (hf x).1 (hn x hx)⟩, hb⟩
  · rintro ⟨a, ⟨-, before, after, hl, hn⟩, hb⟩
    exact ⟨before, a, after, hl, hb, fun x hx ↦ (hf x).2 (hn x hx)⟩

namespace Seed

variable {s : Seed}

def Defective (s : Seed) : Prop := s.key = [] ∨ s.family.candidates = []

instance (s : Seed) : Decidable s.Defective :=
  inferInstanceAs (Decidable (s.key = [] ∨ s.family.candidates = []))

theorem defect?_eq_none_iff_not_defective : s.defect? = none ↔ ¬ s.Defective := by
  rw [defect?_eq_none_iff, Defective, not_or]

theorem defect?_of_key_eq_nil (hk : s.key = []) : s.defect? = some .emptyKey := if_pos hk

theorem defect?_of_key_ne_nil (hs : s.Defective) (hk : s.key ≠ []) :
    s.defect? = some (.noCandidates s.key) :=
  (if_neg hk).trans (if_pos (hs.resolve_left hk))

end Seed

namespace Options

variable {o : Options} {failure : Failure}

def Dangling (o : Options) (remap : Text × Text) : Prop := remap.2 ∉ o.keys

instance (o : Options) (remap : Text × Text) : Decidable (o.Dangling remap) :=
  inferInstanceAs (Decidable (remap.2 ∉ o.keys))

/-- The failure that options are refused for, however much may be wrong with them: that of the first
defective family, its key before its names, and where no family is defective that of the first
dangling redirection. -/
inductive FirstDefect (o : Options) : Failure → Prop
  | emptyKey {seed : Seed} (hs : IsFirst Seed.Defective o.families seed) (hk : seed.key = []) :
      FirstDefect o .emptyKey
  | noCandidates {seed : Seed} (hs : IsFirst Seed.Defective o.families seed)
      (hk : seed.key ≠ []) : FirstDefect o (.noCandidates seed.key)
  | unknownTarget {source target : Text} (hs : ∀ seed ∈ o.families, ¬ seed.Defective)
      (hr : IsFirst o.Dangling o.remaps.entries (source, target)) :
      FirstDefect o (.unknownTarget source target)

theorem remapDefect?_of_dangling {remap : Text × Text} (h : o.Dangling remap) :
    o.remapDefect? remap = some (.unknownTarget remap.1 remap.2) := if_neg h

theorem findSome?_families_eq_none_iff :
    o.families.findSome? Seed.defect? = none ↔ ∀ seed ∈ o.families, ¬ seed.Defective := by
  simp only [List.findSome?_eq_none_iff, Seed.defect?_eq_none_iff_not_defective]

theorem findSome?_families_eq_some_iff : o.families.findSome? Seed.defect? = some failure ↔
    ∃ seed, IsFirst Seed.Defective o.families seed ∧ seed.defect? = some failure :=
  findSome?_eq_some_iff_isFirst fun _ ↦ Seed.defect?_eq_none_iff_not_defective

theorem findSome?_remaps_eq_some_iff : o.remaps.entries.findSome? o.remapDefect? = some failure ↔
    ∃ remap, IsFirst o.Dangling o.remaps.entries remap ∧ o.remapDefect? remap = some failure := by
  apply findSome?_eq_some_iff_isFirst
  intro remap
  rw [remapDefect?_eq_none_iff, Dangling, Classical.not_not]

theorem defect?_eq_some_iff : o.defect? = some failure ↔ o.FirstDefect failure := by
  rw [defect?, Option.or_eq_some_iff, findSome?_families_eq_some_iff,
    findSome?_families_eq_none_iff, findSome?_remaps_eq_some_iff]
  constructor
  · rintro (⟨seed, hs, hd⟩ | ⟨hs, ⟨source, target⟩, hr, hd⟩)
    · by_cases hk : seed.key = []
      · rw [Seed.defect?_of_key_eq_nil hk] at hd
        cases hd
        exact .emptyKey hs hk
      · rw [Seed.defect?_of_key_ne_nil hs.1 hk] at hd
        cases hd
        exact .noCandidates hs hk
    · rw [remapDefect?_of_dangling hr.1] at hd
      cases hd
      exact .unknownTarget hs hr
  · intro h
    cases h with
    | emptyKey hs hk => exact .inl ⟨_, hs, Seed.defect?_of_key_eq_nil hk⟩
    | noCandidates hs hk => exact .inl ⟨_, hs, Seed.defect?_of_key_ne_nil hs.1 hk⟩
    | unknownTarget hs hr => exact .inr ⟨hs, _, hr, remapDefect?_of_dangling hr.1⟩

theorem validate_eq_error_iff : o.validate = .error failure ↔ o.FirstDefect failure := by
  rw [← defect?_eq_some_iff, validate]
  cases o.defect? with
  | none => exact iff_of_false (fun h ↦ by cases h) (fun h ↦ by cases h)
  | some first => rw [Except.error.injEq, Option.some.injEq]

theorem validate_bind_eq_error_iff {α : Type} {a : α} :
    (do o.validate; return a : Except Failure α) = .error failure ↔ o.FirstDefect failure := by
  rw [← validate_eq_error_iff]
  cases o.validate with
  | ok _ => exact iff_of_false (fun h ↦ by cases h) (fun h ↦ by cases h)
  | error first =>
    rw [Except.error.injEq]
    exact ⟨Except.error.inj, congrArg Except.error⟩

def parse? (text : Text) : Option Options :=
  ((Toml.read? text).bind (Document.ofData? .atLeast)).map Document.toOptions

theorem ofToml_eq_error_iff {text : Text} (h : parse? text = some o) :
    ofToml text = .error failure ↔ o.FirstDefect failure := by
  obtain ⟨d, hd, rfl⟩ := Option.map_eq_some_iff.1 h
  rw [ofToml, hd]
  exact validate_bind_eq_error_iff

/-- Options are accepted if nothing is wrong with them, and else refused for their first defect,
whichever way they are used. -/
theorem refused_for_first_defect (o : Options) :
    (o.validate = .ok () ↔
      (∀ seed ∈ o.families, seed.key ≠ [] ∧ seed.family.candidates ≠ []) ∧
        ∀ remap ∈ o.remaps.entries, ∃ seed ∈ o.families, seed.key = remap.2) ∧
    ∀ failure,
      (o.validate = .error failure ↔ o.FirstDefect failure) ∧
      (∀ method, Scope.withOptions method o = .error failure ↔ o.FirstDefect failure) ∧
      (Factory.ofOptions o = .error failure ↔ o.FirstDefect failure) ∧
      ∀ text, parse? text = some o → (ofToml text = .error failure ↔ o.FirstDefect failure) := by
  constructor
  · rw [validate_eq_ok_iff, defect?_eq_none_iff]
    simp only [Options.keys, List.mem_map]
  · intro failure
    refine ⟨validate_eq_error_iff, fun method ↦ validate_bind_eq_error_iff,
      validate_bind_eq_error_iff, fun text h ↦ ofToml_eq_error_iff h⟩

theorem refused_for_first_defect_object :
    let text : Text := "[[family]]\nkey = \"Object\"\nnames = [\"obj\"]\n" ++
      "[[family]]\nkey = \"\"\nnames = []\n[[family]]\nkey = \"List\"\nnames = []\n"
    let families : List Seed :=
      [⟨"Object", ["obj"], 0, false⟩, ⟨"", [], 0, false⟩, ⟨"List", [], 0, false⟩]
    let o : Options := ⟨families.take 1, .ofList [("Any", "Object"), ("long", "int"), ("E", "T")]⟩
    parse? text = some ⟨families, builtinRemaps⟩ ∧ ofToml text = .error .emptyKey ∧
      Factory.ofOptions o = .error (.unknownTarget "long" "int") := by
  intro text families o
  have hp : parse? text = some ⟨families, builtinRemaps⟩ := by decide +kernel
  have hf := (refused_for_first_defect ⟨families, builtinRemaps⟩).2 .emptyKey
  have hs : IsFirst Seed.Defective families ⟨"", [], 0, false⟩ :=
    ⟨.inl rfl, families.take 1, families.drop 2, rfl, by decide⟩
  have ho := (refused_for_first_defect o).2 (.unknownTarget "long" "int")
  have hr : IsFirst o.Dangling o.remaps.entries ("long", "int") :=
    ⟨by decide, [("Any", "Object")], [("E", "T")], by decide, by decide⟩
  exact ⟨hp, (hf.2.2.2 text hp).2 (.emptyKey hs rfl),
    ho.2.2.1.2 (.unknownTarget (by decide) hr)⟩

end Options

end LocalNames
