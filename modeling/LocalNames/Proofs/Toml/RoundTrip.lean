import LocalNames.Options.Toml
import LocalNames.Proofs.Options
import LocalNames.Proofs.Toml.Draft
import LocalNames.Proofs.Toml.Line

namespace LocalNames

open Toml

theorem mapM_map_eq_some {α β : Type} {f : β → Option α} {g : α → β} {xs : List α}
    (h : ∀ x ∈ xs, f (g x) = some x) : (xs.map g).mapM f = some xs := by
  induction xs with
  | nil => rfl
  | cons x xs ih =>
    obtain ⟨hx, hxs⟩ := List.forall_mem_cons.1 h
    rw [List.map_cons, List.mapM_cons, hx, ih hxs]
    rfl

theorem Data.longWord?_toNat (w : UInt64) : longWord? (.int w.toNat) = some w := by
  simp only [longWord?, wordOf?, nat?, Int.natCast_nonneg, if_true, Int.toNat_natCast,
    Option.bind_some, w.toNat_lt_size, UInt64.ofNat_toNat]

namespace Seed

/-- The counter has at most 63 bits, and no text needs an escape. -/
structure Writable (s : Seed) : Prop where
  counter : s.family.counter < 0x8000000000000000
  key : s.key.all isPlain
  candidates : ∀ name ∈ s.family.candidates, name.all isPlain

theorem writable_iff {s : Seed} : s.Writable ↔ s.family.counter < 0x8000000000000000 ∧
    s.key.all isPlain ∧ ∀ name ∈ s.family.candidates, name.all isPlain :=
  ⟨fun h ↦ ⟨h.counter, h.key, h.candidates⟩, fun ⟨hc, hk, hn⟩ ↦ ⟨hc, hk, hn⟩⟩

instance (s : Seed) : Decidable s.Writable := decidable_of_iff _ writable_iff.symm

def entries (s : Seed) : List (Text × Data) := [
  ("key", .text s.key),
  ("counter", .int s.family.counter.toNat),
  ("skip_zero", .bool s.family.plainFirst),
  ("names", .list (s.family.candidates.map .text))]

def lines (s : Seed) : List Line := .element ⟨[], "family"⟩ :: entryLines s.entries

theorem toToml_append (s : Seed) (rest : Text) : s.toToml ++ rest =
    "[[family]]\n" ++ (entry "key" (quote s.key) ++ '\n' ::
      (entry "counter" (numeral s.family.counter.toNat) ++ '\n' ::
        (entry "skip_zero" (printBool s.family.plainFirst) ++ '\n' ::
          (entry "names" (printTexts s.family.candidates) ++ '\n' :: '\n' :: rest)))) := by
  have hk (v : Text) : entry "key" v = "key = " ++ v := rfl
  have hc (v : Text) : entry "counter" v = "counter = " ++ v := rfl
  have hp (v : Text) : entry "skip_zero" v = "skip_zero = " ++ v := rfl
  have hn (v : Text) : entry "names" v = "names = " ++ v := rfl
  have he (text : Text) : '\n' :: text = "\n" ++ text := rfl
  have hb (text : Text) : ("\n\n" : Text) ++ text = "\n" ++ ("\n" ++ text) := rfl
  delta toToml
  simp only [hk, hc, hp, hn, he, hb, List.append_assoc]

theorem reads_toToml {s : Seed} {rest : Text} {lines : List Line} (h : s.Writable)
    (hr : Reads rest lines) : Reads (s.toToml ++ rest) (s.lines ++ lines) := by
  have hk := printed_quote h.key
  have hc := printed_numeral (UInt64.lt_iff_toNat_lt.1 h.counter)
  have hp := printed_printBool s.family.plainFirst
  have hn := printed_printTexts h.candidates
  rw [toToml_append]
  exact ((((hr.vacant.entry (by decide) hn).entry (by decide) hp).entry (by decide) hc).entry
    (by decide) hk).element

theorem ofData?_record (s : Seed) : ofData? .atLeast (.record s.entries) = some s := by
  have hn : (s.family.candidates.map Data.text).mapM Data.text? = some s.family.candidates :=
    mapM_map_eq_some fun _ _ ↦ rfl
  have hg : guard (onlyFields ["key", "counter", "skip_zero", "names"] s.entries) = some () := rfl
  have hk : Data.required? "key" Data.text? s.entries = some s.key := rfl
  have hc : Data.optional? "counter" Data.longWord? 0 s.entries = some s.family.counter :=
    Data.longWord?_toNat _
  have hp : Data.optional? "skip_zero" Data.bool? false s.entries = some s.family.plainFirst := rfl
  have hns : Data.required? "names" (Data.listOf? Data.text?) s.entries =
      some s.family.candidates := hn
  rw [ofData?, ofFields?, hg, hk, hc, hp, hns]
  rfl

theorem foldlM_lines (s : Seed) (elements : List Fields) (path : List Text) :
    s.lines.foldlM Draft.add ⟨[("family", .tables elements)], path⟩ =
      some ⟨[("family", .tables (elements ++ [valueFields s.entries]))], ["family"]⟩ := by
  have ha : Draft.add ⟨[("family", .tables elements)], path⟩ (.element ⟨[], "family"⟩) =
      some ⟨[("family", .tables (elements ++ [valueFields []]))], ["family"]⟩ := rfl
  rw [lines, List.foldlM_cons, ha]
  exact foldlM_entryLines (focus_lastElement elements) [] s.entries (by simp [Assoc.keys, entries])

end Seed

theorem Document.ofData?_record {families remaps : Data} {seeds : Option (List Seed)}
    {table : Option (Table Text Text)} (hf : families? .atLeast families = some seeds)
    (hr : remaps? remaps = some table) :
    ofData? .atLeast (.record [("family", families), ("remap", remaps)]) =
      some ⟨false, seeds, table⟩ := by
  have hg : guard (onlyFields ["extend_builtins", "family", "remap"]
      [("family", families), ("remap", remaps)]) = some () := rfl
  have hx : Data.optional? "extend_builtins" Data.bool? false
      [("family", families), ("remap", remaps)] = some false := rfl
  have hf : Data.optional? "family" (families? .atLeast) none
      [("family", families), ("remap", remaps)] = some seeds := hf
  have hr : Data.optional? "remap" remaps? none
      [("family", families), ("remap", remaps)] = some table := hr
  rw [ofData?, ofFields?, hg, hx, hf, hr]
  rfl

namespace Options

structure Writable (o : Options) : Prop where
  families : ∀ s ∈ o.families, s.Writable
  remaps : ∀ remap ∈ o.remaps.entries, remap.1.all isPlain ∧ remap.2.all isPlain

theorem writable_iff {o : Options} : o.Writable ↔ (∀ s ∈ o.families, s.Writable) ∧
    ∀ remap ∈ o.remaps.entries, remap.1.all isPlain ∧ remap.2.all isPlain :=
  ⟨fun h ↦ ⟨h.families, h.remaps⟩, fun ⟨hf, hr⟩ ↦ ⟨hf, hr⟩⟩

instance (o : Options) : Decidable o.Writable := decidable_of_iff _ writable_iff.symm

def familyLines : List Seed → List Line
  | [] => [.entry ⟨[], "family"⟩ (.list [])]
  | families => families.flatMap Seed.lines

def remapEntries (o : Options) : List (Text × Data) :=
  o.remaps.entries.map fun remap ↦ (remap.1, .text remap.2)

def data (o : Options) : Data :=
  .record [("family", .list (o.families.map fun s ↦ .record s.entries)),
    ("remap", .record o.remapEntries)]

variable {rest : Text} {lines : List Line}

theorem reads_flatMap_toToml {seeds : List Seed} (h : ∀ s ∈ seeds, s.Writable)
    (hr : Reads rest lines) :
    Reads (seeds.flatMap Seed.toToml ++ rest) (seeds.flatMap Seed.lines ++ lines) := by
  induction seeds with
  | nil => exact hr
  | cons s seeds ih =>
    obtain ⟨hs, hss⟩ := List.forall_mem_cons.1 h
    rw [List.flatMap_cons, List.flatMap_cons, List.append_assoc, List.append_assoc]
    exact s.reads_toToml hs (ih hss)

theorem reads_familiesToToml {seeds : List Seed} (h : ∀ s ∈ seeds, s.Writable)
    (hr : Reads rest lines) :
    Reads (familiesToToml seeds ++ rest) (familyLines seeds ++ lines) := by
  cases seeds with
  | nil =>
    have hl : Printed (printTexts []) (.list []) := printed_printTexts fun _ hm ↦ by cases hm
    have hk : ("family" : Text).all isPlain := by decide
    exact hr.vacant.entry hk hl
  | cons s seeds => exact reads_flatMap_toToml h hr

theorem reads_remapLines {remaps : List (Text × Text)}
    (h : ∀ remap ∈ remaps, remap.1.all isPlain ∧ remap.2.all isPlain) :
    Reads (remaps.flatMap remapLine) (entryLines (remaps.map fun e ↦ (e.1, .text e.2))) := by
  induction remaps with
  | nil => exact reads_nil
  | cons remap remaps ih =>
    obtain ⟨⟨hs, ht⟩, hr⟩ := List.forall_mem_cons.1 h
    have he : remapLine remap ++ remaps.flatMap remapLine =
        entry remap.1 (quote remap.2) ++ '\n' :: remaps.flatMap remapLine := by
      rw [remapLine, List.append_assoc]
      rfl
    rw [List.flatMap_cons, he]
    exact (ih hr).entry hs (printed_quote ht)

theorem exists_foldlM_lines (seeds : List Seed) (elements : List Fields) (path : List Text) :
    ∃ path', (seeds.flatMap Seed.lines).foldlM Draft.add ⟨[("family", .tables elements)], path⟩ =
      some ⟨[("family", .tables (elements ++ seeds.map (valueFields ·.entries)))], path'⟩ := by
  induction seeds generalizing elements path with
  | nil => exact ⟨path, by rw [List.map_nil, List.append_nil]; rfl⟩
  | cons s seeds ih =>
    -- a header of an element leads to the same place, whatever the table before it
    obtain ⟨path', hp⟩ := ih (elements ++ [valueFields s.entries]) ["family"]
    refine ⟨path', ?_⟩
    rw [List.flatMap_cons, List.foldlM_append, s.foldlM_lines]
    rw [List.append_assoc] at hp
    exact hp

theorem elementsToData_map (seeds : List Seed) :
    elementsToData (seeds.map (valueFields ·.entries)) = seeds.map fun s ↦ .record s.entries := by
  induction seeds with
  | nil => rfl
  | cons s seeds ih =>
    change .record (fieldsToData (valueFields s.entries)) :: elementsToData _ = _
    rw [fieldsToData_valueFields, ih]
    rfl

theorem exists_foldlM_familyLines (seeds : List Seed) :
    ∃ node path, (familyLines seeds).foldlM Draft.add {} = some ⟨[("family", node)], path⟩ ∧
      node.toData = .list (seeds.map fun s ↦ .record s.entries) := by
  cases seeds with
  | nil => exact ⟨.value (.list []), [], rfl, rfl⟩
  | cons s seeds =>
    obtain ⟨path, hp⟩ := exists_foldlM_lines (s :: seeds) [] []
    refine ⟨.tables ((s :: seeds).map (valueFields ·.entries)), path, ?_, ?_⟩
    · -- the first element makes the array
      have ha : (familyLines (s :: seeds)).foldlM Draft.add {} =
          ((s :: seeds).flatMap Seed.lines).foldlM Draft.add ⟨[("family", .tables [])], []⟩ := rfl
      rw [ha, hp, List.nil_append]
    · exact congrArg Data.list (elementsToData_map (s :: seeds))

theorem exists_ofLines? (o : Options) : ∃ draft,
    Draft.ofLines? (familyLines o.families ++ .table ⟨[], "remap"⟩ :: entryLines o.remapEntries) =
      some draft ∧ .record (fieldsToData draft.fields) = o.data := by
  obtain ⟨node, path, hf, hd⟩ := exists_foldlM_familyLines o.families
  have hn : (Assoc.keys ([] ++ o.remapEntries)).Nodup := by
    rw [List.nil_append, Assoc.keys, remapEntries, List.map_map]
    exact o.remaps.distinct
  have ht : Draft.add ⟨[("family", node)], path⟩ (.table ⟨[], "remap"⟩) =
      some ⟨[("family", node), ("remap", .table .header (valueFields []))], ["remap"]⟩ := rfl
  have he := foldlM_entryLines (focus_table node) [] o.remapEntries hn
  refine ⟨⟨[("family", node), ("remap", .table .header (valueFields o.remapEntries))],
    ["remap"]⟩, ?_, ?_⟩
  · rw [Draft.ofLines?, List.foldlM_append, hf]
    rw [Option.bind_eq_bind, Option.bind_some, List.foldlM_cons, ht]
    exact he
  · change Data.record [("family", node.toData),
      ("remap", .record (fieldsToData (valueFields o.remapEntries)))] = _
    rw [hd, fieldsToData_valueFields]
    rfl

theorem read?_toToml {o : Options} (h : o.Writable) :
    Toml.read? (familiesToToml o.families ++ "[remap]\n" ++ o.remaps.entries.flatMap remapLine) =
      some o.data := by
  obtain ⟨draft, hd, ho⟩ := o.exists_ofLines?
  have hr := reads_familiesToToml h.families (reads_remapLines h.remaps).table
  have hb (text : Text) : (familiesToToml o.families ++ text).head? ≠ some '\ufeff' := by
    intro he
    cases hf : o.families with
    | nil => rw [hf] at he; cases he
    | cons s seeds => rw [hf] at he; cases he
  rw [List.append_assoc, hr.read?_eq (hb _) hd, ho]

theorem ofData?_data (o : Options) :
    Document.ofData? .atLeast o.data = some ⟨false, some o.families, some o.remaps⟩ := by
  have hs : (o.families.map fun s ↦ Data.record s.entries).mapM (Seed.ofData? .atLeast) =
      some o.families := mapM_map_eq_some fun s _ ↦ s.ofData?_record
  have he : o.remapEntries.mapM (fun f ↦ (Data.text? f.2).map (f.1, ·)) =
      some o.remaps.entries := mapM_map_eq_some fun _ _ ↦ rfl
  apply Document.ofData?_record
  · exact congrArg (Option.map some) hs
  · rw [← Table.ofList_entries o.remaps]
    exact congrArg (fun entries ↦ (entries.map Table.ofList).map some) he

/-- Both parts are written even when they are empty, so that no builtin part stands in for one. -/
theorem ofToml_toToml? {o : Options} (h : o.Writable) : ∃ text, o.toToml? = some text ∧
    (o.validate = .ok () → ofToml text = .ok o) ∧
    ∀ failure, o.validate = .error failure → ofToml text = .error failure := by
  have hc : o.families.all fun s ↦ s.family.counter < 0x8000000000000000 :=
    List.all_eq_true.2 fun s hs ↦ decide_eq_true (h.families s hs).counter
  have ho : ofToml (familiesToToml o.families ++ "[remap]\n" ++
      o.remaps.entries.flatMap remapLine) = do o.validate; return o := by
    rw [ofToml, read?_toToml h, Option.bind_some, ofData?_data]
    rfl
  refine ⟨_, if_pos hc, fun hv ↦ ?_, fun failure hv ↦ ?_⟩
  · rw [ho, hv]
    rfl
  · rw [ho, hv]
    rfl

theorem ofToml_toToml?_object :
    let o : Options := ⟨[⟨"Object", ["o", "obj"], 7, true⟩, ⟨"Object", ["é"], 0, false⟩],
      .ofList [("java.lang.Object", "Object"), ("", "Object"), ("ключ", "Object")]⟩
    let bare : Options := ⟨[], .ofList [("long", "int")]⟩
    (∃ text, o.toToml? = some text ∧ ofToml text = .ok o) ∧
      ∃ text, bare.toToml? = some text ∧ ofToml text = .error (.unknownTarget "long" "int") := by
  intro o bare
  obtain ⟨text, ht, hv, -⟩ := ofToml_toToml? (o := o) (by decide)
  obtain ⟨text', ht', -, he'⟩ := ofToml_toToml? (o := bare) (by decide)
  exact ⟨⟨text, ht, hv (by decide)⟩, text', ht', he' _ (by decide)⟩

end Options

end LocalNames
