import LocalNames.Toml

namespace LocalNames.Toml

def valueFields (entries : List (Text × Data)) : Fields := entries.map fun e ↦ (e.1, .value e.2)

def entryLines (entries : List (Text × Data)) : List Line :=
  entries.map fun e ↦ .entry ⟨[], e.1⟩ e.2

theorem keys_valueFields (entries : List (Text × Data)) :
    Assoc.keys (valueFields entries) = Assoc.keys entries := by
  rw [Assoc.keys, valueFields, List.map_map]
  rfl

theorem fieldsToData_valueFields (entries : List (Text × Data)) :
    fieldsToData (valueFields entries) = entries := by
  induction entries with
  | nil => rfl
  | cons e entries ih =>
    change (e.1, e.2) :: fieldsToData (valueFields entries) = _
    rw [ih]

theorem define_new {k : Text} {fields : Fields} (h : k ∉ Assoc.keys fields) (d : Data) :
    Fields.define ⟨[], k⟩ d .header fields = some (fields ++ [(k, .value d)]) := by
  have hn : (Assoc.find? k fields).isNone :=
    Option.isNone_iff_eq_none.2 (Assoc.find?_eq_none_iff.2 h)
  have hg : guard (f := Option) ((Assoc.find? k fields).isNone) = some () := if_pos hn
  have hd : Fields.define ⟨[], k⟩ d .header fields = do
      guard ((Assoc.find? k fields).isNone)
      return Assoc.put k (.value d) fields := rfl
  rw [hd, hg, Assoc.put_of_not_mem h]
  rfl

/-- A place in a document that a path leads to, around the table that is there. -/
def Focus (path : List Text) (place : Fields → Fields) : Prop :=
  ∀ change inner, Fields.modify false change path .header (place inner) =
    (change .header inner).map place

theorem focus_lastElement (elements : List Fields) :
    Focus ["family"] fun inner ↦ [("family", .tables (elements ++ [inner]))] := by
  intro change inner
  change (do
    let inner' ← change .header ((elements ++ [inner]).getLast?.getD [])
    return ([("family", .tables ((elements ++ [inner]).dropLast ++ [inner']))] : Fields)) = _
  rw [List.getLast?_concat, List.dropLast_concat, Option.getD_some]
  cases change .header inner <;> rfl

theorem focus_table (families : Node) :
    Focus ["remap"] fun inner ↦ [("family", families), ("remap", .table .header inner)] := by
  intro change inner
  change (do
    let inner' ← change .header inner
    return ([("family", families), ("remap", .table .header inner')] : Fields)) = _
  cases change .header inner <;> rfl

theorem foldlM_entryLines {path : List Text} {place : Fields → Fields} (h : Focus path place)
    (before entries : List (Text × Data)) (hn : (Assoc.keys (before ++ entries)).Nodup) :
    (entryLines entries).foldlM Draft.add ⟨place (valueFields before), path⟩ =
      some ⟨place (valueFields (before ++ entries)), path⟩ := by
  -- what is defined so far grows at its end, which keeps the order of the entries
  induction entries generalizing before with
  | nil =>
    rw [List.append_nil]
    rfl
  | cons e entries ih =>
    have he : e.1 ∉ Assoc.keys (valueFields before) := by
      rw [Assoc.keys, List.map_append, List.nodup_append] at hn
      rw [keys_valueFields]
      exact fun hm ↦ hn.2.2 e.1 hm e.1 List.mem_cons_self rfl
    have ha : Draft.add ⟨place (valueFields before), path⟩ (.entry ⟨[], e.1⟩ e.2) =
        some ⟨place (valueFields (before ++ [e])), path⟩ := by
      rw [Draft.add, h, define_new he, valueFields, valueFields, List.map_append]
      rfl
    rw [List.append_cons] at hn ⊢
    rw [entryLines, List.map_cons, List.foldlM_cons, ha]
    exact ih (before ++ [e]) hn

end LocalNames.Toml
