import LocalNames.Assoc

namespace LocalNames

/-- A finite map that remembers the order in which its keys were first inserted. -/
structure Table (κ α : Type) where
  entries : Assoc κ α
  distinct : (Assoc.keys entries).Nodup
deriving DecidableEq

namespace Table

variable {κ α : Type}

@[ext] theorem ext {t u : Table κ α} (h : t.entries = u.entries) : t = u := by
  cases t; cases u; simp only [mk.injEq]; exact h

def empty : Table κ α := ⟨[], List.nodup_nil⟩

instance : EmptyCollection (Table κ α) := ⟨empty⟩

def keys (t : Table κ α) : List κ := Assoc.keys t.entries

def size (t : Table κ α) : Nat := t.entries.length

variable [DecidableEq κ]

def get? (t : Table κ α) (k : κ) : Option α := Assoc.find? k t.entries

def contains (t : Table κ α) (k : κ) : Bool := (t.get? k).isSome

def insert (t : Table κ α) (k : κ) (v : α) : Table κ α :=
  ⟨Assoc.put k v t.entries, Assoc.nodup_keys_put t.distinct⟩

def insertAll (t : Table κ α) (entries : List (κ × α)) : Table κ α :=
  entries.foldl (fun t e ↦ t.insert e.1 e.2) t

def ofList (entries : List (κ × α)) : Table κ α := empty.insertAll entries

def sameEntries [DecidableEq α] (t u : Table κ α) : Bool :=
  t.size = u.size && t.entries.all fun e ↦ u.get? e.1 = some e.2

@[simp] theorem get?_empty (k : κ) : (empty : Table κ α).get? k = none := rfl

@[simp] theorem get?_insert_self (t : Table κ α) (k : κ) (v : α) :
    (t.insert k v).get? k = some v := by simp [get?, insert, Assoc.find?_put]

theorem get?_insert (t : Table κ α) (k k' : κ) (v : α) :
    (t.insert k v).get? k' = if k = k' then some v else t.get? k' :=
  Assoc.find?_put k k' v t.entries

theorem get?_insertAll (t : Table κ α) (k : κ) (entries : List (κ × α)) :
    (t.insertAll entries).get? k = (Assoc.find? k entries.reverse).or (t.get? k) := by
  induction entries generalizing t with
  | nil => simp [insertAll]
  | cons e rest ih =>
    rw [insertAll, List.foldl_cons, ← insertAll, ih, get?_insert, List.reverse_cons,
      Assoc.find?_append, Assoc.find?_cons, Option.or_assoc]
    split <;> simp

theorem get?_ofList (k : κ) (entries : List (κ × α)) :
    (ofList entries).get? k = Assoc.find? k entries.reverse := by
  rw [ofList, get?_insertAll, get?_empty, Option.or_none]

theorem contains_iff {t : Table κ α} {k : κ} : t.contains k ↔ k ∈ t.keys := by
  rw [contains, Option.isSome_iff_ne_none, ne_eq, get?, Assoc.find?_eq_none_iff, Classical.not_not]
  rfl

theorem contains_insert (t : Table κ α) (k k' : κ) (v : α) :
    (t.insert k v).contains k' = (decide (k = k') || t.contains k') := by
  rw [contains, get?_insert]
  by_cases h : k = k' <;> simp [h, contains]

theorem keys_insertAll (t : Table κ α) {entries : List (κ × α)} (hn : (Assoc.keys entries).Nodup) :
    (t.insertAll entries).keys = t.keys ++ (Assoc.keys entries).filter (!t.contains ·) := by
  induction entries generalizing t with
  | nil => simp [insertAll, Assoc.keys]
  | cons e rest ih =>
    obtain ⟨he, hr⟩ := List.nodup_cons.1 hn
    -- no later entry has the key that comes in first
    have hf : (Assoc.keys rest).filter (!(t.insert e.1 e.2).contains ·) =
        (Assoc.keys rest).filter (!t.contains ·) := by
      apply List.filter_congr
      intro k hk
      have hne : e.1 ≠ k := fun h ↦ he (h ▸ hk)
      rw [contains_insert, decide_eq_false hne, Bool.false_or]
    have hk : (t.insert e.1 e.2).keys = if e.1 ∈ t.keys then t.keys else t.keys ++ [e.1] :=
      Assoc.keys_put e.1 e.2 t.entries
    have hl : Assoc.keys (e :: rest) = e.1 :: Assoc.keys rest := rfl
    rw [insertAll, List.foldl_cons, ← insertAll, ih _ hr, hk, hf, hl]
    by_cases hm : e.1 ∈ t.keys
    · rw [if_pos hm, List.filter_cons_of_neg]
      simp [contains_iff.2 hm]
    · have hc : t.contains e.1 = false := Bool.eq_false_iff.2 (mt contains_iff.1 hm)
      rw [if_neg hm, List.filter_cons_of_pos, List.append_assoc, List.singleton_append]
      rw [hc, Bool.not_false]

theorem entries_insertAll (t : Table κ α) {entries : List (κ × α)}
    (hn : (Assoc.keys entries).Nodup) (hd : ∀ k ∈ Assoc.keys entries, k ∉ t.keys) :
    (t.insertAll entries).entries = t.entries ++ entries := by
  induction entries generalizing t with
  | nil => simp [insertAll]
  | cons e rest ih =>
    obtain ⟨he, hr⟩ := List.nodup_cons.1 hn
    have hi : (t.insert e.1 e.2).entries = t.entries ++ [e] :=
      Assoc.put_of_not_mem (hd _ List.mem_cons_self)
    rw [insertAll, List.foldl_cons, ← insertAll, ih _ hr, hi, List.append_assoc]
    · rfl
    · intro k hk hm
      rcases Assoc.mem_keys_put.1 hm with rfl | hm
      · exact he hk
      · exact hd k (List.mem_cons_of_mem _ hk) hm

theorem ofList_entries (t : Table κ α) : ofList t.entries = t := by
  apply ext
  rw [ofList, entries_insertAll empty t.distinct]
  · rfl
  · intro k _ hk
    cases hk

theorem get?_insertAll_entries (t u : Table κ α) (k : κ) :
    (t.insertAll u.entries).get? k = (u.get? k).or (t.get? k) := by
  rw [get?_insertAll, Assoc.find?_reverse u.distinct]
  rfl

theorem get?_eq_some_iff {t : Table κ α} {k : κ} {v : α} :
    t.get? k = some v ↔ (k, v) ∈ t.entries := Assoc.find?_eq_some_iff t.distinct

theorem get?_eq_none_iff {t : Table κ α} {k : κ} : t.get? k = none ↔ k ∉ t.keys :=
  Assoc.find?_eq_none_iff

end Table

end LocalNames
