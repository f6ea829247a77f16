namespace LocalNames

/-- Association lists in which each key occurs at most once, in the order of first insertion. -/
abbrev Assoc (κ α : Type) := List (κ × α)

namespace Assoc

variable {κ α : Type} [DecidableEq κ]

def keys (entries : Assoc κ α) : List κ := entries.map Prod.fst

def put (k : κ) (v : α) : Assoc κ α → Assoc κ α
  | [] => [(k, v)]
  | (k', v') :: rest => if k' = k then (k, v) :: rest else (k', v') :: put k v rest

def find? (k : κ) : Assoc κ α → Option α
  | [] => none
  | (k', v) :: rest => if k' = k then some v else find? k rest

@[simp] theorem find?_nil (k : κ) : find? k ([] : Assoc κ α) = none := rfl

theorem find?_cons (k : κ) (e : κ × α) (rest : Assoc κ α) :
    find? k (e :: rest) = if e.1 = k then some e.2 else find? k rest := rfl

theorem put_cons (k : κ) (v : α) (e : κ × α) (rest : Assoc κ α) :
    put k v (e :: rest) = if e.1 = k then (k, v) :: rest else e :: put k v rest := rfl

theorem find?_put (k k' : κ) (v : α) (entries : Assoc κ α) :
    find? k' (put k v entries) = if k = k' then some v else find? k' entries := by
  induction entries with
  | nil => simp [put, find?_cons]
  | cons e rest ih =>
    by_cases he : e.1 = k
    · by_cases hk : k = k' <;> simp [put_cons, find?_cons, he, hk]
    · simp only [put_cons, he, if_false, find?_cons, ih]
      by_cases he' : e.1 = k'
      · have hk : k ≠ k' := fun h ↦ he (he'.trans h.symm)
        simp [he', hk]
      · simp [he']

theorem find?_append (k : κ) (entries entries' : Assoc κ α) :
    find? k (entries ++ entries') = (find? k entries).or (find? k entries') := by
  induction entries with
  | nil => simp
  | cons e rest ih =>
    rw [List.cons_append, find?_cons, find?_cons, ih]
    split <;> simp

theorem mem_keys_put {k k' : κ} {v : α} {entries : Assoc κ α} :
    k' ∈ keys (put k v entries) ↔ k' = k ∨ k' ∈ keys entries := by
  induction entries with
  | nil => simp [put, keys]
  | cons e rest ih =>
    simp only [keys] at ih
    by_cases he : e.1 = k
    · simp only [put_cons, he, if_true, keys, List.map_cons, List.mem_cons, or_self_left]
    · simp only [put_cons, he, if_false, keys, List.map_cons, List.mem_cons, ih]
      exact or_left_comm

theorem nodup_keys_put {k : κ} {v : α} {entries : Assoc κ α} (h : (keys entries).Nodup) :
    (keys (put k v entries)).Nodup := by
  induction entries with
  | nil => simp [put, keys]
  | cons e rest ih =>
    obtain ⟨hn, hr⟩ := List.nodup_cons.1 (by simpa only [keys, List.map_cons] using h)
    by_cases he : e.1 = k
    · simp only [put_cons, he, if_true, keys, List.map_cons]
      exact List.nodup_cons.2 ⟨he ▸ hn, hr⟩
    · simp only [put_cons, he, if_false, keys, List.map_cons]
      refine List.nodup_cons.2 ⟨fun hm ↦ ?_, ih hr⟩
      rcases mem_keys_put.1 hm with h' | h'
      · exact he h'
      · exact hn h'

theorem find?_eq_none_iff {k : κ} {entries : Assoc κ α} :
    find? k entries = none ↔ k ∉ keys entries := by
  induction entries with
  | nil => simp [keys]
  | cons e rest ih =>
    by_cases he : e.1 = k
    · simp [find?_cons, keys, he]
    · simp only [find?_cons, he, if_false, ih, keys, List.map_cons, List.mem_cons, not_or]
      exact ⟨fun h ↦ ⟨Ne.symm he, h⟩, fun h ↦ h.2⟩

theorem mem_of_find?_eq_some {k : κ} {v : α} {entries : Assoc κ α}
    (h : find? k entries = some v) : (k, v) ∈ entries := by
  induction entries with
  | nil => cases h
  | cons e rest ih =>
    rw [find?_cons] at h
    split at h
    case isTrue he =>
      cases h
      exact List.mem_cons.2 (.inl (by rw [← he]))
    case isFalse => exact List.mem_cons_of_mem _ (ih h)

theorem find?_eq_some_iff {k : κ} {v : α} {entries : Assoc κ α} (hn : (keys entries).Nodup) :
    find? k entries = some v ↔ (k, v) ∈ entries := by
  refine ⟨mem_of_find?_eq_some, fun hm ↦ ?_⟩
  induction entries with
  | nil => cases hm
  | cons e rest ih =>
    obtain ⟨hk, hr⟩ := List.nodup_cons.1 (by simpa only [keys, List.map_cons] using hn)
    rw [find?_cons]
    rcases List.mem_cons.1 hm with rfl | hm
    · simp
    · have he : e.1 ≠ k := fun h ↦ hk (h ▸ List.mem_map.2 ⟨(k, v), hm, rfl⟩)
      rw [if_neg he]
      exact ih hr hm

theorem put_of_not_mem {k : κ} {v : α} {entries : Assoc κ α} (h : k ∉ keys entries) :
    put k v entries = entries ++ [(k, v)] := by
  induction entries with
  | nil => rfl
  | cons e rest ih =>
    obtain ⟨he, hr⟩ := not_or.1 (mt List.mem_cons.2 h)
    rw [put_cons, if_neg (Ne.symm he), ih hr, List.cons_append]

theorem keys_put (k : κ) (v : α) (entries : Assoc κ α) :
    keys (put k v entries) = if k ∈ keys entries then keys entries else keys entries ++ [k] := by
  by_cases h : k ∈ keys entries
  · rw [if_pos h]
    induction entries with
    | nil => cases h
    | cons e rest ih =>
      rw [put_cons]
      by_cases he : e.1 = k
      · rw [if_pos he]
        simp only [keys, List.map_cons, he]
      · have hr : k ∈ keys rest := (List.mem_cons.1 h).resolve_left (Ne.symm he)
        rw [if_neg he]
        exact congrArg (e.1 :: ·) (ih hr)
  · rw [if_neg h, put_of_not_mem h]
    simp only [keys, List.map_append, List.map_cons, List.map_nil]

theorem find?_reverse {entries : Assoc κ α} (hn : (keys entries).Nodup) (k : κ) :
    find? k entries.reverse = find? k entries := by
  have hr : (keys entries.reverse).Nodup := by
    rw [keys, List.map_reverse]
    exact List.pairwise_reverse.2 (hn.imp Ne.symm)
  apply Option.ext
  intro v
  rw [find?_eq_some_iff hr, find?_eq_some_iff hn, List.mem_reverse]

end Assoc

end LocalNames
