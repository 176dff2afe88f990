import Mathlib.Data.List.Nodup
import Mathlib.Data.List.Basic

/-!
# Records

Finite maps as a scripting language keeps them: the entries stand in the order in which
their keys were first written, and a later write to a key changes the entry in place.
`get?_insert` and `get?_map` say what each operation does to a lookup, so no proof about a
record has to look at the entries.
-/

structure Record (κ : Type*) (α : Type*) where
  entries : List (κ × α)
  nodup : (entries.map Prod.fst).Nodup

namespace Record

open List Option

variable {κ α β : Type*}

def empty : Record κ α := ⟨[], List.nodup_nil⟩

def keys (r : Record κ α) : List κ := r.entries.map Prod.fst

def values (r : Record κ α) : List α := r.entries.map Prod.snd

def map (f : κ → α → β) (r : Record κ α) : Record κ β :=
  ⟨r.entries.map fun e => (e.1, f e.1 e.2), by rw [List.map_map]; exact r.nodup⟩

def filter (p : κ → α → Bool) (r : Record κ α) : Record κ α :=
  ⟨r.entries.filter fun e => p e.1 e.2, r.nodup.sublist (List.filter_sublist.map _)⟩

section Lookup

variable [DecidableEq κ] {r : Record κ α} {k k' : κ} {v : α}

def get? (r : Record κ α) (k : κ) : Option α :=
  (r.entries.find? (·.1 = k)).map Prod.snd

theorem mem_entries : (k, v) ∈ r.entries ↔ r.get? k = some v := by
  obtain ⟨entries, hn⟩ := r
  simp only [get?]
  induction entries with
  | nil => simp
  | cons e rest ih =>
    obtain ⟨hh, ht⟩ := nodup_cons.1 hn
    by_cases he : e.1 = k
    · have ha : (k, v) ∉ rest := fun hm =>
        hh (he ▸ List.mem_map_of_mem hm)
      rw [find?_cons_of_pos (by simpa using he), mem_cons, or_iff_left ha,
        map_some, some_inj, Prod.ext_iff, ← he]
      exact ⟨fun h => h.2.symm, fun h => ⟨rfl, h.symm⟩⟩
    · rw [find?_cons_of_neg (by simpa using he), ← ih ht, mem_cons, or_iff_right]
      rintro rfl
      exact he rfl

theorem mem_values : v ∈ r.values ↔ ∃ k, r.get? k = some v := by
  unfold values
  rw [List.mem_map]
  constructor
  · rintro ⟨⟨k, v⟩, he, rfl⟩
    exact ⟨k, mem_entries.1 he⟩
  · rintro ⟨k, hk⟩
    exact ⟨(k, v), mem_entries.2 hk, rfl⟩

theorem mem_keys : k ∈ r.keys ↔ ∃ v, r.get? k = some v := by
  unfold keys
  rw [List.mem_map]
  constructor
  · rintro ⟨⟨k, v⟩, he, rfl⟩
    exact ⟨v, mem_entries.1 he⟩
  · rintro ⟨v, hv⟩
    exact ⟨(k, v), mem_entries.2 hv, rfl⟩

@[simp] theorem get?_empty : (empty : Record κ α).get? k = none := rfl

@[simp] theorem get?_map (f : κ → α → β) : (r.map f).get? k = (r.get? k).map (f k) := by
  refine ext fun v => ?_
  rw [← mem_entries, map_eq_some_iff]
  simp only [map, List.mem_map, ← mem_entries, Prod.ext_iff]
  constructor
  · rintro ⟨e, he, rfl, rfl⟩
    exact ⟨e.2, he, rfl⟩
  · rintro ⟨v, hv, rfl⟩
    exact ⟨(k, v), hv, rfl, rfl⟩

/-- `delete r[k]`. -/
def erase (r : Record κ α) (k : κ) : Record κ α := r.filter fun k' _ => k' ≠ k

/-- `r[k] = v`. -/
def insert (r : Record κ α) (k : κ) (v : α) : Record κ α :=
  if h : k ∈ r.keys then r.map fun k' v' => if k' = k then v else v'
  else ⟨r.entries ++ [(k, v)], by
    rw [List.map_append, List.map_singleton, ← List.concat_eq_append]
    exact r.nodup.concat h⟩

theorem get?_insert : (r.insert k v).get? k' = if k' = k then some v else r.get? k' := by
  unfold insert
  split
  · next h =>
    obtain ⟨old, ho⟩ := mem_keys.1 h
    rw [get?_map]
    split
    · next heq =>
      subst heq
      rw [ho]
      rfl
    · exact Option.map_id'
  · next h =>
    refine ext fun w => ?_
    rw [← mem_entries, mem_append, mem_entries, mem_singleton, Prod.ext_iff]
    have ha : r.get? k = none := by
      rw [eq_none_iff_forall_ne_some]
      exact fun w hw => h (mem_keys.2 ⟨w, hw⟩)
    by_cases heq : k' = k
    · subst heq
      simp [ha, eq_comm]
    · simp [heq]

@[simp] theorem get?_insert_self : (r.insert k v).get? k = some v := by
  rw [get?_insert, if_pos rfl]

theorem get?_insert_of_ne (h : k' ≠ k) : (r.insert k v).get? k' = r.get? k' := by
  rw [get?_insert, if_neg h]

theorem insert_of_get? (h : r.get? k = some v) : r.insert k v = r := by
  have hk : k ∈ r.keys := mem_keys.2 ⟨v, h⟩
  have hen : r.entries.map (fun e => (e.1, if e.1 = k then v else e.2)) = r.entries := by
    refine (map_congr_left fun e he => ?_).trans (List.map_id _)
    by_cases heq : e.1 = k
    · have hv : r.get? e.1 = some e.2 := mem_entries.1 he
      rw [heq, h] at hv
      simp [heq, some_inj.1 hv, Prod.ext_iff]
    · simp [heq]
  rw [insert, dif_pos hk]
  cases r
  simpa [map] using hen

/-- `{...r, ...s}`. -/
def union (r s : Record κ α) : Record κ α := s.entries.foldl (fun r e => r.insert e.1 e.2) r

theorem union_self (r : Record κ α) : r.union r = r := by
  have hf : ∀ es : List (κ × α), es ⊆ r.entries →
      es.foldl (fun r e => r.insert e.1 e.2) r = r := by
    intro es
    induction es with
    | nil => exact fun _ => rfl
    | cons e es ih =>
      intro he
      obtain ⟨hh, ht⟩ := cons_subset.1 he
      rw [foldl_cons, insert_of_get? (mem_entries.1 hh)]
      exact ih ht
  exact hf r.entries (List.Subset.refl _)

end Lookup

end Record
