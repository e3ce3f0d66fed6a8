import ZeroTrust.Lib.KeyedMerge
import Mathlib.Data.List.Basic

/-!
# Tables with a primary key

A table has at most one row for each key. Putting a row replaces the one with its key, so after a
sequence of rows every key has the last of them, or what it had before.
-/

namespace ZeroTrust

universe u v

variable {α : Type u} {κ : Type v} [DecidableEq κ]

/-- Rows with pairwise different keys. -/
structure KeyedTable (key : α → κ) where
  rows : List α
  nodup : (rows.map key).Nodup

/-- The last row with a key. -/
def lastWith (key : α → κ) (k : κ) (rows : List α) : Option α := rows.reverse.find? (key · = k)

section

variable {key : α → κ} {k : κ} {rows : List α} {row : α}

/-- The last row with a key has that key. -/
theorem key_of_lastWith (h : lastWith key k rows = some row) : key row = k :=
  of_decide_eq_true (List.find?_some (p := fun a => decide (key a = k)) h)

/-- The last row with a key is one of the rows. -/
theorem mem_of_lastWith (h : lastWith key k rows = some row) : row ∈ rows :=
  List.mem_reverse.mp (List.mem_of_find?_eq_some h)

/-- There is a last row exactly for the keys that occur. -/
theorem lastWith_eq_none : lastWith key k rows = none ↔ k ∉ rows.map key := by
  simp [lastWith, List.find?_eq_none]

/-- The last row of all comes first. -/
theorem lastWith_append_singleton :
    lastWith key k (rows ++ [row]) = if key row = k then some row else lastWith key k rows := by
  rw [lastWith, List.reverse_append, List.reverse_singleton, List.singleton_append, List.find?_cons]
  by_cases h : key row = k
  · simp only [h, decide_true, if_true]
  · simp only [h, decide_false, if_false, lastWith]

end

namespace KeyedTable

variable {key : α → κ}

/-- The table without rows. -/
def empty : KeyedTable key := ⟨[], List.nodup_nil⟩

/-- The row with a key. -/
def find (table : KeyedTable key) (k : κ) : Option α := table.rows.find? (key · = k)

/-- Put a row in the place of the one with its key, or behind the others. -/
def put (table : KeyedTable key) (row : α) : KeyedTable key where
  rows := insertMerge key (fun _ a => a) table.rows row
  nodup := by
    rw [insertMerge_map_key key fun _ _ h => h.symm]
    split
    · exact table.nodup
    · next h => exact List.nodup_append.mpr ⟨table.nodup, List.nodup_singleton _, by simpa using h⟩

/-- Put rows one after the other. -/
def putAll (table : KeyedTable key) (rows : List α) : KeyedTable key := rows.foldl put table

variable {table other : KeyedTable key} {k : κ} {row : α}

/-- Rows are put one after the other. -/
theorem putAll_append_singleton (rows : List α) :
    table.putAll (rows ++ [row]) = (table.putAll rows).put row := by
  rw [putAll, List.foldl_append]
  rfl

/-- The rows are those that are found under their keys. -/
theorem mem_rows : row ∈ table.rows ↔ table.find (key row) = some row := by
  obtain ⟨rows, hnodup⟩ := table
  change row ∈ rows ↔ rows.find? (fun a => decide (key a = key row)) = some row
  induction rows with
  | nil => simp
  | cons a rows ih =>
    obtain ⟨ha, hrows⟩ := List.nodup_cons.mp hnodup
    rw [List.mem_cons, List.find?_cons]
    by_cases hkey : key a = key row
    · simp only [hkey, decide_true, Option.some.injEq]
      constructor
      · rintro (rfl | hrow)
        · rfl
        · exact absurd (hkey ▸ List.mem_map_of_mem hrow) ha
      · exact fun h => .inl h.symm
    · simp only [hkey, decide_false]
      rw [← ih hrows, or_iff_right]
      rintro rfl
      exact hkey rfl

/-- What is found under a key has that key. -/
theorem key_of_find (h : table.find k = some row) : key row = k :=
  of_decide_eq_true (List.find?_some (p := fun a => decide (key a = k)) h)

/-- Nothing is found exactly under the keys of no row. -/
theorem find_eq_none : table.find k = none ↔ k ∉ table.rows.map key := by
  simp [find, List.find?_eq_none]

/-- What is found after a row was put. -/
theorem find_put (table : KeyedTable key) (row : α) (k : κ) :
    (table.put row).find k = if key row = k then some row else table.find k := by
  obtain ⟨rows, hnodup⟩ := table
  change (insertMerge key (fun _ a => a) rows row).find? (fun a => decide (key a = k)) =
    if key row = k then some row else rows.find? fun a => decide (key a = k)
  clear hnodup
  induction rows with
  | nil =>
    rw [insertMerge, List.find?_cons, List.find?_nil]
    by_cases h : key row = k
    · simp only [h, decide_true, if_true]
    · simp only [h, decide_false, if_false]
  | cons b rows ih =>
    rw [insertMerge]
    by_cases hb : key b = key row
    · rw [if_pos hb, List.find?_cons, List.find?_cons, hb]
      by_cases h : key row = k
      · simp only [h, decide_true, if_true]
      · simp only [h, decide_false, if_false]
    · rw [if_neg hb, List.find?_cons, List.find?_cons, ih]
      by_cases h : key row = k
      · have hbk : key b ≠ k := fun hbk => hb (hbk.trans h.symm)
        simp only [h, hbk, decide_false, if_true]
      · simp only [h, if_false]

/-- After a sequence of rows every key has the last of them, or what it had before. -/
theorem find_putAll (table : KeyedTable key) (rows : List α) (k : κ) :
    (table.putAll rows).find k = (lastWith key k rows).or (table.find k) := by
  induction rows using List.reverseRecOn with
  | nil => rfl
  | append_singleton rows row ih =>
    rw [putAll_append_singleton, find_put, lastWith_append_singleton, ih]
    split
    · rfl
    · rfl

/-- Rows with new and different keys are appended. -/
theorem rows_putAll_of_nodup (table : KeyedTable key) {rows : List α}
    (h : (table.rows.map key ++ rows.map key).Nodup) : (table.putAll rows).rows = table.rows ++ rows := by
  induction rows using List.reverseRecOn with
  | nil => rw [List.append_nil]; rfl
  | append_singleton rows row ih =>
    rw [List.map_append, ← List.append_assoc, List.nodup_append] at h
    rw [putAll_append_singleton]
    change insertMerge key _ (table.putAll rows).rows row = _
    rw [ih h.1, insertMerge_of_not_mem, List.append_assoc]
    rw [List.map_append]
    exact fun hrow => h.2.2 _ hrow (key row) (List.mem_singleton_self _) rfl

/-- Where a row of the table comes from. -/
theorem mem_of_mem_putAll {rows : List α} (h : row ∈ (table.putAll rows).rows) :
    row ∈ rows ∨ row ∈ table.rows := by
  rw [mem_rows, find_putAll, Option.or_eq_some_iff] at h
  rcases h with h | ⟨-, h⟩
  · exact .inl (mem_of_lastWith h)
  · exact .inr (mem_rows.mpr h)

/-- Tables have the same rows under some keys if the same is found under them. -/
theorem mem_iff_iff_find (keys : κ → Prop) :
    (∀ row, keys (key row) → (row ∈ table.rows ↔ row ∈ other.rows)) ↔
      ∀ k, keys k → table.find k = other.find k := by
  constructor
  · intro h k hk
    apply Option.ext
    intro row
    constructor
    · intro hrow
      have hkey := key_of_find hrow
      subst hkey
      exact mem_rows.mp ((h row hk).mp (mem_rows.mpr hrow))
    · intro hrow
      have hkey := key_of_find hrow
      subst hkey
      exact mem_rows.mp ((h row hk).mpr (mem_rows.mpr hrow))
  · intro h row hk
    rw [mem_rows, mem_rows, h _ hk]

end KeyedTable

end ZeroTrust
