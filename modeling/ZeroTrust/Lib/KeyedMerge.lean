import Mathlib.Data.List.Induction
import Mathlib.Data.List.Nodup

/-!
# Merging a list by key

Elements are inserted one after the other. The first element with a key opens a slot at
the end of the result; every later element with that key is merged into the slot. When
merging keeps the key, the result has one slot per key, in order of first occurrence, and
each slot is the fold of `merge` over the elements of its class.
-/

namespace ZeroTrust

universe u v

variable {α : Type u} {κ : Type v} [DecidableEq κ]

/-- Merge an element into the slot of its key, opening the slot if there is none. -/
def insertMerge (key : α → κ) (merge : α → α → α) : List α → α → List α
  | [], a => [a]
  | b :: bs, a => if key b = key a then merge b a :: bs else b :: insertMerge key merge bs a

/-- Merge a list by key, from left to right. -/
def mergeByKey (key : α → κ) (merge : α → α → α) (as : List α) : List α :=
  as.foldl (insertMerge key merge) []

section

variable (key : α → κ) (merge : α → α → α)

/-- Nothing is merged into nothing. -/
@[simp] theorem mergeByKey_nil : mergeByKey key merge [] = [] := rfl

/-- The last element is merged into what the others have made. -/
theorem mergeByKey_append_singleton (as : List α) (a : α) :
    mergeByKey key merge (as ++ [a]) = insertMerge key merge (mergeByKey key merge as) a := by
  simp [mergeByKey]

/-- An element with a new key is appended. -/
theorem insertMerge_of_not_mem {bs : List α} {a : α} (h : key a ∉ bs.map key) :
    insertMerge key merge bs a = bs ++ [a] := by
  induction bs with
  | nil => rfl
  | cons b bs ih =>
    simp only [List.map_cons, List.mem_cons, not_or] at h
    rw [insertMerge, if_neg (fun hb => h.1 hb.symm), ih h.2, List.cons_append]

/-- Insertion as a search for the slot followed by an update in place. -/
theorem insertMerge_eq_modify (bs : List α) (a : α) : insertMerge key merge bs a =
    match bs.findIdx? (fun b => key b = key a) with
    | none => bs ++ [a]
    | some i => bs.modify i (merge · a) := by
  induction bs with
  | nil => rfl
  | cons b bs ih =>
    rw [insertMerge, List.findIdx?_cons]
    by_cases hb : key b = key a
    · simp [hb]
    · simp only [hb, ih, if_false, decide_false]
      cases bs.findIdx? (fun b => key b = key a) <;> simp

variable {merge} in
/-- An element with a known key changes no key. -/
theorem insertMerge_map_key_of_mem (hkey : ∀ b a, key b = key a → key (merge b a) = key b)
    {bs : List α} {a : α} (h : key a ∈ bs.map key) :
    (insertMerge key merge bs a).map key = bs.map key := by
  induction bs with
  | nil => simp at h
  | cons b bs ih =>
    rw [insertMerge]
    split
    · next hb => simp [hkey b a hb]
    · next hb =>
      have hmem : key a ∈ bs.map key := by
        rcases List.mem_cons.mp h with ha | ha
        · exact absurd ha.symm hb
        · exact ha
      simp [ih hmem]

variable {merge} in
/-- The keys after an insertion. -/
theorem insertMerge_map_key (hkey : ∀ b a, key b = key a → key (merge b a) = key b)
    (bs : List α) (a : α) : (insertMerge key merge bs a).map key =
      if key a ∈ bs.map key then bs.map key else bs.map key ++ [key a] := by
  split
  · next h => exact insertMerge_map_key_of_mem key hkey h
  · next h => simp [insertMerge_of_not_mem key merge h]

variable {merge} in
/-- The keys of the slots are those of the elements, in order of first occurrence. -/
theorem mergeByKey_map_key_eq [BEq κ] [LawfulBEq κ] (hkey : ∀ b a, key b = key a → key (merge b a) = key b)
    (as : List α) : (mergeByKey key merge as).map key = (as.map key).eraseDups := by
  induction as using List.reverseRecOn with
  | nil => rfl
  | append_singleton as a ih =>
    rw [mergeByKey_append_singleton, insertMerge_map_key key hkey, ih, List.map_append, List.eraseDups_append]
    simp only [List.mem_eraseDups, List.map_cons, List.map_nil, List.removeAll, List.filter_cons, List.filter_nil]
    split
    · next h => simp [h]
    · next h => simp [h, List.eraseDups_cons]

variable {merge} in
/-- Every key has at most one slot. -/
theorem mergeByKey_map_key_nodup (hkey : ∀ b a, key b = key a → key (merge b a) = key b)
    (as : List α) : ((mergeByKey key merge as).map key).Nodup := by
  induction as using List.reverseRecOn with
  | nil => simp
  | append_singleton as a ih =>
    rw [mergeByKey_append_singleton, insertMerge_map_key key hkey]
    split
    · exact ih
    · next h => exact List.nodup_append.mpr ⟨ih, by simp, by simpa using h⟩

variable {merge} in
/-- The keys of the slots are exactly the keys of the elements. -/
theorem mem_mergeByKey_map_key (hkey : ∀ b a, key b = key a → key (merge b a) = key b)
    (as : List α) (k : κ) : k ∈ (mergeByKey key merge as).map key ↔ k ∈ as.map key := by
  induction as using List.reverseRecOn with
  | nil => simp
  | append_singleton as a ih =>
    rw [mergeByKey_append_singleton, insertMerge_map_key key hkey]
    simp only [List.map_append, List.map_cons, List.map_nil, List.mem_append, List.mem_singleton, ← ih]
    split
    · next h => exact ⟨Or.inl, fun hk => hk.elim id fun hk => hk ▸ h⟩
    · next h => simp only [List.mem_append, List.mem_singleton]

variable {merge} in
/-- Every element finds a slot with its key. -/
theorem exists_mem_mergeByKey (hkey : ∀ b a, key b = key a → key (merge b a) = key b)
    {as : List α} {a : α} (ha : a ∈ as) : ∃ x ∈ mergeByKey key merge as, key x = key a :=
  List.mem_map.mp ((mem_mergeByKey_map_key key hkey as _).mpr (List.mem_map_of_mem ha))

/-- Where a member of the list after an insertion comes from. -/
theorem mem_insertMerge {bs : List α} (hnodup : (bs.map key).Nodup) {a x : α}
    (hx : x ∈ insertMerge key merge bs a) :
    (x ∈ bs ∧ key x ≠ key a) ∨ (∃ b ∈ bs, key b = key a ∧ x = merge b a) ∨
      (key a ∉ bs.map key ∧ x = a) := by
  induction bs with
  | nil => exact Or.inr (Or.inr ⟨by simp, by simpa [insertMerge] using hx⟩)
  | cons b bs ih =>
    rw [List.map_cons, List.nodup_cons] at hnodup
    rw [insertMerge] at hx
    split at hx
    · next hb =>
      rcases List.mem_cons.mp hx with rfl | hx
      · exact Or.inr (Or.inl ⟨b, List.mem_cons_self, hb, rfl⟩)
      · have hne : key x ≠ key a := fun h => hnodup.1 (hb ▸ h ▸ List.mem_map_of_mem hx)
        exact Or.inl ⟨List.mem_cons_of_mem _ hx, hne⟩
    · next hb =>
      rcases List.mem_cons.mp hx with rfl | hx
      · exact Or.inl ⟨List.mem_cons_self, hb⟩
      · rcases ih hnodup.2 hx with ⟨hx, hne⟩ | ⟨c, hc, hkc, rfl⟩ | ⟨hnot, rfl⟩
        · exact Or.inl ⟨List.mem_cons_of_mem _ hx, hne⟩
        · exact Or.inr (Or.inl ⟨c, List.mem_cons_of_mem _ hc, hkc, rfl⟩)
        · refine Or.inr (Or.inr ⟨?_, rfl⟩)
          rw [List.map_cons, List.mem_cons, not_or]
          exact ⟨fun h => hb h.symm, hnot⟩

variable {merge} in
/-- A slot is the fold of `merge` over its class, started at the first element of the class. -/
theorem mergeByKey_slot (hkey : ∀ b a, key b = key a → key (merge b a) = key b)
    {as : List α} {x : α} (hx : x ∈ mergeByKey key merge as) :
    ∃ first rest, as.filter (fun a => key a = key x) = first :: rest ∧ x = rest.foldl merge first := by
  induction as using List.reverseRecOn generalizing x with
  | nil => simp at hx
  | append_singleton as a ih =>
    rw [mergeByKey_append_singleton] at hx
    rcases mem_insertMerge key merge (mergeByKey_map_key_nodup key hkey as) hx with
      ⟨hx, hne⟩ | ⟨b, hb, hba, rfl⟩ | ⟨hnot, rfl⟩
    · obtain ⟨first, rest, hclass, hfold⟩ := ih hx
      refine ⟨first, rest, ?_, hfold⟩
      rw [List.filter_append, hclass]
      simp [Ne.symm hne]
    · obtain ⟨first, rest, hclass, rfl⟩ := ih hb
      refine ⟨first, rest ++ [a], ?_, by simp⟩
      rw [hkey _ a hba, List.filter_append, hclass]
      simp [hba]
    · refine ⟨x, [], ?_, rfl⟩
      have hempty : as.filter (fun b => key b = key x) = [] := by
        rw [List.filter_eq_nil_iff]
        intro b hb hbx
        rw [decide_eq_true_eq] at hbx
        exact hnot ((mem_mergeByKey_map_key key hkey as _).mpr (hbx ▸ List.mem_map_of_mem hb))
      rw [List.filter_append, hempty]
      simp

/-- Keys that are already distinct leave nothing to merge. -/
theorem mergeByKey_of_nodup {as : List α} (h : (as.map key).Nodup) : mergeByKey key merge as = as := by
  induction as using List.reverseRecOn with
  | nil => rfl
  | append_singleton as a ih =>
    rw [List.map_append, List.nodup_append] at h
    rw [mergeByKey_append_singleton, ih h.1, insertMerge_of_not_mem]
    intro ha
    exact h.2.2 _ ha (key a) (by simp) rfl

end

end ZeroTrust
