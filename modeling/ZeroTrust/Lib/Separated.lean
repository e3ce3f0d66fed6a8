import Mathlib.Data.List.Basic

/-!
# Fields joined by a separator

Joining fields that may contain the separator themselves loses where one field ends and the next begins.
What is kept are the pieces between separators; the fields can be told from them as soon as it is known how
many separators each one contains.
-/

namespace ZeroTrust

universe u

variable {α : Type u} [BEq α] [LawfulBEq α] (x : α)

/-- Cutting joined fields gives the pieces of each of them. -/
theorem splitOn_intercalate_eq_flatMap {fields : List (List α)} (h : fields ≠ []) :
    ([x].intercalate fields).splitOn x = fields.flatMap (·.splitOn x) := by
  induction fields with
  | nil => exact (h rfl).elim
  | cons field rest ih =>
    cases rest with
    | nil => simp
    | cons next rest =>
      rw [List.intercalate_cons_cons, List.append_assoc, List.singleton_append, List.splitOn_append_cons_self,
        ih (List.cons_ne_nil next rest)]
      rfl

/-- Joined fields are the same exactly if their pieces are. -/
theorem intercalate_eq_iff {fields fields' : List (List α)} (h : fields ≠ []) (h' : fields' ≠ []) :
    [x].intercalate fields = [x].intercalate fields' ↔
      fields.flatMap (·.splitOn x) = fields'.flatMap (·.splitOn x) := by
  rw [← splitOn_intercalate_eq_flatMap x h, ← splitOn_intercalate_eq_flatMap x h']
  constructor
  · exact fun hjoined => hjoined ▸ rfl
  · intro hpieces
    have hjoin : ∀ joined : List α, [x].intercalate (joined.splitOn x) = joined := fun _ => List.intercalate_splitOn x
    rw [← hjoin ([x].intercalate fields), hpieces, hjoin]

omit [LawfulBEq α] in
/-- There is one piece more than there are separators. -/
theorem length_splitOn (field : List α) : (field.splitOn x).length = field.count x + 1 := by
  induction field with
  | nil => simp
  | cons c field ih =>
    rw [List.splitOn_cons_eq_if_modifyHead, List.count_cons]
    split
    · simp [ih]
    · simp [ih]

omit [BEq α] [LawfulBEq α] in
/-- Joined fields have nothing but their elements and the separator. -/
theorem eq_or_exists_mem_of_mem_intercalate {fields : List (List α)} {c : α} (h : c ∈ [x].intercalate fields) :
    c = x ∨ ∃ field ∈ fields, c ∈ field := by
  induction fields with
  | nil => cases h
  | cons field rest ih =>
    cases rest with
    | nil =>
      rw [List.intercalate_singleton] at h
      exact .inr ⟨field, List.mem_singleton_self field, h⟩
    | cons next rest =>
      rw [List.intercalate_cons_cons, List.append_assoc, List.mem_append, List.singleton_append, List.mem_cons] at h
      rcases h with h | h | h
      · exact .inr ⟨field, List.mem_cons_self, h⟩
      · exact .inl h
      · apply (ih h).imp_right
        exact fun ⟨field', hfield, hc⟩ => ⟨field', List.mem_cons_of_mem field hfield, hc⟩

/-- What is no separator stands in one of the pieces. -/
theorem eq_or_exists_mem_splitOn {text : List α} {c : α} (h : c ∈ text) : c = x ∨ ∃ field ∈ text.splitOn x, c ∈ field :=
  eq_or_exists_mem_of_mem_intercalate x ((List.intercalate_splitOn x).symm ▸ h)

/-- A field can be told from its pieces. -/
theorem splitOn_injective : Function.Injective fun field : List α => field.splitOn x := by
  intro field field' h
  have hjoin : ∀ joined : List α, [x].intercalate (joined.splitOn x) = joined := fun _ => List.intercalate_splitOn x
  rw [← hjoin field, show field.splitOn x = field'.splitOn x from h, hjoin]

/-- Fields with the same pieces and the same numbers of separators are the same. -/
theorem eq_of_flatMap_splitOn_eq {fields fields' : List (List α)}
    (hpieces : fields.flatMap (·.splitOn x) = fields'.flatMap (·.splitOn x))
    (hcounts : fields.map (·.count x) = fields'.map (·.count x)) : fields = fields' := by
  induction fields generalizing fields' with
  | nil => exact (List.map_eq_nil_iff.mp hcounts.symm).symm
  | cons field rest ih =>
    cases fields' with
    | nil => cases hcounts
    | cons field' rest' =>
      obtain ⟨hcount, hrest⟩ := List.cons.inj hcounts
      have hlength : (field.splitOn x).length = (field'.splitOn x).length := by
        rw [length_splitOn, length_splitOn]
        exact congrArg (· + 1) hcount
      obtain ⟨hfirst, hpieces⟩ := List.append_inj hpieces hlength
      rw [splitOn_injective x hfirst, ih hpieces hrest]

end ZeroTrust
