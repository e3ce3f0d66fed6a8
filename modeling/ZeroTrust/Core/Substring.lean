import ZeroTrust.Core.Bytes
import Mathlib.Data.List.Infix

/-!
# Substring search

Where `s.find(sub)` finds what it looks for.
-/

namespace ZeroTrust

variable {sub s : Bytes}

/-- Nothing is found exactly if the text does not contain it. -/
theorem findSub_eq_none : findSub sub s = none ↔ ¬sub <:+: s := by
  induction s with
  | nil =>
    rw [findSub, List.infix_nil]
    split_ifs with h <;> simp [h]
  | cons c s ih =>
    rw [findSub, List.infix_cons_iff]
    split_ifs with h
    · simp [List.isPrefixOf_iff_prefix.mp h]
    · rw [Option.map_eq_none_iff, ih, not_or]
      exact (and_iff_right fun hstart => h (List.isPrefixOf_iff_prefix.mpr hstart)).symm

/-- The search finds a text exactly if it is a part. -/
theorem contains_iff : contains s sub = true ↔ sub <:+: s := by
  rw [contains, Option.isSome_iff_ne_none, ne_eq, findSub_eq_none, not_not]

/-- Text without the first byte of what is looked for is passed over. -/
theorem findSub_append {c : Byte} {t : Bytes} (h : c ∉ t) :
    findSub (c :: sub) (t ++ s) = (findSub (c :: sub) s).map (· + t.length) := by
  induction t with
  | nil => simp
  | cons d t ih =>
    have hd : c ≠ d := fun heq => h (heq ▸ List.mem_cons_self)
    have hstart : (c :: sub).isPrefixOf (d :: (t ++ s)) = false := by
      simp [List.isPrefixOf, hd]
    rw [List.cons_append, findSub, hstart, if_neg Bool.false_ne_true, ih fun hc => h (List.mem_cons_of_mem d hc),
      Option.map_map]
    rfl

/-- A part is not found in front of its first byte. -/
theorem infix_append_iff {c : Byte} {t : Bytes} (h : c ∉ t) : c :: sub <:+: t ++ s ↔ c :: sub <:+: s := by
  rw [← contains_iff, ← contains_iff, contains, contains, findSub_append h, Option.isSome_map]

/-- So is a byte at the end that is not looked for. -/
theorem infix_concat_iff_of_not_mem {c : Byte} (h : c ∉ sub) (hne : sub ≠ []) : sub <:+: s ++ [c] ↔ sub <:+: s := by
  rw [List.infix_concat_iff]
  apply or_iff_right
  rintro ⟨t, ht⟩
  apply h
  have hlast := congrArg List.getLast? ht
  rw [List.getLast?_append_of_ne_nil _ hne, List.getLast?_concat] at hlast
  exact List.mem_of_getLast? hlast

/-- What begins the text is found at its start. -/
theorem findSub_of_isPrefix (h : sub <+: s) : findSub sub s = some 0 := by
  cases s with
  | nil => rw [findSub, if_pos (List.prefix_nil.mp h)]
  | cons c s => rw [findSub, if_pos (List.isPrefixOf_iff_prefix.mpr h)]

/-- A single byte is found at its first position. -/
theorem findSub_singleton (c : Byte) (s : Bytes) : findSub [c] s = findByte c s := by
  induction s with
  | nil => rfl
  | cons d s ih =>
    rw [findSub, findByte, List.findIdx?_cons, ih]
    by_cases hd : d = c
    · simp [hd]
    · have hc : ¬c = d := fun heq => hd heq.symm
      simp [hd, hc, findByte]

/-- It is found no later than where it stands. -/
theorem exists_findByte_le {c : Byte} {i : ℕ} (h : s[i]? = some c) : ∃ j ≤ i, findByte c s = some j := by
  obtain ⟨hi, hc⟩ := List.getElem?_eq_some_iff.mp h
  unfold findByte
  cases hfind : s.findIdx? (· == c) with
  | none =>
    have hne := List.findIdx?_eq_none_iff.mp hfind c (hc ▸ List.getElem_mem hi)
    simp at hne
  | some j =>
    obtain ⟨hj, -, hbefore⟩ := List.findIdx?_eq_some_iff_getElem.mp hfind
    refine ⟨j, ?_, rfl⟩
    by_contra hlt
    have hne := hbefore i (by omega)
    simp [hc] at hne

end ZeroTrust
