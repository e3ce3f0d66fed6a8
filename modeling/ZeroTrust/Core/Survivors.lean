import ZeroTrust.Core.Dedup
import Mathlib.Data.Prod.Lex

/-!
# What survives deduplication

There is one survivor for each identity. Its fields are those of one finding of its class, but its evidence
and description may come from others. Which finding it is depends on where evidence first occurs: what is
found before is replaced by whatever comes next, so the strongest finding may be lost.
-/

namespace ZeroTrust

/-- The fold of a class is one of its findings, with the evidence of one and the description of another. -/
theorem foldl_mergeFinding_texts (first : Finding) (rest : List Finding) :
    ∃ f ∈ first :: rest, ∃ e ∈ first :: rest, ∃ d ∈ first :: rest,
      rest.foldl mergeFinding first = f.withTexts e.evidence d.description := by
  induction rest using List.reverseRecOn with
  | nil =>
    have hfirst := List.mem_singleton_self first
    exact ⟨first, hfirst, first, hfirst, first, hfirst, rfl⟩
  | append_singleton rest g ih =>
    obtain ⟨f, hf, e, he, d, hd, hfold⟩ := ih
    rw [List.foldl_concat, hfold, ← List.cons_append]
    have hold : ∀ a ∈ first :: rest, a ∈ first :: rest ++ [g] := fun a ha => List.mem_append_left _ ha
    have hnew : g ∈ first :: rest ++ [g] := List.mem_append_right _ (List.mem_singleton_self g)
    unfold mergeFinding
    split
    · refine ⟨g, hnew, ?_⟩
      by_cases hevidence : g.evidence.isEmpty
      · refine ⟨e, hold e he, ?_⟩
        by_cases hdescription : g.description.isEmpty
        · exact ⟨d, hold d hd, by simp only [if_pos hevidence, if_pos hdescription, Finding.withTexts]⟩
        · exact ⟨g, hnew, by simp only [if_pos hevidence, if_neg hdescription, Finding.withTexts]⟩
      · refine ⟨g, hnew, ?_⟩
        by_cases hdescription : g.description.isEmpty
        · exact ⟨d, hold d hd, by simp only [if_neg hevidence, if_pos hdescription, Finding.withTexts]⟩
        · exact ⟨g, hnew, by simp only [if_neg hevidence, if_neg hdescription, Finding.withTexts]⟩
    · exact ⟨f, hold f hf, e, hold e he, d, hold d hd, rfl⟩

/-- The findings of an identity are in the vector. -/
theorem mem_class {findings : List Finding} {first : Finding} {rest : List Finding} {key : Bytes}
    (hclass : findings.filter (findingIdentity · = key) = first :: rest) (f : Finding) :
    f ∈ first :: rest ↔ f ∈ findings ∧ findingIdentity f = key := by
  rw [← hclass, List.mem_filter, decide_eq_true_eq]

/-- Deduplication keeps one finding of each identity, in order of first occurrence. A survivor is a finding
of its identity with the evidence and the description of others of it, and it has evidence if one of them
has. Deduplicating again changes nothing. -/
theorem deduplicateFindings_keeps_one (findings : List Finding) :
    ((deduplicateFindings findings).map findingIdentity).Nodup ∧
    (deduplicateFindings findings).map findingIdentity = (findings.map findingIdentity).eraseDups ∧
    (∀ g ∈ deduplicateFindings findings,
      (∃ f ∈ findings, ∃ e ∈ findings, ∃ d ∈ findings, findingIdentity f = findingIdentity g ∧
        findingIdentity e = findingIdentity g ∧ findingIdentity d = findingIdentity g ∧
        g = f.withTexts e.evidence d.description) ∧
      (g.evidence ≠ [] ↔ ∃ f ∈ findings, findingIdentity f = findingIdentity g ∧ f.evidence ≠ [])) ∧
    deduplicateFindings (deduplicateFindings findings) = deduplicateFindings findings := by
  have hnodup := deduplicateFindings_nodup findings
  refine ⟨hnodup, ?_, fun g hg => ?_, deduplicateFindings_of_nodup hnodup⟩
  · rw [deduplicateFindings_eq_mergeByKey]
    exact mergeByKey_map_key_eq findingIdentity findingIdentity_mergeFinding findings
  · rw [deduplicateFindings_eq_mergeByKey] at hg
    obtain ⟨first, rest, hclass, hg⟩ := mergeByKey_slot findingIdentity findingIdentity_mergeFinding hg
    have hmem := mem_class hclass
    constructor
    · obtain ⟨f, hf, e, he, d, hd, hfold⟩ := foldl_mergeFinding_texts first rest
      obtain ⟨hf, hfg⟩ := (hmem f).mp hf
      obtain ⟨he, heg⟩ := (hmem e).mp he
      obtain ⟨hd, hdg⟩ := (hmem d).mp hd
      exact ⟨f, hf, e, he, d, hd, hfg, heg, hdg, hg.trans hfold⟩
    · obtain ⟨f, evidence, description, -, hfold, hevidence⟩ := foldl_mergeFinding first rest
      rw [hg, hfold]
      change evidence ≠ [] ↔ _
      rw [ne_eq, ← List.isEmpty_iff, hevidence, List.all_eq_true]
      push Not
      constructor
      · rintro ⟨f, hf, hne⟩
        obtain ⟨hf, hfg⟩ := (hmem f).mp hf
        exact ⟨f, hf, hfg.trans (by rw [hg, hfold]), fun hnil => hne (List.isEmpty_iff.mpr hnil)⟩
      · rintro ⟨f, hf, hfg, hne⟩
        exact ⟨f, (hmem f).mpr ⟨hf, hfg.trans (by rw [hg, hfold])⟩, fun hnil => hne (List.isEmpty_iff.mp hnil)⟩

/-- The order in which findings are preferred: by verification, then by score. -/
def strength (finding : Finding) : ℕ ×ₗ ℚ := toLex (verificationRank finding.verification, finding.confidenceScore)

/-- `better_finding` compares the strengths. -/
theorem betterFinding_iff (finding current : Finding) :
    betterFinding finding current = true ↔ strength current < strength finding := by
  rw [strength, strength, Prod.Lex.toLex_lt_toLex]
  simp only [betterFinding, Bool.or_eq_true, Bool.and_eq_true, decide_eq_true_eq, beq_iff_eq, gt_iff_lt]
  rw [@eq_comm ℕ (verificationRank finding.verification)]

/-- At least as strong: no weaker verification, and no lower score for the same one. -/
theorem strength_le_iff (f g : Finding) : strength f ≤ strength g ↔
    verificationRank f.verification ≤ verificationRank g.verification ∧
      (verificationRank f.verification = verificationRank g.verification → f.confidenceScore ≤ g.confidenceScore) :=
  Prod.Lex.toLex_le_toLex'

/-- Looking for better findings ends with one that none is better than. -/
theorem foldl_betterFinding (fs : List Finding) (f : Finding) :
    fs.foldl (fun best g => if betterFinding g best then g else best) f ∈ f :: fs ∧
      ∀ g ∈ f :: fs, strength g ≤ strength (fs.foldl (fun best g => if betterFinding g best then g else best) f) := by
  induction fs using List.reverseRecOn with
  | nil => exact ⟨List.mem_singleton_self f, List.forall_mem_singleton.mpr le_rfl⟩
  | append_singleton fs h ih =>
    obtain ⟨hbest, hmax⟩ := ih
    rw [List.foldl_concat, ← List.cons_append]
    split
    · next hbetter =>
      have hlt := (betterFinding_iff _ _).mp hbetter
      refine ⟨List.mem_append_right _ (List.mem_singleton_self h), List.forall_mem_append.mpr ⟨?_, ?_⟩⟩
      · exact fun g hg => (hmax g hg).trans hlt.le
      · exact List.forall_mem_singleton.mpr le_rfl
    · next hbetter =>
      have hle := not_lt.mp (mt (betterFinding_iff _ _).mpr hbetter)
      exact ⟨List.mem_append_left _ hbest, List.forall_mem_append.mpr ⟨hmax, List.forall_mem_singleton.mpr hle⟩⟩

/-- What is found before the first evidence is no stronger than all that comes from there on; without any
evidence, the last finding is the strongest. -/
def StrongestShown (findings : List Finding) : Prop :=
  match findings.dropWhile (·.evidence.isEmpty) with
  | [] => ∀ last ∈ findings.getLast?, ∀ f ∈ findings, ¬betterFinding f last
  | shown => ∀ f ∈ findings.takeWhile (·.evidence.isEmpty), ∃ g ∈ shown, ¬betterFinding f g

/-- The decisive finding is the strongest exactly if that one is shown. -/
theorem decisiveFinding_strongest_iff {findings : List Finding} {f : Finding} (h : decisiveFinding findings = some f) :
    (∀ g ∈ findings, strength g ≤ strength f) ↔ StrongestShown findings := by
  unfold decisiveFinding at h
  unfold StrongestShown
  cases hdrop : findings.dropWhile (·.evidence.isEmpty) with
  | nil =>
    rw [hdrop] at h
    rw [show findings.getLast? = some f from h]
    simp only [Option.mem_some_iff, forall_eq', betterFinding_iff, not_lt]
  | cons first shown =>
    rw [hdrop] at h
    have hsplit : findings = findings.takeWhile (·.evidence.isEmpty) ++ (first :: shown) := by
      rw [← hdrop, List.takeWhile_append_dropWhile]
    obtain ⟨hbest, hmax⟩ := foldl_betterFinding shown first
    rw [Option.some.inj h] at hbest hmax
    constructor
    · intro hall g hg
      have hle := hall g (hsplit ▸ List.mem_append_left _ hg)
      exact ⟨f, hbest, mt (betterFinding_iff _ _).mp (not_lt.mpr hle)⟩
    · intro hshown g hg
      rw [hsplit, List.mem_append] at hg
      rcases hg with hg | hg
      · obtain ⟨g', hg', hnot⟩ := hshown g hg
        exact (not_lt.mp (mt (betterFinding_iff _ _).mpr hnot)).trans (hmax g' hg')
      · exact hmax g hg

/-- The survivor of an identity has the strongest verification of its class, and the highest score for it,
exactly if what the class has before its first evidence is not stronger than all the rest. -/
theorem strongest_survives_iff (findings : List Finding) (key : Bytes) :
    (∀ g ∈ deduplicateFindings findings, findingIdentity g = key → ∀ f ∈ findings, findingIdentity f = key →
      verificationRank f.verification ≤ verificationRank g.verification ∧
        (verificationRank f.verification = verificationRank g.verification → f.confidenceScore ≤ g.confidenceScore)) ↔
    StrongestShown (findings.filter (findingIdentity · = key)) := by
  have hclass : ∀ f, f ∈ findings.filter (findingIdentity · = key) ↔ f ∈ findings ∧ findingIdentity f = key := by
    intro f
    rw [List.mem_filter, decide_eq_true_eq]
  simp only [← strength_le_iff]
  by_cases hoccurs : ∃ f ∈ findings, findingIdentity f = key
  · obtain ⟨f, hf, hkey⟩ := hoccurs
    obtain ⟨g, hg, hsame⟩ := exists_mem_deduplicateFindings hf
    have hgkey : findingIdentity g = key := hsame.trans hkey
    obtain ⟨best, evidence, description, hdecisive, rfl⟩ := decisiveFinding_of_mem hg
    rw [hgkey] at hdecisive
    rw [← decisiveFinding_strongest_iff hdecisive]
    constructor
    · intro hall f hf
      obtain ⟨hf, hkey⟩ := (hclass f).mp hf
      exact hall _ hg hgkey f hf hkey
    · intro hall g' hg' hkey' f hf hkey
      obtain ⟨best', evidence', description', hdecisive', rfl⟩ := decisiveFinding_of_mem hg'
      rw [hkey', hdecisive] at hdecisive'
      cases hdecisive'
      exact hall f ((hclass f).mpr ⟨hf, hkey⟩)
  · have hnil : findings.filter (findingIdentity · = key) = [] :=
      List.eq_nil_iff_forall_not_mem.mpr fun f hf => hoccurs ⟨f, (hclass f).mp hf⟩
    rw [hnil]
    refine iff_of_true (fun _ _ _ f hf hkey => (hoccurs ⟨f, hf, hkey⟩).elim) ?_
    exact nofun

/-- An active check without evidence. -/
def checkedFinding : Finding where
  pluginName := str "plugin"
  title := str "title"
  verification := str "ACTIVE_CHECK"

/-- The same finding from its version alone. -/
def guessedFinding : Finding := { checkedFinding with verification := str "VERSION_MATCH" }

/-- A version match takes the place of an active check, although neither has evidence. -/
theorem activeCheck_replaced :
    ¬∀ (findings : List Finding), ∀ g ∈ deduplicateFindings findings, ∀ f ∈ findings,
      findingIdentity f = findingIdentity g →
        verificationRank f.verification ≤ verificationRank g.verification ∧
          (verificationRank f.verification = verificationRank g.verification →
            f.confidenceScore ≤ g.confidenceScore) := by
  intro h
  have hsurvivor : guessedFinding ∈ deduplicateFindings [checkedFinding, guessedFinding] := by decide +kernel
  have hrank := (h _ _ hsurvivor checkedFinding List.mem_cons_self (by decide +kernel)).1
  exact absurd hrank (by decide +kernel)

end ZeroTrust
