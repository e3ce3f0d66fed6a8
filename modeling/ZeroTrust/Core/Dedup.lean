import ZeroTrust.Core.Finding
import ZeroTrust.Lib.KeyedMerge
import Mathlib.Data.List.TakeWhile

/-!
# Deduplication of findings

`deduplicate_findings` keeps a vector of survivors and a map from identities to positions
in it. The two always describe each other, so the loop computes `mergeByKey` for
`findingIdentity` and `mergeFinding`, and everything else is read off that fold.
-/

namespace ZeroTrust

/-- The text under which findings count as the same. -/
def findingIdentity (finding : Finding) : Bytes :=
  let id := if finding.cveId = [] then finding.pluginName ++ str "|" ++ finding.title
    else finding.cveId
  let key := finding.host ++ str "|" ++ finding.scope ++ str "|" ++ finding.protocol.text ++ str "|"
  let key := if finding.scope ≠ str "HOST" then key ++ decimal finding.portNumber.toNat ++ str "|"
    else key
  key ++ finding.service ++ str "|" ++ id

/-- Whether a finding takes the place of the current one on its own strength. -/
def betterFinding (finding current : Finding) : Bool :=
  verificationRank finding.verification > verificationRank current.verification ||
    (verificationRank finding.verification == verificationRank current.verification &&
      finding.confidenceScore > current.confidenceScore)

/-- The same finding with other evidence and description. -/
def Finding.withTexts (finding : Finding) (evidence description : Bytes) : Finding :=
  { finding with evidence := evidence, description := description }

/-- What becomes of the current finding when another one of its identity arrives. -/
def mergeFinding (current finding : Finding) : Finding :=
  if betterFinding finding current || current.evidence.isEmpty then
    finding.withTexts (if finding.evidence.isEmpty then current.evidence else finding.evidence)
      (if finding.description.isEmpty then current.description else finding.description)
  else current

/-- The survivors so far and where each identity sits among them. -/
structure DedupState where
  unique : List Finding := []
  positions : Bytes → Option ℕ := fun _ => none

/-- One iteration of the loop over the findings. -/
def dedupStep (state : DedupState) (finding : Finding) : DedupState :=
  let key := findingIdentity finding
  match state.positions key with
  | none =>
    { unique := state.unique ++ [finding]
      positions := Function.update state.positions key (some state.unique.length) }
  | some i => { state with unique := state.unique.modify i (mergeFinding · finding) }

/-- `deduplicate_findings`. -/
def deduplicateFindings (findings : List Finding) : List Finding :=
  (findings.foldl dedupStep {}).unique

/-- The identity does not mention evidence or description. -/
@[simp] theorem findingIdentity_withTexts (finding : Finding) (evidence description : Bytes) :
    findingIdentity (finding.withTexts evidence description) = findingIdentity finding := rfl

/-- Merging two findings of one identity keeps that identity. -/
theorem findingIdentity_mergeFinding (current finding : Finding)
    (h : findingIdentity current = findingIdentity finding) :
    findingIdentity (mergeFinding current finding) = findingIdentity current := by
  unfold mergeFinding
  split
  · rw [findingIdentity_withTexts, h]
  · rfl

/-- What tells findings of one service apart. -/
def findingKey (finding : Finding) : Bytes :=
  if finding.cveId = [] then finding.pluginName ++ str "|" ++ finding.title else finding.cveId

/-- The identity of a finding on a port, field by field. -/
theorem findingIdentity_of_port {finding : Finding} (h : finding.scope = str "PORT") :
    findingIdentity finding = finding.host ++ (str "|PORT|" ++ (finding.protocol.text ++
      124 :: (decimal finding.portNumber.toNat ++ 124 :: (finding.service ++ 124 :: findingKey finding)))) := by
  have hpipe : str "|" = [124] := rfl
  have hport : str "|PORT|" = 124 :: (str "PORT" ++ [124]) := rfl
  have hhost : ¬str "PORT" = str "HOST" := by decide
  simp [findingIdentity, findingKey, h, hpipe, hport, hhost]

/-- No protocol name contains a separator. -/
theorem not_mem_protocol_text (protocol : Protocol) : 124 ∉ protocol.text := by
  cases protocol <;> decide

/-- Findings on ports of one host are of one identity only on the same port, for the same protocol. -/
theorem findingIdentity_port_inj {f g : Finding} (hf : f.scope = str "PORT") (hg : g.scope = str "PORT")
    (hhost : f.host = g.host) (h : findingIdentity f = findingIdentity g) :
    f.portNumber = g.portNumber ∧ f.service ++ 124 :: findingKey f = g.service ++ 124 :: findingKey g := by
  rw [findingIdentity_of_port hf, findingIdentity_of_port hg, hhost, List.append_cancel_left_eq,
    List.append_cancel_left_eq] at h
  obtain ⟨-, h⟩ := append_separator_inj (not_mem_protocol_text _) (not_mem_protocol_text _) h
  obtain ⟨hport, h⟩ := append_separator_inj (not_mem_decimal (by decide)) (not_mem_decimal (by decide)) h
  exact ⟨UInt16.toNat_inj.mp (decimal_injective hport), h⟩

/-- The position map is an index of the survivors. -/
def DedupState.Indexed (state : DedupState) : Prop :=
  ∀ key, state.positions key = state.unique.findIdx? (fun f => findingIdentity f = key)

/-- One step is an insertion by identity and keeps the index. -/
theorem dedupStep_correct {state : DedupState} (h : state.Indexed) (finding : Finding) :
    (dedupStep state finding).unique = insertMerge findingIdentity mergeFinding state.unique finding ∧
      (dedupStep state finding).Indexed := by
  have hpos := h (findingIdentity finding)
  rw [insertMerge_eq_modify]
  unfold dedupStep
  dsimp only
  rw [hpos]
  cases hfind : state.unique.findIdx? (fun f => findingIdentity f = findingIdentity finding) with
  | none =>
    refine ⟨rfl, fun key => ?_⟩
    simp only [List.findIdx?_append, List.findIdx?_singleton, Function.update_apply]
    split
    · next hkey => subst hkey; simp [hfind]
    · next hkey => rw [h key]; simp [Ne.symm hkey]
  | some i =>
    refine ⟨rfl, fun key => ?_⟩
    have hkeys : (state.unique.modify i (mergeFinding · finding)).map findingIdentity =
        state.unique.map findingIdentity := by
      have hmem : findingIdentity finding ∈ state.unique.map findingIdentity := by
        obtain ⟨hi, hp, -⟩ := List.findIdx?_eq_some_iff_getElem.mp hfind
        exact List.mem_map.mpr ⟨_, List.getElem_mem hi, by simpa using hp⟩
      have := @insertMerge_map_key_of_mem _ _ _ findingIdentity mergeFinding
        findingIdentity_mergeFinding _ _ hmem
      rwa [insertMerge_eq_modify, hfind] at this
    have hindex (fs : List Finding) : fs.findIdx? (fun f => findingIdentity f = key) =
        (fs.map findingIdentity).findIdx? (fun k => k = key) := by
      rw [List.findIdx?_map]; rfl
    rw [h key, hindex, hindex, hkeys]

/-- The loop merges by identity. -/
theorem deduplicateFindings_eq_mergeByKey (findings : List Finding) :
    deduplicateFindings findings = mergeByKey findingIdentity mergeFinding findings := by
  have hfold : ∀ fs : List Finding, (fs.foldl dedupStep {}).unique =
      mergeByKey findingIdentity mergeFinding fs ∧ (fs.foldl dedupStep {}).Indexed := by
    intro fs
    induction fs using List.reverseRecOn with
    | nil => exact ⟨rfl, fun _ => rfl⟩
    | append_singleton fs f ih =>
      rw [List.foldl_concat, mergeByKey_append_singleton, ← ih.1]
      exact dedupStep_correct ih.2 f
  exact (hfold findings).1

/-- Every finding leaves a survivor of its identity. -/
theorem exists_mem_deduplicateFindings {findings : List Finding} {f : Finding} (hf : f ∈ findings) :
    ∃ g ∈ deduplicateFindings findings, findingIdentity g = findingIdentity f := by
  rw [deduplicateFindings_eq_mergeByKey]
  exact exists_mem_mergeByKey findingIdentity findingIdentity_mergeFinding hf

/-- A merge returns one of its two arguments, up to evidence and description. -/
theorem mergeFinding_cases (current finding : Finding) :
    mergeFinding current finding = current ∨ ∃ evidence description,
      mergeFinding current finding = finding.withTexts evidence description := by
  unfold mergeFinding
  split
  · exact Or.inr ⟨_, _, rfl⟩
  · exact Or.inl rfl

/-- A survivor is a finding of its class, up to evidence and description. -/
theorem mem_deduplicateFindings {findings : List Finding} {g : Finding}
    (hg : g ∈ deduplicateFindings findings) : ∃ f ∈ findings, findingIdentity f = findingIdentity g ∧
      ∃ evidence description, g = f.withTexts evidence description := by
  rw [deduplicateFindings_eq_mergeByKey] at hg
  obtain ⟨first, rest, hclass, hg⟩ := mergeByKey_slot findingIdentity findingIdentity_mergeFinding hg
  have hfold : ∀ (rest : List Finding) (first : Finding), ∃ f ∈ first :: rest,
      ∃ evidence description, rest.foldl mergeFinding first = f.withTexts evidence description := by
    intro rest
    induction rest using List.reverseRecOn with
    | nil => exact fun first => ⟨first, List.mem_cons_self, first.evidence, first.description, rfl⟩
    | append_singleton rest f ih =>
      intro first
      rw [List.foldl_concat]
      rcases mergeFinding_cases (rest.foldl mergeFinding first) f with h | ⟨e, d, h⟩
      · obtain ⟨f', hf', e, d, hfold⟩ := ih first
        refine ⟨f', ?_, e, d, h.trans hfold⟩
        rw [← List.cons_append]
        exact List.mem_append_left _ hf'
      · exact ⟨f, by simp, e, d, h⟩
  obtain ⟨f, hf, e, d, hfold⟩ := hfold rest first
  have hmem : f ∈ findings.filter (fun a => findingIdentity a = findingIdentity g) := hclass ▸ hf
  rw [List.mem_filter, decide_eq_true_eq] at hmem
  exact ⟨f, hmem.1, hmem.2, e, d, hg.trans hfold⟩

/-- Survivors have distinct identities. -/
theorem deduplicateFindings_nodup (findings : List Finding) :
    ((deduplicateFindings findings).map findingIdentity).Nodup := by
  rw [deduplicateFindings_eq_mergeByKey]
  exact mergeByKey_map_key_nodup findingIdentity findingIdentity_mergeFinding findings

/-- Findings with distinct identities all survive. -/
theorem deduplicateFindings_of_nodup {findings : List Finding} (h : (findings.map findingIdentity).Nodup) :
    deduplicateFindings findings = findings := by
  rw [deduplicateFindings_eq_mergeByKey]
  exact mergeByKey_of_nodup findingIdentity mergeFinding h

/-- The finding that decides what is reported for findings of one identity: the first of the strongest
from the first one with evidence on, or the last one if none has evidence. -/
def decisiveFinding (findings : List Finding) : Option Finding :=
  match findings.dropWhile (·.evidence.isEmpty) with
  | [] => findings.getLast?
  | f :: fs => some (fs.foldl (fun best g => if betterFinding g best then g else best) f)

/-- How one more finding changes the decision. -/
theorem decisiveFinding_concat (findings : List Finding) (f : Finding) : decisiveFinding (findings ++ [f]) =
    if findings.all (·.evidence.isEmpty) then some f
    else (decisiveFinding findings).map fun best => if betterFinding f best then f else best := by
  unfold decisiveFinding
  rw [List.dropWhile_append]
  cases hdrop : findings.dropWhile (·.evidence.isEmpty) with
  | nil =>
    have hall : findings.all (·.evidence.isEmpty) = true :=
      List.all_eq_true.mpr (List.dropWhile_eq_nil_iff.mp hdrop)
    rw [if_pos hall]
    by_cases hf : f.evidence.isEmpty <;> simp [hf]
  | cons g gs =>
    have hall : ¬findings.all (·.evidence.isEmpty) = true := by
      intro hall
      rw [List.dropWhile_eq_nil_iff.mpr (List.all_eq_true.mp hall)] at hdrop
      cases hdrop
    rw [if_neg hall]
    simp

/-- The strength of a finding does not depend on its texts. -/
theorem betterFinding_withTexts (f current : Finding) (evidence description : Bytes) :
    betterFinding f (current.withTexts evidence description) = betterFinding f current := rfl

/-- Merging the findings of a class leaves the decisive one, up to evidence and description. -/
theorem foldl_mergeFinding (first : Finding) (rest : List Finding) :
    ∃ f evidence description, decisiveFinding (first :: rest) = some f ∧
      rest.foldl mergeFinding first = f.withTexts evidence description ∧
      (evidence.isEmpty = true ↔ (first :: rest).all (·.evidence.isEmpty) = true) := by
  induction rest using List.reverseRecOn with
  | nil =>
    refine ⟨first, first.evidence, first.description, ?_, rfl, ?_⟩
    · exact decisiveFinding_concat [] first
    · simp
  | append_singleton rest g ih =>
    obtain ⟨f, evidence, description, hdecisive, hfold, hevidence⟩ := ih
    rw [List.foldl_concat, hfold, ← List.cons_append, decisiveFinding_concat, hdecisive]
    unfold mergeFinding
    rw [betterFinding_withTexts]
    change ∃ f' e d, _ ∧ (if (betterFinding g f || evidence.isEmpty) = true then _ else _) = _ ∧ _
    cases hempty : evidence.isEmpty with
    | true =>
      rw [if_pos (hevidence.mp hempty), Bool.or_true, if_pos rfl]
      refine ⟨g, _, _, rfl, rfl, ?_⟩
      rw [List.all_append, hevidence.mp hempty]
      by_cases hg : g.evidence.isEmpty <;> simp [hg, hempty, Finding.withTexts]
    | false =>
      have hall : ¬(first :: rest).all (·.evidence.isEmpty) = true := by
        rw [← hevidence, hempty]
        exact Bool.false_ne_true
      have hall' : ¬(first :: rest ++ [g]).all (·.evidence.isEmpty) = true := by
        rw [List.all_append, Bool.and_eq_true]
        exact fun h => hall h.1
      rw [if_neg hall, Bool.or_false, Option.map_some]
      split
      · refine ⟨g, _, _, rfl, rfl, iff_of_false ?_ hall'⟩
        by_cases hg : g.evidence.isEmpty <;> simp [hg, hempty, Finding.withTexts]
      · exact ⟨f, evidence, description, rfl, rfl, iff_of_false (by simp [hempty]) hall'⟩

/-- A survivor is the decisive finding of its class, up to evidence and description. -/
theorem decisiveFinding_of_mem {findings : List Finding} {g : Finding} (hg : g ∈ deduplicateFindings findings) :
    ∃ f evidence description, decisiveFinding (findings.filter (findingIdentity · = findingIdentity g)) = some f ∧
      g = f.withTexts evidence description := by
  rw [deduplicateFindings_eq_mergeByKey] at hg
  obtain ⟨first, rest, hclass, hg⟩ := mergeByKey_slot findingIdentity findingIdentity_mergeFinding hg
  obtain ⟨f, evidence, description, hdecisive, hfold, -⟩ := foldl_mergeFinding first rest
  exact ⟨f, evidence, description, hclass ▸ hdecisive, hg.trans hfold⟩

end ZeroTrust
