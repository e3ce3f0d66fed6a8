import ZeroTrust.Core.Dedup
import ZeroTrust.Lib.Separated

/-!
# Which findings count as the same

The identity of a finding joins its fields by a separator that they may contain. Different findings have
the same identity exactly if their fields have the same pieces, differently distributed.
-/

namespace ZeroTrust

/-- Two findings are the same: the fields that name them agree. -/
structure Finding.SameAs (f g : Finding) : Prop where
  host : f.host = g.host
  scope : f.scope = g.scope
  protocol : f.protocol = g.protocol
  port : f.scope ≠ str "HOST" → f.portNumber = g.portNumber
  service : f.service = g.service
  name : (f.cveId ≠ [] ∧ f.cveId = g.cveId) ∨
    (f.cveId = [] ∧ g.cveId = [] ∧ f.pluginName = g.pluginName ∧ f.title = g.title)

/-- The fields of the identity. -/
def Finding.fields (f : Finding) : List Bytes :=
  f.host :: f.scope :: f.protocol.text ::
    ((if f.scope ≠ str "HOST" then [decimal f.portNumber.toNat] else []) ++
      f.service :: if f.cveId = [] then [f.pluginName, f.title] else [f.cveId])

/-- The fields of the identity, cut at every separator. -/
def Finding.pieces (f : Finding) : List Bytes := f.fields.flatMap (·.splitOn 124)

/-- The number of separators in each field of the identity. -/
def Finding.separators (f : Finding) : List ℕ := f.fields.map (·.count 124)

/-- The identity joins the fields. -/
theorem findingIdentity_eq_intercalate (f : Finding) : findingIdentity f = [124].intercalate f.fields := by
  have hpipe : str "|" = [124] := rfl
  unfold findingIdentity Finding.fields
  rw [hpipe]
  split_ifs <;> simp

/-- Two findings have the same identity exactly if their fields have the same pieces. -/
theorem findingIdentity_eq_iff (f g : Finding) : findingIdentity f = findingIdentity g ↔ f.pieces = g.pieces := by
  rw [findingIdentity_eq_intercalate, findingIdentity_eq_intercalate]
  exact intercalate_eq_iff 124 (List.cons_ne_nil _ _) (List.cons_ne_nil _ _)

/-- The protocols have different names. -/
theorem protocol_text_injective : Function.Injective Protocol.text := by
  intro p q h
  cases p <;> cases q <;> first | rfl | exact absurd h (by decide)

/-- The fields tell the findings apart. -/
theorem sameAs_iff_fields (f g : Finding) : f.SameAs g ↔ f.fields = g.fields := by
  constructor
  · rintro ⟨hhost, hscope, hprotocol, hport, hservice, hname⟩
    have hports : (if f.scope ≠ str "HOST" then [decimal f.portNumber.toNat] else []) =
        if g.scope ≠ str "HOST" then [decimal g.portNumber.toNat] else [] := by
      rw [← hscope]
      split_ifs with hscope
      · rw [hport hscope]
      · rfl
    have hnames : (if f.cveId = [] then [f.pluginName, f.title] else [f.cveId]) =
        if g.cveId = [] then [g.pluginName, g.title] else [g.cveId] := by
      rcases hname with ⟨hne, hcve⟩ | ⟨hf, hg, hplugin, htitle⟩
      · rw [← hcve, if_neg hne, if_neg hne]
      · rw [if_pos hf, if_pos hg, hplugin, htitle]
    unfold Finding.fields
    rw [hports, hnames, hhost, hscope, hprotocol, hservice]
  · intro h
    obtain ⟨hhost, h⟩ := List.cons.inj h
    obtain ⟨hscope, h⟩ := List.cons.inj h
    obtain ⟨hprotocol, h⟩ := List.cons.inj h
    have hrest : ((f.scope ≠ str "HOST" → f.portNumber = g.portNumber) ∧
        f.service :: (if f.cveId = [] then [f.pluginName, f.title] else [f.cveId]) =
          g.service :: if g.cveId = [] then [g.pluginName, g.title] else [g.cveId]) := by
      rw [← hscope] at h
      by_cases hport : f.scope ≠ str "HOST"
      · rw [if_pos hport, if_pos hport] at h
        obtain ⟨hnumber, h⟩ := List.cons.inj h
        exact ⟨fun _ => UInt16.toNat_inj.mp (decimal_injective hnumber), h⟩
      · rw [if_neg hport, if_neg hport] at h
        exact ⟨fun hne => (hport hne).elim, h⟩
    obtain ⟨hport, h⟩ := hrest
    obtain ⟨hservice, h⟩ := List.cons.inj h
    refine ⟨hhost, hscope, protocol_text_injective hprotocol, hport, hservice, ?_⟩
    split_ifs at h with hf hg hg
    · obtain ⟨hplugin, h⟩ := List.cons.inj h
      exact .inr ⟨hf, hg, hplugin, (List.cons.inj h).1⟩
    · cases (List.cons.inj h).2
    · cases (List.cons.inj h).2
    · exact .inl ⟨hf, (List.cons.inj h).1⟩

/-- Findings of one identity are the same exactly if their fields have the same numbers of separators. -/
theorem sameAs_iff_separators {f g : Finding} (h : f.pieces = g.pieces) : f.SameAs g ↔ f.separators = g.separators := by
  rw [sameAs_iff_fields]
  constructor
  · intro hfields
    rw [Finding.separators, hfields]
    rfl
  · exact eq_of_flatMap_splitOn_eq 124 h

/-- Being the same finding is symmetric. -/
theorem Finding.SameAs.symm {f g : Finding} (h : f.SameAs g) : g.SameAs f := by
  rw [sameAs_iff_fields] at h ⊢
  exact h.symm

/-- Being the same finding is transitive. -/
theorem Finding.SameAs.trans {f g k : Finding} (h : f.SameAs g) (h' : g.SameAs k) : f.SameAs k := by
  rw [sameAs_iff_fields] at h h' ⊢
  exact h.trans h'

/-- The same findings have one identity. -/
theorem Finding.SameAs.identity_eq {f g : Finding} (h : f.SameAs g) : findingIdentity f = findingIdentity g := by
  rw [findingIdentity_eq_intercalate, findingIdentity_eq_intercalate, (sameAs_iff_fields f g).mp h]

/-- Findings of one identity are the same exactly if, when their fields have the same pieces, each field has
as many separators in one as in the other; and deduplication drops no different finding exactly if this is so
for all findings of the vector. -/
theorem same_identity_iff (f g : Finding) (findings : List Finding) :
    ((findingIdentity f = findingIdentity g → f.SameAs g) ↔ (f.pieces = g.pieces → f.separators = g.separators)) ∧
    ((∀ f ∈ findings, ∃ g ∈ deduplicateFindings findings, f.SameAs g) ↔
      ∀ f ∈ findings, ∀ g ∈ findings, f.pieces = g.pieces → f.separators = g.separators) := by
  refine ⟨?_, fun hkept f hf g hg hpieces => ?_, fun hall f hf => ?_⟩
  · rw [findingIdentity_eq_iff]
    exact forall_congr' sameAs_iff_separators
  · obtain ⟨f', hf', hsame⟩ := hkept f hf
    obtain ⟨g', hg', hsame'⟩ := hkept g hg
    have hidentity : findingIdentity f' = findingIdentity g' := by
      rw [← hsame.identity_eq, ← hsame'.identity_eq, findingIdentity_eq_iff]
      exact hpieces
    have heq : f' = g' := List.inj_on_of_nodup_map (deduplicateFindings_nodup findings) hf' hg' hidentity
    subst heq
    exact (sameAs_iff_separators hpieces).mp (hsame.trans hsame'.symm)
  · obtain ⟨g, hg, hidentity⟩ := exists_mem_deduplicateFindings hf
    obtain ⟨f', hf', hidentity', evidence, description, rfl⟩ := mem_deduplicateFindings hg
    have hpieces : f.pieces = f'.pieces := (findingIdentity_eq_iff f f').mp (hidentity.symm.trans hidentity'.symm)
    have hsame := (sameAs_iff_separators hpieces).mpr (hall f hf f' hf' hpieces)
    exact ⟨_, hg, hsame.host, hsame.scope, hsame.protocol, hsame.port, hsame.service, hsame.name⟩

/-- The separator in a plugin name and the one in a title look alike. -/
theorem different_findings_merged :
    ¬∀ f g : Finding, findingIdentity f = findingIdentity g → f.SameAs g := by
  intro h
  have hsame := h { pluginName := str "smb|signing", title := str "off" }
    { pluginName := str "smb", title := str "signing|off" } (by decide +kernel)
  rcases hsame.name with ⟨hne, -⟩ | ⟨-, -, hplugin, -⟩
  · exact hne rfl
  · exact absurd hplugin (by decide +kernel)

end ZeroTrust
