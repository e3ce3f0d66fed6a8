import ZeroTrust.Core.Substring
import ZeroTrust.Scan.DistroFix
import ZeroTrust.Scan.Processor

/-!
# Distribution tags

`detect_distro` writes a vendor and a package version into one text; `parse_distro_tag` takes them apart
again.
-/

namespace ZeroTrust

variable {banner captured mark : Bytes}

/-- A vendor pattern captures its mark with a package version behind it. -/
theorem exists_of_searchFrom_matchVendor {previous : Option Byte}
    (h : searchFrom (matchVendor mark) previous banner = some captured) :
    ∃ revision, captured = mark ++ revision ∧ revision ≠ [] ∧ ∀ c ∈ revision, isPackageByte c = true := by
  have hstart : ∀ {before : Option Byte} {s : Bytes}, matchVendor mark before s = some captured →
      ∃ revision, captured = mark ++ revision ∧ revision ≠ [] ∧ ∀ c ∈ revision, isPackageByte c = true := by
    intro before s hmatch
    unfold matchVendor at hmatch
    dsimp only at hmatch
    split at hmatch
    · split at hmatch
      · cases hmatch
      · next hne =>
        cases hmatch
        exact ⟨_, rfl, by simpa [List.isEmpty_iff] using hne, List.all_eq_true.mp List.all_takeWhile⟩
    · cases hmatch
  induction banner generalizing previous with
  | nil => exact hstart h
  | cons c banner ih =>
    unfold searchFrom at h
    split at h
    · next hmatch =>
      cases h
      exact hstart hmatch
    · exact ih h

/-- The port whose banner has the mark of Ubuntu. -/
theorem detectDistro_ubuntu (h : searchFrom (matchVendor (str "Ubuntu-")) none banner = some captured) (port : Port) :
    (detectDistro banner port).distro = distroTag (str "Ubuntu") captured := by
  rw [detectDistro, distroPatterns, detectDistroWith, h]

/-- The port whose banner has the mark of Debian only. -/
theorem detectDistro_debian (hubuntu : searchFrom (matchVendor (str "Ubuntu-")) none banner = none)
    (h : searchFrom (matchVendor (str "Debian-")) none banner = some captured) (port : Port) :
    (detectDistro banner port).distro = distroTag (str "Debian") captured := by
  rw [detectDistro, distroPatterns, detectDistroWith, hubuntu]
  dsimp only
  rw [detectDistroWith, h]

/-- What is captured stands in parentheses. -/
theorem distroTag_eq {vendor : Bytes} (h : captured ≠ []) :
    distroTag vendor captured = vendor ++ str " (" ++ captured ++ str ")" := by
  rw [distroTag, if_neg (by simpa [List.isEmpty_iff] using h)]

/-- The text between the parentheses is read without its markers. -/
theorem distroRevision_distroTag {vendor : Bytes} (hne : captured ≠ []) (hopening : 40 ∉ captured) :
    distroRevision (distroTag vendor captured) =
      stripPrefix (stripPrefix captured (str "Ubuntu-")) (str "Debian-") := by
  have htag : distroTag vendor captured = (vendor ++ [32]) ++ 40 :: (captured ++ [41]) := by
    have hopens : str " (" = [32, 40] := rfl
    have hcloses : str ")" = [41] := rfl
    rw [distroTag_eq hne, hopens, hcloses]
    simp
  have hopen : rfindByte 40 (distroTag vendor captured) = some (vendor ++ [32]).length := by
    rw [htag]
    apply rfindByte_append_cons
    simpa using hopening
  have hclose : rfindByte 41 (distroTag vendor captured) = some ((vendor ++ [32]) ++ 40 :: captured).length := by
    have hlast : distroTag vendor captured = ((vendor ++ [32]) ++ 40 :: captured) ++ 41 :: [] := by
      rw [htag]
      simp
    rw [hlast]
    exact rfindByte_append_cons List.not_mem_nil _
  have hlength : 0 < captured.length := List.length_pos_iff.mpr hne
  rw [distroRevision, hopen, hclose]
  dsimp only
  have hinside : ((distroTag vendor captured).drop ((vendor ++ [32]).length + 1)).take
      (((vendor ++ [32]) ++ 40 :: captured).length - (vendor ++ [32]).length - 1) = captured := by
    have hsum : ((vendor ++ [32]) ++ 40 :: captured).length = (vendor ++ [32]).length + (captured.length + 1) := by
      rw [List.length_append, List.length_cons]
    rw [htag, ← List.drop_drop, List.drop_left, hsum]
    have hlength : (vendor ++ [32]).length + (captured.length + 1) - (vendor ++ [32]).length - 1 = captured.length := by
      omega
    rw [hlength]
    exact List.take_left
  rw [if_neg (by simp; omega), hinside]

/-- A marker is stripped exactly if the text begins with it. -/
theorem stripPrefix_eq_self {s marker : Bytes} (h : marker ≠ []) : stripPrefix s marker = s ↔ ¬marker <+: s := by
  rw [stripPrefix, ← List.isPrefixOf_iff_prefix]
  split_ifs with hstart
  · apply iff_of_false
    · intro hdrop
      have hlength := congrArg List.length hdrop
      have hmarker := List.length_pos_iff.mpr h
      have hle := (List.isPrefixOf_iff_prefix.mp hstart).length_le
      rw [List.length_drop] at hlength
      omega
    · exact fun hnot => hnot hstart
  · exact iff_of_true rfl hstart

/-- A marker that is there is stripped. -/
theorem stripPrefix_append (marker s : Bytes) : stripPrefix (marker ++ s) marker = s := by
  rw [stripPrefix, if_pos (List.isPrefixOf_iff_prefix.mpr (List.prefix_append marker s)), List.drop_left]

/-- A package version has no parentheses. -/
theorem not_mem_of_isPackageByte {revision : Bytes} (h : ∀ c ∈ revision, isPackageByte c = true) {c : Byte}
    (hc : isPackageByte c = false) (hmark : c ∉ mark) : c ∉ mark ++ revision := by
  intro hmem
  rcases List.mem_append.mp hmem with hmem | hmem
  · exact hmark hmem
  · have hpackage := h c hmem
    rw [hc] at hpackage
    exact Bool.noConfusion hpackage

/-- Vendor and version of a tag of Ubuntu are read back unless the version begins with the marker of Debian, which is
stripped, too; those of a tag of Debian unless the version contains the name of Ubuntu, which then stands for the
vendor. -/
theorem parseDistroTag_detectDistro (banner revision : Bytes) (port : Port) :
    (searchFrom (matchVendor (str "Ubuntu-")) none banner = some (str "Ubuntu-" ++ revision) →
      (parseDistroTag (detectDistro banner port).distro = ⟨str "ubuntu", revision⟩ ↔ ¬str "Debian-" <+: revision)) ∧
    (searchFrom (matchVendor (str "Ubuntu-")) none banner = none →
      searchFrom (matchVendor (str "Debian-")) none banner = some (str "Debian-" ++ revision) →
      (parseDistroTag (detectDistro banner port).distro = ⟨str "debian", revision⟩ ↔
        ¬str "ubuntu" <:+: toLower revision)) := by
  constructor
  · intro h
    obtain ⟨revision', heq, hne, hpackage⟩ := exists_of_searchFrom_matchVendor h
    obtain rfl := List.append_cancel_left heq
    have hcaptured : str "Ubuntu-" ++ revision ≠ [] := by simp [hne]
    have hvendor : contains (toLower (distroTag (str "Ubuntu") (str "Ubuntu-" ++ revision))) (str "ubuntu") = true := by
      rw [contains_iff, distroTag_eq hcaptured, List.append_assoc, List.append_assoc, toLower, List.map_append]
      exact (List.prefix_append (str "ubuntu") _).isInfix
    rw [detectDistro_ubuntu h, parseDistroTag, hvendor, if_pos rfl, distroRevision_distroTag hcaptured
      (not_mem_of_isPackageByte hpackage (by decide) (by decide)), stripPrefix_append, DistroTag.mk.injEq,
      and_iff_right rfl]
    exact stripPrefix_eq_self (by decide)
  · intro hubuntu h
    obtain ⟨revision', heq, hne, hpackage⟩ := exists_of_searchFrom_matchVendor h
    obtain rfl := List.append_cancel_left heq
    have hcaptured : str "Debian-" ++ revision ≠ [] := by simp [hne]
    have hlower : toLower (distroTag (str "Debian") (str "Debian-" ++ revision)) =
        str "debian (debian-" ++ (toLower revision ++ [41]) := by
      have hfront : toLower (str "Debian" ++ str " (" ++ str "Debian-") = str "debian (debian-" := by decide
      have hcloses : toLower (str ")") = [41] := by decide
      rw [distroTag_eq hcaptured, ← hfront, ← hcloses]
      simp [toLower]
    have hvendor : contains (toLower (distroTag (str "Debian") (str "Debian-" ++ revision))) (str "ubuntu") = true ↔
        str "ubuntu" <:+: toLower revision := by
      rw [contains_iff, hlower]
      exact (infix_append_iff (by decide)).trans (infix_concat_iff_of_not_mem (by decide) (by decide))
    have hmark : stripPrefix (str "Debian-" ++ revision) (str "Ubuntu-") = str "Debian-" ++ revision := by
      rw [stripPrefix_eq_self (by decide), ← List.isPrefixOf_iff_prefix]
      exact Bool.false_ne_true
    have hopening : 40 ∉ str "Debian-" ++ revision := not_mem_of_isPackageByte hpackage (by decide) (by decide)
    rw [detectDistro_debian hubuntu h, parseDistroTag, distroRevision_distroTag hcaptured hopening, hmark,
      stripPrefix_append, ← hvendor]
    split_ifs with hname hdebian
    · apply iff_of_false _ (not_not_intro hname)
      intro heq
      have hnames : str "ubuntu" = str "debian" := congrArg DistroTag.distro heq
      exact absurd hnames (by decide)
    · exact iff_of_true rfl hname
    · apply absurd _ hdebian
      rw [contains_iff, hlower]
      exact (List.prefix_append (str "debian") _).isInfix

/-- A package of Ubuntu with a version of Debian, and one of Debian that is named after Ubuntu. -/
theorem parseDistroTag_confused :
    searchFrom (matchVendor (str "Ubuntu-")) none (str "Ubuntu-Debian-1") = some (str "Ubuntu-" ++ str "Debian-1") ∧
    parseDistroTag (detectDistro (str "Ubuntu-Debian-1") {}).distro ≠ ⟨str "ubuntu", str "Debian-1"⟩ ∧
    searchFrom (matchVendor (str "Ubuntu-")) none (str "Debian-2ubuntu1") = none ∧
    searchFrom (matchVendor (str "Debian-")) none (str "Debian-2ubuntu1") = some (str "Debian-" ++ str "2ubuntu1") ∧
    parseDistroTag (detectDistro (str "Debian-2ubuntu1") {}).distro ≠ ⟨str "debian", str "2ubuntu1"⟩ := by
  decide +kernel

/-- The usual banner of Ubuntu. -/
theorem parseDistroTag_usual :
    (parseDistroTag (detectDistro (str "SSH-2.0-OpenSSH_8.9p1 Ubuntu-3ubuntu0.10") {}).distro =
      ⟨str "ubuntu", str "3ubuntu0.10"⟩ ↔ ¬str "Debian-" <+: str "3ubuntu0.10") :=
  (parseDistroTag_detectDistro (str "SSH-2.0-OpenSSH_8.9p1 Ubuntu-3ubuntu0.10") (str "3ubuntu0.10") {}).1
    (by decide +kernel)

end ZeroTrust
