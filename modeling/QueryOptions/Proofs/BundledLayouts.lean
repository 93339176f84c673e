import QueryOptions.Proofs.FindingOrigins

namespace QueryOptions

/-! Which layout a declared version leads to. Whatever is accepted has the major version that a layout
comes with, so that a layout is always found; only a file name too long for the system is in the way. -/

namespace Layout

variable {given : Value}

theorem load_layoutVersion (read : (VersionCheck.ofValue given).error = none) :
    load (VersionCheck.ofValue given).layoutVersion =
      if 255 < (VersionCheck.ofValue given).layoutVersion.length then
        .error (.nameTooLong (file (VersionCheck.ofValue given).layoutVersion))
      else .ok "option_grammar/catalog/1.0.0" := by
  obtain ⟨version, supported, named⟩ := VersionCheck.exists_layoutVersion read
  rw [named]
  exact load_toText supported

end Layout

theorem CatalogDocument.load_ne_notFound (document : CatalogDocument) (sought resolved : Text) :
    document.load ≠ .error (.layout (.notFound sought resolved)) := by
  intro ended
  cases ends_of_load ended with
  | layout _ read missing =>
      rw [shapeIssues_eq document read] at missing
      split at missing <;> cases missing
  | operations _ _ _ failed =>
      have late := OperationSource.stage_schemas failed
      cases late

theorem CatalogFile.Origin.ne_notFound {reading : Except LoadError CatalogDocument} {file : Path}
    {finding : Finding} (origin : Origin reading file finding) (detail : Text) :
    finding ≠ .plain .error ("Schema file not found: " ++ detail) := by
  intro same
  have begins : finding.message.head? = some 'S'.toNat := same ▸ rfl
  have unpointed : finding.pointer = none := same ▸ rfl
  rcases origin.opening unpointed with named | ⟨error, -, -, rfl⟩ | ⟨first, known, starts⟩
  · rcases opening_of_mem_findings named with starts | starts <;>
      exact absurd (starts.symm.trans begins) (by decide)
  · exact absurd begins (by decide : some 'F'.toNat ≠ some 'S'.toNat)
  · rw [begins] at starts
    obtain rfl := Option.some.inj starts
    exact absurd known (by decide)

namespace Layout

/-- A version that is accepted, whatever value declares it, has a layout of the library, if its text
is not too long for a file name. Neither loading nor linting a catalog ever ends without a layout. -/
theorem load_of_compatible (given : Value)
    (compatible : (VersionCheck.ofValue given).isCompatible = true) :
    let version := (VersionCheck.ofValue given).layoutVersion
    (version.length ≤ 255 → load version = .ok "option_grammar/catalog/1.0.0") ∧
    (255 < version.length → load version = .error (.nameTooLong (file version))) ∧
    (∀ document sought resolved,
      CatalogDocument.load document ≠ .error (.layout (.notFound sought resolved))) ∧
    ∀ system files, ∀ result ∈ (CatalogFile.lintAll system files).1,
      ∀ finding ∈ result.findings, ∀ detail,
        finding ≠ .plain .error ("Schema file not found: " ++ detail) := by
  intro version
  have loaded := load_layoutVersion (Option.isNone_iff_eq_none.mp compatible)
  refine ⟨fun short => ?_, fun long => ?_, CatalogDocument.load_ne_notFound,
    fun system files result inside finding found => ?_⟩
  · exact loaded.trans (if_neg (Nat.not_lt.mpr short))
  · exact loaded.trans (if_pos long)
  · rw [CatalogFile.results_lintAll] at inside
    obtain ⟨file, -, rfl⟩ := List.mem_map.mp inside
    exact (CatalogFile.origin_of_result found).ne_notFound

/-- Blanks, a mark and other digits than those of ASCII do not matter, nor does a newer version. -/
theorem markedVersion_loaded :
    let given : Value := .text " v१.٧.０2\n"
    (VersionCheck.ofValue given).isCompatible = true ∧
    (VersionCheck.ofValue given).layoutVersion = "1.7.2" ∧
    load "1.7.2" = .ok "option_grammar/catalog/1.0.0" := by
  intro given
  have compatible : (VersionCheck.ofValue given).isCompatible = true := by decide +kernel
  have named : (VersionCheck.ofValue given).layoutVersion = "1.7.2" := by decide +kernel
  have loaded := (load_of_compatible given compatible).1
  rw [named] at loaded
  exact ⟨compatible, named, loaded (by decide)⟩

/-- A version that is accepted and has no layout, since no file can have its name. -/
def endlessVersion : Value := .text ("1." ++ List.replicate 300 '1'.toNat ++ ".0")

theorem endlessVersion_unloaded : (VersionCheck.ofValue endlessVersion).isCompatible = true ∧
    ∃ error, load (VersionCheck.ofValue endlessVersion).layoutVersion = .error error := by
  have compatible : (VersionCheck.ofValue endlessVersion).isCompatible = true := by decide +kernel
  have long : 255 < (VersionCheck.ofValue endlessVersion).layoutVersion.length := by decide +kernel
  have loaded := load_layoutVersion (Option.isNone_iff_eq_none.mp compatible)
  rw [if_pos long] at loaded
  exact ⟨compatible, _, loaded⟩

end Layout

end QueryOptions
