import QueryOptions.Proofs.Circles

namespace QueryOptions

/-! Which texts end with an error that loading does not expect. -/

namespace CatalogDocument

variable {document : CatalogDocument} {entries : List (Value × Value)}

theorem shapeIssues_eq (document : CatalogDocument)
    (read : (checkVersion entries).error = none) :
    document.shapeIssues (checkVersion entries) =
      if 255 < (checkVersion entries).layoutVersion.length then
        .error (.nameTooLong (Layout.file (checkVersion entries).layoutVersion))
      else .ok ((Shape.issues document.value).map fun issue =>
        ⟨issue.message, document.locate issue.pointer⟩) := by
  obtain ⟨version, supported, named⟩ := VersionCheck.exists_layoutVersion read
  have layout := Layout.load_toText supported
  rw [← named] at layout
  unfold shapeIssues
  rw [checkVersion] at *
  rw [layout]
  split <;> rfl

/-- The operations of a document of the right shape are of the right shape. -/
theorem isOperation_of_shaped (mapping : document.value = .map entries)
    (shaped : Shape.issues document.value = []) :
    ∀ operation ∈ (document.operationSource entries).operations,
      Shape.isOperation operation.2 = true := by
  rw [mapping] at shaped
  obtain ⟨operations, given, allowed⟩ := Shape.exists_operations shaped
  rwa [operations_of_find? given]

/-- A document that is loaded is of the right shape. -/
theorem shaped_of_load {catalog : Catalog} (mapping : document.value = .map entries)
    (loaded : document.load = .ok catalog) : Shape.issues document.value = [] := by
  simp only [load, mapping] at loaded
  split at loaded
  · cases loaded
  · rename_i read
    split at loaded
    · cases loaded
    · rename_i fine
      rw [shapeIssues_eq document read] at fine
      split at fine
      · cases fine
      · exact List.map_eq_nil_iff.mp (Except.ok.inj fine)
    · cases loaded

end CatalogDocument

namespace Catalog

end Catalog

end QueryOptions
