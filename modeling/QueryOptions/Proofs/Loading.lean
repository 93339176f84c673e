import QueryOptions.Proofs.Reading

namespace QueryOptions

/-! The steps of loading a catalog, and the error with which each of them may end. -/

inductive LoadStage where
  | reading
  | root
  | version
  | layout
  | shape
  | operations
  | use
deriving DecidableEq

namespace LoadError

/-- The step that ends with the error. Names are joined in errors about operations. -/
def stage : LoadError → LoadStage
  | .nameTooLong _ => .reading
  | .missingFile _ => .reading
  | .notAFile _ => .reading
  | .unreadable _ => .reading
  | .malformed _ => .reading
  | .scalar _ => .reading
  | .notAMapping _ => .root
  | .version _ _ => .version
  | .layout _ => .layout
  | .shape _ _ => .shape
  | .unknownBase _ _ _ => .operations
  | .circularBases _ => .operations
  | .unjoinable _ _ => .operations
  | .declaration _ _ _ => .operations
  | .unknownOperation _ _ _ => .use
  | .unhashable _ => .use

theorem isExpected_of_version {error : LoadError} (early : error.stage = .version) :
    error.isExpected = true := by
  cases error with
  | version => rfl
  | _ => contradiction

theorem eq_shape_of_stage {error : LoadError} (late : error.stage = .shape) :
    ∃ given issues, error = .shape given issues := by
  cases error with
  | shape => exact ⟨_, _, rfl⟩
  | _ => contradiction

theorem stage_joining {names : List Value} {error : LoadError} (late : error.stage = .operations) :
    (joining names error).stage = .operations := by
  unfold joining
  split
  · rfl
  · exact late

end LoadError

namespace LoadStage

/-- The step with which loading ends, unless it gives a catalog. -/
def last? : Except LoadError Catalog → Option LoadStage
  | .ok _ => none
  | .error error => some error.stage

variable {loaded : Except LoadError Catalog}

theorem exists_catalog (through : last? loaded = none) : ∃ catalog, loaded = .ok catalog := by
  cases loaded with
  | ok catalog => exact ⟨catalog, rfl⟩
  | error error => contradiction

theorem exists_error {stage : LoadStage} (ended : last? loaded = some stage) :
    ∃ error, loaded = .error error ∧ error.stage = stage := by
  cases loaded with
  | ok catalog => contradiction
  | error error => exact ⟨error, rfl, Option.some.inj ended⟩

end LoadStage

/-! Errors of reading a file, and of building operations. -/

theorem FileSystem.stage_document {system : FileSystem} {file : Path} {error : LoadError}
    (ended : system.document file = .error error) : error.stage = .reading := by
  cases unread_of_document ended <;> rfl

namespace OperationSource

variable {source : OperationSource}

/-- An operation is only refused for what it declares itself. -/
theorem failure_of_extend {name : Value} {onto : Schema} {built : BuiltOperations}
    {failure : BuildFailure} (ended : source.extend name onto built = .error failure) :
    ∃ error, failure = ⟨.declaration name error (source.locate (pointer name)), built⟩ := by
  unfold extend at ended
  split at ended
  · contradiction
  · cases ended
    exact ⟨_, rfl⟩

theorem stage_extend {name : Value} {onto : Schema} {built : BuiltOperations}
    {failure : BuildFailure} (ended : source.extend name onto built = .error failure) :
    failure.error.stage = .operations := by
  obtain ⟨error, rfl⟩ := failure_of_extend ended
  rfl

theorem stage_build {chain : List Value} {name : Value} {built : BuiltOperations}
    {failure : BuildFailure} (ended : source.build chain name built = .error failure) :
    failure.error.stage = .operations := by
  fun_induction OperationSource.build source chain name built with
  | case1 => contradiction
  | case2 =>
      cases ended
      exact LoadError.stage_joining rfl
  | case3 => exact stage_extend ended
  | case4 chain name _ _ base _ _ earlier runBase ih =>
      cases ended
      exact ih runBase
  | case5 => exact stage_extend ended
  | case6 => exact stage_extend ended
  | case7 => cases ended; rfl

theorem stage_buildAll {failure : BuildFailure} (ended : source.buildAll = .error failure) :
    failure.error.stage = .operations := by
  obtain ⟨_, _, _, _, _, _, failed⟩ := exists_of_foldlM_error ended
  exact stage_build failed

theorem stage_schemas {error : LoadError} (ended : source.schemas = .error error) :
    error.stage = .operations := by
  unfold schemas at ended
  split at ended
  · contradiction
  · rename_i failure run
    cases ended
    exact stage_buildAll run

end OperationSource

/-- The ends that loading a document may come to without a catalog. -/
inductive CatalogDocument.Ends (document : CatalogDocument) : LoadError → Prop
  | root (other : ∀ entries, document.value ≠ .map entries) :
      Ends document (.notAMapping document.file)
  | version {entries : List (Value × Value)} {error : VersionError}
      (mapping : document.value = .map entries) (faulty : (checkVersion entries).error = some error) :
      Ends document (.version error document.versionLocation)
  | layout {entries : List (Value × Value)} {error : LayoutError}
      (mapping : document.value = .map entries) (read : (checkVersion entries).error = none)
      (missing : document.shapeIssues (checkVersion entries) = .error error) :
      Ends document (.layout error)
  | shape {entries : List (Value × Value)} {issues : List LocatedIssue}
      (mapping : document.value = .map entries) (read : (checkVersion entries).error = none)
      (misshapen : document.shapeIssues (checkVersion entries) = .ok issues)
      (nonempty : issues ≠ []) :
      Ends document (.shape document.file issues)
  | operations {entries : List (Value × Value)} {error : LoadError}
      (mapping : document.value = .map entries) (read : (checkVersion entries).error = none)
      (shaped : document.shapeIssues (checkVersion entries) = .ok [])
      (failed : (document.operationSource entries).schemas = .error error) : Ends document error

namespace CatalogDocument

variable {document : CatalogDocument} {error : LoadError}

theorem ends_of_load (ended : document.load = .error error) : document.Ends error := by
  unfold load at ended
  cases mapping : document.value with
  | map entries =>
      simp only [mapping] at ended
      split at ended
      · rename_i faulty
        cases ended
        exact .version mapping faulty
      · rename_i read
        split at ended
        · rename_i missing
          cases ended
          exact .layout mapping read missing
        · rename_i shaped
          cases failed : (document.operationSource entries).schemas with
          | error error =>
              rw [failed] at ended
              cases ended
              exact .operations mapping read shaped failed
          | ok operations =>
              rw [failed] at ended
              cases ended
        · rename_i issues nonempty misshapen
          cases ended
          exact .shape mapping read misshapen nonempty
  | _ =>
      simp only [mapping] at ended
      cases ended
      exact .root (by simp [mapping])

theorem load_of_ends (ends : document.Ends error) : document.load = .error error := by
  unfold load
  cases ends with
  | root other =>
      split
      · rename_i entries mapping
        exact absurd mapping (other entries)
      · rfl
  | version mapping faulty => simp only [mapping, faulty]; rfl
  | layout mapping read missing => simp only [mapping, read, missing]; rfl
  | shape mapping read misshapen nonempty => simp only [mapping, read, misshapen]; rfl
  | operations mapping read shaped failed => simp only [mapping, read, shaped, failed]; rfl

theorem load_eq_error_iff : document.load = .error error ↔ document.Ends error :=
  ⟨ends_of_load, load_of_ends⟩

end CatalogDocument

end QueryOptions
