import QueryOptions.Proofs.Independence
import QueryOptions.Proofs.LoadErrors
import QueryOptions.Proofs.Places
import QueryOptions.Proofs.SourceLookup

namespace QueryOptions

/-! Where the findings about a file come from. A finding that points to nothing tells by the first
character of its message what it is about. -/

namespace NamingLint

variable {location : SourceLocation} {property : Finding → Prop} {ownerFits : Text → Prop}
  {nodeFits : Node → Prop}

/-- The findings about single nodes and about two nodes of one level have a property. Owners that
they name stay fit from each level to the next. -/
structure Holds (location : SourceLocation) (ownerFits : Text → Prop) (nodeFits : Node → Prop)
    (property : Finding → Prop) : Prop where
  named {owner : Text} {node : Node} (owned : ownerFits owner) (fit : nodeFits node) :
    ∀ finding ∈ nameFindings owner location node, property finding
  shared {owner : Text} {node other : Node} (owned : ownerFits owner) (fit : nodeFits node)
    (earlier : nodeFits other) : property (.located .error location
      ("Options '" ++ other.wire.spelling ++ "' and '" ++ node.wire.spelling ++ "' of " ++
        owner ++ " share the binding name '" ++ node.binding ++ "'"))
  below {owner : Text} {node : Node} (owned : ownerFits owner) (fit : nodeFits node) :
    ownerFits (structureOwner node.wire owner)

theorem Holds.of_level (holds : Holds location ownerFits nodeFits property) {owner : Text}
    (owned : ownerFits owner) {earlier nodes : List Node} (before : ∀ node ∈ earlier, nodeFits node)
    (fit : ∀ node ∈ nodes, nodeFits node)
    (inside : ∀ node ∈ nodes, ∀ finding ∈ structureFindings owner location node.wire node,
      property finding) :
    ∀ finding ∈ levelFindings owner location earlier nodes, property finding := by
  induction nodes generalizing earlier with
  | nil => exact nofun
  | cons node rest ih =>
      obtain ⟨fitHere, fitRest⟩ := List.forall_mem_cons.mp fit
      obtain ⟨insideHere, insideRest⟩ := List.forall_mem_cons.mp inside
      have known : ∀ other ∈ earlier ++ [node], nodeFits other :=
        List.forall_mem_append.mpr ⟨before, List.forall_mem_singleton.mpr fitHere⟩
      intro finding found
      rw [levelFindings, List.mem_append, List.mem_append, List.mem_append] at found
      rcases found with ((named | shared) | below) | later
      · exact holds.named owned fitHere finding named
      · unfold sharedFindings at shared
        split at shared
        · rename_i other met
          rw [List.mem_singleton.mp shared]
          exact holds.shared owned fitHere (before other (mem_of_findBinding? met))
        · contradiction
      · exact insideHere finding below
      · exact ih known fitRest insideRest finding later

/-- A property of findings about single levels is one of all findings about a node. -/
theorem Holds.of_structure (holds : Holds location ownerFits nodeFits property) (node : Node)
    (fit : node.Everywhere fun level => ∀ node ∈ level, nodeFits node) {owner : Text}
    {wire : WireName} (owned : ownerFits owner) (named : ownerFits (structureOwner wire owner)) :
    ∀ finding ∈ structureFindings owner location wire node, property finding := by
  induction node generalizing owner wire with
  | scalar heading leaf => exact nofun
  | list heading member join ih => exact ih (Node.everywhere_list.mp fit) owned named
  | members heading nodes ih =>
      obtain ⟨here, below⟩ := Node.everywhere_structure.mp fit
      exact holds.of_level named nofun here fun node inside =>
        ih node inside (below node inside) named (holds.below named (here node inside))

end NamingLint

namespace StructureLint

open CatalogDocument (checkVersion)

/-- What the structure linter finds in a document. -/
inductive Origin (document : CatalogDocument) (file : Path) : Finding → Prop
  | root : Origin document file (.plain .error "Catalog root must be a mapping")
  | version {entries : List (Value × Value)} {error : VersionError}
      (mapping : document.value = .map entries)
      (refused : (checkVersion entries).error = some error) :
      Origin document file (.located .error document.versionLocation error.message)
  | notice {entries : List (Value × Value)} {notice : VersionNotice}
      (mapping : document.value = .map entries)
      (noted : (checkVersion entries).notice = some notice) :
      Origin document file (.located .warning document.versionLocation notice.message)
  | shape {entries : List (Value × Value)} {issue : ShapeIssue}
      (mapping : document.value = .map entries) (found : issue ∈ Shape.issues document.value) :
      Origin document file (.located .error (document.locate issue.pointer) issue.message)
  | name {entries : List (Value × Value)} {finding : Finding}
      (mapping : document.value = .map entries)
      (found : finding ∈ nameFindings document file (document.assemble entries [])) :
      Origin document file finding
  | operations {entries : List (Value × Value)} {failure : BuildFailure}
      (mapping : document.value = .map entries)
      (failed : (document.operationSource entries).buildAll = .error failure) :
      Origin document file (.plain .error failure.error.message)

variable {document : CatalogDocument} {file : Path} {finding : Finding}
  {entries : List (Value × Value)}

theorem origin_of_buildFindings {earlier : List Finding} (mapping : document.value = .map entries)
    (known : ∀ finding ∈ earlier, Origin document file finding)
    (found : finding ∈ (buildFindings document entries earlier).findings) :
    Origin document file finding := by
  unfold buildFindings at found
  dsimp only at found
  split at found
  · exact known finding found
  · rename_i failed
    split at found
    · rcases List.mem_append.mp found with before | last
      · exact known finding before
      · rw [List.mem_singleton.mp last]
        exact .operations mapping failed
    · exact known finding found

/-- Of a version that is read there is no layout at all only if its text is too long. -/
theorem origin_of_mem (found : finding ∈ (ofDocument document file).findings) :
    Origin document file finding := by
  unfold ofDocument at found
  split at found
  · rename_i entries mapping
    dsimp only at found
    split at found
    · rename_i refused
      rw [List.mem_singleton.mp found]
      exact .version mapping refused
    · rename_i read
      have notices : ∀ finding ∈ (checkVersion entries).notice.toList.map (fun notice =>
          Finding.located .warning document.versionLocation notice.message),
          Origin document file finding := by
        intro finding noticed
        obtain ⟨notice, noted, rfl⟩ := List.mem_map.mp noticed
        exact .notice mapping (Option.mem_toList.mp noted)
      have checked := document.shapeIssues_eq read
      split at found
      · rename_i missing
        rw [missing] at checked
        split at checked <;> cases checked
      · exact notices finding found
      · refine origin_of_buildFindings mapping (List.forall_mem_append.mpr ⟨notices, ?_⟩) found
        exact fun _ => .name mapping
      · rename_i issues _ misshapen
        rcases List.mem_append.mp found with noticed | issued
        · exact notices finding noticed
        · obtain ⟨located, inside, rfl⟩ := List.mem_map.mp issued
          rw [misshapen] at checked
          split at checked
          · cases checked
          · cases checked
            obtain ⟨issue, known, rfl⟩ := List.mem_map.mp inside
            exact .shape mapping known
  · rw [List.mem_singleton.mp found]
    exact .root

/-! Only an error that loading does not expect is handed on. -/

theorem unforeseen_of_buildFindings {earlier : List Finding} {error : LoadError}
    (handed : (buildFindings document entries earlier).catalog = .error error) :
    error.isExpected = false := by
  unfold buildFindings at handed
  dsimp only at handed
  split at handed
  · cases handed
  · split at handed
    · cases handed
    · rename_i unforeseen
      cases handed
      exact Bool.not_eq_true _ ▸ unforeseen

theorem unforeseen_of_ofDocument {error : LoadError}
    (handed : (ofDocument document file).catalog = .error error) : error.isExpected = false := by
  unfold ofDocument at handed
  split at handed
  · dsimp only at handed
    split at handed
    · cases handed
    · split at handed
      · cases handed
      · cases handed
        rfl
      · exact unforeseen_of_buildFindings handed
      · cases handed
  · cases handed

end StructureLint

namespace CatalogFile

/-- What linting finds about a file, by what came of reading it. -/
inductive Origin (reading : Except LoadError CatalogDocument) (file : Path) : Finding → Prop
  | fileName {finding : Finding} (found : finding ∈ findings file) : Origin reading file finding
  | unread {error : LoadError} (ended : reading = .error error) (expected : error.isExpected = true) :
      Origin reading file (.plain .error ("Failed to load YAML file: " ++ error.message))
  | structural {document : CatalogDocument} {finding : Finding} (read : reading = .ok document)
      (origin : StructureLint.Origin document file finding) : Origin reading file finding
  | names {document : CatalogDocument} {catalog : Catalog} {finding : Finding}
      (read : reading = .ok document) (loaded : document.load = .ok catalog)
      (found : finding ∈ NamingLint.findings catalog document.sources) :
      Origin reading file finding
  | unexpected {error : LoadError} (ended : reading.bind CatalogDocument.load = .error error)
      (unforeseen : error.isExpected = false) : Origin reading file (unexpectedFinding error)

variable {reading : Except LoadError CatalogDocument} {file : Path} {finding : Finding}

theorem origin_of_reading (found : finding ∈ (StructureLint.ofReading reading file).findings) :
    Origin reading file finding := by
  unfold StructureLint.ofReading at found
  split at found
  · exact .structural rfl (StructureLint.origin_of_mem found)
  · split at found
    · rename_i expected
      rw [List.mem_singleton.mp found]
      exact .unread rfl expected
    · contradiction

/-- Linting hands on what loading comes to. -/
theorem loaded_of_handed {ended : Except LoadError (Option Catalog)}
    (handed : (StructureLint.ofReading reading file).catalog = ended) :
    (∀ error, ended = .error error → reading.bind CatalogDocument.load = .error error) ∧
      ∀ catalog, ended = .ok (some catalog) →
        reading.bind CatalogDocument.load = .ok catalog := by
  subst handed
  cases reading with
  | ok document =>
      have follows := StructureLint.follows_ofDocument document file
      change (∀ error, (StructureLint.ofDocument document file).catalog = .error error →
          document.load = .error error) ∧
        ∀ catalog, (StructureLint.ofDocument document file).catalog = .ok (some catalog) →
          document.load = .ok catalog
      generalize document.load = loaded at follows
      cases follows with
      | built handed => simp [handed]
      | stopped ended => simp [ended]
      | failed passed => simp [passed]
  | error first =>
      unfold StructureLint.ofReading
      dsimp only
      split <;> simp [StructureLint.Outcome.stop, StructureLint.Outcome.fail, Except.bind]

theorem unforeseen_of_handed {error : LoadError}
    (handed : (StructureLint.ofReading reading file).catalog = .error error) :
    error.isExpected = false := by
  unfold StructureLint.ofReading at handed
  split at handed
  · exact StructureLint.unforeseen_of_ofDocument handed
  · split at handed
    · cases handed
    · rename_i unforeseen
      cases handed
      exact Bool.not_eq_true _ ▸ unforeseen

theorem origin_of_result (found : finding ∈ (resultOf reading file).findings) :
    Origin reading file finding := by
  have known : finding ∈ findings file ++ (StructureLint.ofReading reading file).findings →
      Origin reading file finding := fun member =>
    (List.mem_append.mp member).elim .fileName origin_of_reading
  have last {error : LoadError} (ended : reading.bind CatalogDocument.load = .error error)
      (unforeseen : error.isExpected = false)
      (member : finding ∈ (findings file ++ (StructureLint.ofReading reading file).findings) ++
        [unexpectedFinding error]) : Origin reading file finding := by
    rcases List.mem_append.mp member with before | last
    · exact known before
    · rw [List.mem_singleton.mp last]
      exact .unexpected ended unforeseen
  unfold resultOf at found
  dsimp only at found
  split at found
  · rename_i error passed
    exact last ((loaded_of_handed passed).1 error rfl) (unforeseen_of_handed passed) found
  · exact known found
  · rename_i catalog handed
    split at found
    · rename_i document
      rcases List.mem_append.mp found with before | named
      · exact known before
      · have loaded : document.load = .ok catalog := (loaded_of_handed handed).2 catalog rfl
        exact .names rfl loaded named
    · -- A catalog is handed on only where the file could be read.
      cases (loaded_of_handed handed).2 catalog rfl

end CatalogFile

/-! Findings that point to nothing. -/

theorem Finding.isSome_located {severity : Severity} {location : SourceLocation} {message : Text}
    {pointer : Text} (placed : location.pointer = some pointer) (below : pointer ≠ []) :
    (located severity location message).pointer.isSome = true := by
  simp [located, placed, below]

theorem SourceLocation.pointer_locate (sources : Option SourceMap) (pointer : Text)
    (file : Option Path) : (locate sources (some pointer) file).pointer = some pointer := by
  unfold locate
  split
  · rename_i given
    cases given
    split <;> rfl
  · rfl

theorem Pointer.append_ne_nil (base token : Text) : append base token ≠ [] := by
  simp [append_eq]

namespace NamingLint

theorem holds_isSome {location : SourceLocation} {pointer : Text}
    (placed : location.pointer = some pointer) (below : pointer ≠ []) :
    Holds location (fun _ => True) (fun _ => True) fun finding => finding.pointer.isSome = true where
  named _ _ finding found := by
    have each {message : Text} : (Finding.located .warning location message).pointer.isSome = true :=
      Finding.isSome_located placed below
    unfold nameFindings at found
    grind
  shared _ _ _ := Finding.isSome_located placed below
  below _ _ := trivial

/-- All findings about names point to the operation. -/
theorem isSome_of_mem_findings {catalog : Catalog} {sources : Option SourceMap} {finding : Finding}
    (found : finding ∈ findings catalog sources) : finding.pointer.isSome = true := by
  obtain ⟨⟨operation, schema⟩, -, inside⟩ := List.mem_flatMap.mp found
  let location := SourceLocation.locate sources (OperationSource.pointer operation) catalog.file
  have placed : location.pointer = some (OperationSource.pointer operation) :=
    SourceLocation.pointer_locate _ _ _
  have below : OperationSource.pointer operation ≠ [] := Pointer.append_ne_nil _ _
  rcases List.mem_append.mp inside with own | level
  · split at own
    · contradiction
    · rw [List.mem_singleton.mp own]
      exact Finding.isSome_located placed below
  · have holds := holds_isSome placed below
    have deeper : ∀ node ∈ schema.options, ∀ finding ∈ structureFindings
        ("operation " ++ operation.shown) location node.wire node, finding.pointer.isSome = true :=
      fun node _ => holds.of_structure node (fun _ _ _ _ => trivial) trivial trivial
    exact holds.of_level trivial (fun _ _ => trivial) (fun _ _ => trivial) deeper finding level

end NamingLint

/-- The first characters of the errors that point to nothing, apart from those about the name and
the reading of a file. -/
def Finding.openings : Text := "ACIOUsu'"

theorem CatalogFile.opening_of_mem_findings {file : Path} {finding : Finding}
    (found : finding ∈ findings file) :
    finding.message.head? = some 'F'.toNat ∨ finding.message.head? = some 'C'.toNat := by
  unfold findings at found
  split at found
  · exact .inl (List.mem_singleton.mp found ▸ rfl)
  · split at found
    · exact absurd found List.not_mem_nil
    · exact .inr (List.mem_singleton.mp found ▸ rfl)

theorem LoadError.opening_of_operations {error : LoadError} (late : error.stage = .operations) :
    ∃ first ∈ Finding.openings, error.message.head? = some first := by
  cases error <;> simp only [stage, reduceCtorEq] at late <;> exact ⟨_, by decide, rfl⟩

theorem Shape.Wording.opening {entries : List (Value × Value)} {issue : ShapeIssue}
    (wording : Wording (.map entries) issue) (whole : issue.tokens = []) :
    ∃ first ∈ Finding.openings, issue.message.head? = some first := by
  cases wording with
  | noMapping other => exact absurd rfl (other entries)
  | missing required =>
      have all : ∀ name ∈ (["name", "operations"] : List Text),
          ∃ first ∈ Finding.openings, name.quoted.head? = some first := by decide +kernel
      obtain ⟨first, known, begins⟩ := all _ required
      exact ⟨first, known, by rw [List.head?_append, begins]; rfl⟩
  | unknown => exact ⟨_, by decide, rfl⟩
  | field => exact absurd whole (List.cons_ne_nil _ _)
  | emptyName => exact absurd whole (List.cons_ne_nil _ _)
  | @operation _ _ declared =>
      refine absurd whole ?_
      unfold operationTokens
      split <;> exact List.cons_ne_nil _ _

theorem StructureLint.Origin.opening {document : CatalogDocument} {file : Path} {finding : Finding}
    (origin : Origin document file finding) (unpointed : finding.pointer = none) :
    ∃ first ∈ Finding.openings, finding.message.head? = some first := by
  have pointed {severity : Severity} {pointer message : Text} (below : pointer ≠ []) :
      (Finding.located severity (document.locate pointer) message).pointer ≠ none :=
    Option.isSome_iff_ne_none.mp
      (Finding.isSome_located (SourceLocation.pointer_locate _ _ _) below)
  cases origin with
  | root => exact ⟨_, by decide, rfl⟩
  | version => exact absurd unpointed (pointed (List.cons_ne_nil _ _))
  | notice => exact absurd unpointed (pointed (List.cons_ne_nil _ _))
  | @shape entries issue mapping found =>
      rw [mapping] at found
      have whole : issue.tokens = [] := by
        by_contra below
        have distinct : issue.pointer ≠ Pointer.ofTokens [] :=
          fun same => below (Pointer.ofTokens_injective same)
        exact pointed distinct unpointed
      obtain ⟨first, known, begins⟩ := (Shape.wording_of_mem_issues found).opening whole
      refine ⟨first, known, ?_⟩
      rw [Finding.located, List.head?_append, begins]
      rfl
  | name _ found =>
      unfold nameFindings at found
      dsimp only at found
      split at found
      · contradiction
      · rw [List.mem_singleton.mp found] at unpointed
        exact absurd unpointed (pointed (List.cons_ne_nil _ _))
  | operations _ failed =>
      exact LoadError.opening_of_operations (OperationSource.stage_buildAll failed)

/-- A finding that points to nothing is about the name of the file, or says why the file cannot be
read, or has one of few beginnings. -/
theorem CatalogFile.Origin.opening {reading : Except LoadError CatalogDocument} {file : Path}
    {finding : Finding} (origin : Origin reading file finding)
    (unpointed : finding.pointer = none) :
    finding ∈ findings file ∨
    (∃ error, reading = .error error ∧ error.isExpected = true ∧
      finding = .plain .error ("Failed to load YAML file: " ++ error.message)) ∨
    ∃ first ∈ Finding.openings, finding.message.head? = some first := by
  cases origin with
  | fileName found => exact .inl found
  | unread ended expected => exact .inr (.inl ⟨_, ended, expected, rfl⟩)
  | structural _ origin => exact .inr (.inr (origin.opening unpointed))
  | names _ _ found =>
      have pointed := NamingLint.isSome_of_mem_findings found
      rw [unpointed] at pointed
      contradiction
  | unexpected => exact .inr (.inr ⟨_, by decide, rfl⟩)

end QueryOptions
