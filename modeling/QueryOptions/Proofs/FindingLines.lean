import QueryOptions.Proofs.DeclaredLines
import QueryOptions.Proofs.FindingOrigins
import QueryOptions.Proofs.NameWarnings

namespace QueryOptions

/-! Findings that stand on one line. Messages cite the texts of a document as they are, so that a
message has as many lines as the texts in it; where each of these is one line, so is each finding
about the file. -/

/-! Places. -/

namespace Pointer

theorem isLine_append {base token : Text} (above : Text.IsLine base) (line : Text.IsLine token) :
    Text.IsLine (append base token) := by
  have escaped : Text.IsLine (escape token) := by
    refine Text.isLine_flatMap.mpr fun point inside => ?_
    split
    · decide
    · split
      · decide
      · exact line.of_subset fun other same => List.mem_singleton.mp same ▸ inside
  simp only [append, Text.isLine_append]
  exact ⟨⟨above, by decide⟩, escaped⟩

theorem isLine_ofTokens {tokens : List Text} (lines : ∀ token ∈ tokens, Text.IsLine token) :
    Text.IsLine (ofTokens tokens) := by
  induction tokens using List.reverseRecOn with
  | nil => exact Text.isLine_nil
  | append_singleton tokens token ih =>
      obtain ⟨before, last⟩ := List.forall_mem_append.mp lines
      rw [ofTokens_concat]
      exact isLine_append (ih before) (List.forall_mem_singleton.mp last)

end Pointer

theorem SourceLocation.isLine_locate {sources : Option SourceMap} {pointer : Text}
    {file : Option Path} (filed : ∀ path, file = some path → Text.IsLine path.toText)
    (line : Text.IsLine pointer) : Text.IsLine (locate sources (some pointer) file).toText := by
  have placed : (locate sources (some pointer) file).file = file := by
    unfold locate
    split
    · split <;> rfl
    · rfl
  refine isLine_toText (by rwa [placed]) fun other same => ?_
  rw [pointer_locate] at same
  cases same
  exact line

/-- The finding is told on one line. -/
def Finding.IsLine (finding : Finding) : Prop := Text.IsLine finding.message

theorem Finding.isLine_located {severity : Severity} {location : SourceLocation} {message : Text}
    (line : Text.IsLine message) (placed : Text.IsLine location.toText) :
    (located severity location message).IsLine := Text.isLine_append.mpr ⟨line, placed⟩

/-! Names of files. -/

theorem Text.IsLine.before_splitLast? {text before after : Text} {separator : CodePoint}
    (line : IsLine text) (cut : splitLast? separator text = some (before, after)) :
    IsLine before := by
  have occurs : separator ∈ text := by
    by_contra absent
    rw [splitLast?_eq_none absent] at cut
    cases cut
  obtain ⟨front, back, rfl, last⟩ := exists_last occurs
  rw [splitLast?_append last] at cut
  cases cut
  exact (isLine_append.mp line).1

theorem Path.isLine_name {path : Path} (line : Text.IsLine path.toText) :
    Text.IsLine path.name := by
  have names : ∀ name ∈ path.names, Text.IsLine name := by
    unfold toText at line
    dsimp only at line
    split at line
    · rename_i none
      rw [List.isEmpty_iff.mp (Bool.and_eq_true_iff.mp none).2]
      exact nofun
    · exact (Text.isLine_join_iff (by decide)).mp (Text.isLine_append.mp line).2
  rw [name, List.getLastD_eq_getLast?]
  cases last : path.names.getLast? with
  | none => exact Text.isLine_nil
  | some name => exact names name (List.mem_of_getLast? last)

theorem Path.isLine_stem {path : Path} (line : Text.IsLine path.toText) :
    Text.IsLine path.stem := by
  unfold stem
  split
  · rename_i cut
    split
    · exact isLine_name line
    · exact (isLine_name line).before_splitLast? cut
  · exact isLine_name line

namespace CatalogFile

variable {file : Path}

theorem isLine_baseName {base : Text} (line : Text.IsLine file.toText)
    (named : baseName? file = some base) : Text.IsLine base := by
  unfold baseName? Text.beforeEnding? at named
  split at named
  · cases named
    exact (Path.isLine_name line).of_subset fun _ => List.mem_of_mem_take
  · cases named

theorem isLine_catalogName (line : Text.IsLine file.toText) : Text.IsLine (catalogName file) := by
  unfold catalogName
  cases named : baseName? file with
  | none => exact Path.isLine_stem line
  | some base => exact isLine_baseName line named

theorem isLine_of_mem_findings (line : Text.IsLine file.toText) :
    ∀ finding ∈ findings file, finding.IsLine := by
  intro finding found
  unfold findings at found
  split at found
  · rw [List.mem_singleton.mp found, Finding.IsLine]
    decide
  · rename_i base named
    split at found
    · contradiction
    · rw [List.mem_singleton.mp found]
      simp only [Finding.IsLine, Finding.plain, Text.isLine_append, isLine_baseName line named,
        and_true]
      decide

end CatalogFile

/-! Versions and shapes. -/

theorem FormatVersion.isLine_toText (version : FormatVersion) : Text.IsLine version.toText :=
  fun inside => absurd (mem_toText inside) (by decide)

theorem VersionNotice.isLine_message (notice : VersionNotice) : Text.IsLine notice.message := by
  cases notice with
  | missing => decide
  | newerMinor declared =>
      simp only [message, Text.isLine_append, FormatVersion.isLine_toText, and_true]
      decide

theorem VersionCheck.isLine_of_error {given : Value} (lined : given.Lined) {error : VersionError}
    (refused : (ofValue given).error = some error) : Text.IsLine error.message := by
  unfold ofValue at refused
  split at refused
  · cases refused
  · split at refused
    · rename_i other read
      cases refused
      unfold FormatVersion.read at read
      split at read
      · cases read
        simp only [VersionError.message, Text.isLine_append, given.isLine_typeName,
          given.isLine_written lined, and_true]
        decide
      · split at read
        · cases read
        · cases read
          simp only [VersionError.message, Text.isLine_append, given.isLine_shown lined, and_true]
          decide
    · rename_i declared read
      split at refused
      · cases refused
        simp only [VersionError.message, Text.isLine_append, declared.isLine_toText,
          Text.isLine_ofNat, and_true]
        decide
      · split at refused <;> cases refused

namespace Shape.Wording

variable {value : Value} {issue : ShapeIssue}

theorem isLine_message (wording : Wording value issue) (lined : value.Lined) :
    Text.IsLine issue.message := by
  have mistyped {given : Value} (type : Text) (lined : given.Lined) :
      Text.IsLine (given.written ++ " is not of type " ++ type.quoted) := by
    simp only [Text.isLine_append, given.isLine_written lined, Text.isLine_quoted, true_and, and_true]
    decide
  cases wording with
  | noMapping => exact mistyped "object" lined
  | missing => exact Text.isLine_append.mpr ⟨Text.isLine_quoted _, by decide⟩
  | @unknown entries keys verb given spelled =>
      have keyed : ∀ text ∈ keys.map Value.written, Text.IsLine text := by
        refine List.forall_mem_map.mpr fun key inside => key.isLine_written ?_
        obtain ⟨entry, known, rfl⟩ := List.mem_map.mp (given key inside)
        exact (Value.lined_map.mp lined entry known).1
      have verbal : Text.IsLine verb := by rcases spelled with rfl | rfl <;> decide
      simp only [Text.isLine_append, Value.isLine_commaSeparated keyed, verbal, and_true]
      decide
  | field _ given => exact mistyped _ (Entries.lined_of_find? lined given)
  | emptyName => decide
  | operation given inside =>
      have operations := Value.lined_map.mp (Entries.lined_of_find? lined given)
      exact Text.isLine_append.mpr ⟨Value.isLine_written _ (operations _ inside).2, by decide⟩

theorem isLine_pointer (wording : Wording value issue) (lined : value.Lined) :
    Text.IsLine issue.pointer := by
  refine Pointer.isLine_ofTokens ?_
  cases wording with
  | noMapping => exact nofun
  | missing => exact nofun
  | unknown => exact nofun
  | field known =>
      have fields : ∀ name ∈ documentFields, Text.IsLine name := by decide
      exact List.forall_mem_singleton.mpr (fields _ known)
  | emptyName => decide
  | @operation _ _ declared given inside =>
      have operations := Value.lined_map.mp (Entries.lined_of_find? lined given)
      have named := declared.1.isLine_shown (operations _ inside).1
      have whole : Text.IsLine "operations" := by decide
      unfold operationTokens
      split
      · exact List.forall_mem_singleton.mpr whole
      · exact List.forall_mem_cons.mpr ⟨whole, List.forall_mem_singleton.mpr named⟩

end Shape.Wording

/-! Operations. -/

namespace LoadError

theorem isLine_unknownBase {operation base : Value} {location : SourceLocation}
    (named : operation.Lined) (based : base.Lined) (placed : Text.IsLine location.toText) :
    Text.IsLine (unknownBase operation base location).message := by
  simp only [message, Text.isLine_append]
  exact ⟨⟨⟨⟨⟨by decide, operation.isLine_shown named⟩, by decide⟩, base.isLine_shown based⟩,
    by decide⟩, placed⟩

theorem isLine_declaration {operation : Value} {error : SchemaError} {location : SourceLocation}
    (named : operation.Lined) (told : error.Lined) (placed : Text.IsLine location.toText) :
    Text.IsLine (declaration operation error location).message := by
  simp only [message, Text.isLine_append]
  exact ⟨⟨⟨⟨by decide, operation.isLine_shown named⟩, by decide⟩,
    SchemaError.isLine_message told⟩, placed⟩

theorem isLine_circularBases {operations : List Value}
    (named : ∀ operation ∈ operations, operation.Lined) :
    Text.IsLine (joining operations (circularBases operations)).message := by
  have names : ∀ name ∈ operations.filterMap Value.text?, Text.IsLine name := by
    intro name inside
    obtain ⟨operation, known, read⟩ := List.mem_filterMap.mp inside
    have lined := named operation known
    cases operation with
    | text content => cases read; exact Value.lined_text.mp lined
    | kind named => cases read; exact named.isLine_name
    | _ => cases read
  unfold joining
  split
  · simp only [message, Text.isLine_append, Text.isLine_ofNat, Value.isLine_qualifiedTypeName,
      and_true]
    decide
  · exact Text.isLine_append.mpr ⟨by decide, Text.isLine_join _ (by decide) names⟩

end LoadError

namespace OperationSource

variable {source : OperationSource} {chain : List Value} {name : Value} {built : BuiltOperations}

/-- What the document declares, and the path of its file, have no text of more than one line. -/
structure Lined (source : OperationSource) : Prop where
  declared : ∀ operation ∈ source.operations, operation.1.Lined ∧ operation.2.Lined
  filed : ∀ path, source.file = some path → Text.IsLine path.toText

theorem isLine_pointer {operation : Value} (named : operation.Lined) :
    Text.IsLine (pointer operation) :=
  Pointer.isLine_append (by decide) (operation.isLine_shown named)

theorem Lined.entry (lined : source.Lined) (name : Value) :
    (source.entry name).declarations.Lined ∧
      ∀ base, (source.entry name).base = some base → base.Lined := by
  refine OperationEntry.lined_ofValue ?_
  cases found : Entries.find? name source.operations with
  | none => exact nofun
  | some declared =>
      obtain ⟨known, inside, -⟩ := Entries.exists_mem_of_find? found
      exact (lined.declared _ inside).2

def AllLined (built : BuiltOperations) : Prop := ∀ made ∈ built, made.2.schema.Lined

/-- Building gives schemas with names of one line each, or it is told why not on one line. -/
def Told : Except BuildFailure BuiltOperations → Prop
  | .ok built => AllLined built
  | .error failure => Text.IsLine failure.error.message

theorem Lined.extend (lined : source.Lined) (named : name.Lined) {base : Schema}
    (onto : base.Lined) (before : AllLined built) : Told (source.extend name base built) := by
  have told := Schema.tells_customize onto (lined.entry name).1
  unfold OperationSource.extend
  split
  · rename_i schema customized
    rw [customized] at told
    exact List.forall_mem_append.mpr ⟨before, List.forall_mem_singleton.mpr told⟩
  · rename_i error refused
    rw [refused] at told
    exact LoadError.isLine_declaration named told
      (SourceLocation.isLine_locate lined.filed (isLine_pointer named))

theorem lined_concat (waiting : ∀ operation ∈ chain, operation.Lined) (named : name.Lined) :
    ∀ operation ∈ chain ++ [name], operation.Lined :=
  List.forall_mem_append.mpr ⟨waiting, List.forall_mem_singleton.mpr named⟩

theorem Lined.build (lined : source.Lined) (waiting : ∀ operation ∈ chain, operation.Lined)
    (named : name.Lined) (before : AllLined built) : Told (source.build chain name built) := by
  fun_induction OperationSource.build source chain name built with
  | case1 => exact before
  | case2 => exact LoadError.isLine_circularBases (lined_concat waiting named)
  | case3 => exact lined.extend named Schema.lined_empty before
  | case4 chain name _ _ base based _ earlier runBase ih =>
      have told := ih (lined_concat waiting named) ((lined.entry name).2 base based)
      rw [runBase] at told
      exact told
  | case5 chain name _ _ base based _ middle runBase found hit ih =>
      have told := ih (lined_concat waiting named) ((lined.entry name).2 base based)
      rw [runBase] at told
      obtain ⟨known, inside, -⟩ := Entries.exists_mem_of_find? hit
      exact lined.extend named (told _ inside) told
  | case6 chain name _ _ base based _ middle runBase _ ih =>
      have told := ih (lined_concat waiting named) ((lined.entry name).2 base based)
      rw [runBase] at told
      exact lined.extend named Schema.lined_empty told
  | case7 chain name built _ base based _ =>
      have line : Text.IsLine (pointer name ++ "/base") :=
        Text.isLine_append.mpr ⟨isLine_pointer named, by decide⟩
      exact LoadError.isLine_unknownBase named ((lined.entry name).2 base based)
        (SourceLocation.isLine_locate lined.filed line)

theorem Lined.buildAll (lined : source.Lined) : Told source.buildAll := by
  have none : ∀ operation ∈ ([] : List Value), operation.Lined :=
    fun _ inside => absurd inside List.not_mem_nil
  have initially : AllLined [] := fun _ inside => absurd inside List.not_mem_nil
  have each : ∀ operations : List (Value × Value), (∀ operation ∈ operations, operation.1.Lined) →
      ∀ built, AllLined built → Told (operations.foldlM
        (fun built operation => source.build [] operation.1 built) built) := by
    intro operations named
    induction operations with
    | nil => exact fun _ before => before
    | cons operation rest ih =>
        obtain ⟨here, later⟩ := List.forall_mem_cons.mp named
        intro built before
        have told := lined.build none here before
        rw [List.foldlM_cons]
        cases run : source.build [] operation.1 built with
        | error failure =>
            rw [run] at told
            exact told
        | ok after =>
            rw [run] at told
            exact ih later after told
  exact each source.operations (fun operation inside => (lined.declared operation inside).1) []
    initially

theorem Lined.schemas (lined : source.Lined) {schemas : List (Value × Schema)}
    (run : source.schemas = .ok schemas) :
    ∀ operation ∈ schemas, operation.1.Lined ∧ operation.2.Lined := by
  have told := lined.buildAll
  unfold OperationSource.schemas at run
  split at run
  · rename_i built ran
    rw [ran] at told
    cases run
    intro operation inside
    obtain ⟨declared, known, placed⟩ := List.mem_filterMap.mp inside
    obtain ⟨made, hit, rfl⟩ := Option.map_eq_some_iff.mp placed
    obtain ⟨key, member, -⟩ := Entries.exists_mem_of_find? hit
    exact ⟨(lined.declared declared known).1, told _ member⟩
  · cases run

end OperationSource

/-! Names. -/

/-- The two names of the node are spelled on one line each. -/
def Node.NamesLined (node : Node) : Prop :=
  Text.IsLine node.wire.spelling ∧ Text.IsLine node.binding

theorem Schema.Lined.namesLined {schema : Schema} (lined : schema.Lined)
    (reachable : schema.Reachable) :
    Node.AllLevels (fun level => ∀ node ∈ level, node.NamesLined) schema.options := by
  have bindings {level : List Node} (made : NamingLint.BindingsMade level) :
      ∀ node ∈ level, Text.IsLine node.binding := by
    intro node inside
    obtain ⟨name, same⟩ := made node inside
    rw [same]
    exact Naming.lineFeed_notMem_bindingName name
  obtain ⟨here, below⟩ := reachable.allLevels nofun NamingLint.bindingsMade_declareIn
  refine ⟨fun node inside => ⟨lined.1 node inside, bindings here node inside⟩, ?_⟩
  intro node inside level stands other known
  have made := below node inside level stands
  exact ⟨lined.2 node inside level stands other known, bindings made other known⟩

namespace NamingLint

theorem holds_isLine {location : SourceLocation} (placed : Text.IsLine location.toText) :
    Holds location Text.IsLine Node.NamesLined Finding.IsLine where
  named owned fit finding found := by
    unfold nameFindings at found
    rcases List.mem_append.mp found with wire | binding
    · split at wire
      · contradiction
      · rw [List.mem_singleton.mp wire]
        refine Finding.isLine_located ?_ placed
        simp only [Text.isLine_append, fit.1, owned, and_true]
        decide
    · split at binding
      · contradiction
      · rw [List.mem_singleton.mp binding]
        refine Finding.isLine_located ?_ placed
        simp only [Text.isLine_append, fit.1, fit.2, owned, and_true]
        decide
  shared owned fit earlier := by
    refine Finding.isLine_located ?_ placed
    simp only [Text.isLine_append, fit.1, fit.2, earlier.1, owned, and_true]
    decide
  below owned fit := by
    simp only [structureOwner, Text.isLine_append, fit.1, owned, and_true]
    decide

theorem isLine_of_mem_findings {catalog : Catalog} {sources : Option SourceMap}
    (lined : ∀ operation ∈ catalog.operations, operation.1.Lined ∧ operation.2.Lined)
    (reachable : ∀ operation ∈ catalog.operations, operation.2.Reachable)
    (filed : ∀ path, catalog.file = some path → Text.IsLine path.toText) :
    ∀ finding ∈ findings catalog sources, finding.IsLine := by
  intro finding found
  obtain ⟨⟨operation, schema⟩, known, inside⟩ := List.mem_flatMap.mp found
  have named : Text.IsLine operation.shown := operation.isLine_shown (lined _ known).1
  have owned : Text.IsLine ("operation " ++ operation.shown) :=
    Text.isLine_append.mpr ⟨by decide, named⟩
  have placed : Text.IsLine (SourceLocation.locate sources
      (some (OperationSource.pointer operation)) catalog.file).toText :=
    SourceLocation.isLine_locate filed (OperationSource.isLine_pointer (lined _ known).1)
  rcases List.mem_append.mp inside with own | level
  · split at own
    · contradiction
    · rw [List.mem_singleton.mp own]
      refine Finding.isLine_located ?_ placed
      simp only [Text.isLine_append, named, and_true]
      decide
  · have holds := holds_isLine placed
    have none : ∀ node ∈ ([] : List Node), node.NamesLined :=
      fun _ inside => absurd inside List.not_mem_nil
    obtain ⟨here, below⟩ := (lined _ known).2.namesLined (reachable _ known)
    have deeper := fun node inside =>
      holds.of_structure node (below node inside) owned (holds.below owned (here node inside))
    exact holds.of_level owned none here deeper finding level

end NamingLint

/-! Files. -/

theorem FileSystem.Unread.isLine {system : FileSystem} {file : Path} {error : LoadError}
    (unread : system.Unread file error) (line : Text.IsLine file.toText)
    (formed : error ≠ .malformed (some file)) : Text.IsLine error.message := by
  cases unread with
  | refused => exact NameTooLong.isLine_message _
  | missing => exact Text.isLine_append.mpr ⟨by decide, line⟩
  | irregular => exact Text.isLine_append.mpr ⟨by decide, line⟩
  | undecoded =>
      simp only [LoadError.message, Text.isLine_append, line, and_true]
      decide
  | malformed => exact absurd rfl formed
  | faulty fault => exact fault.isLine_message

namespace CatalogDocument

variable {document : CatalogDocument}

theorem isLine_of_unforeseen {error : LoadError} (ended : document.load = .error error)
    (unforeseen : error.isExpected = false) : Text.IsLine error.message := by
  cases ends_of_load ended with
  | root => cases unforeseen
  | version => cases unforeseen
  | shape => cases unforeseen
  | layout mapping read missing =>
      rw [shapeIssues_eq document read] at missing
      split at missing
      · cases missing
        exact NameTooLong.isLine_message _
      · cases missing
  | operations _ _ _ failed =>
      have late := OperationSource.stage_schemas failed
      cases error with
      | unjoinable place name =>
          simp only [LoadError.message, Text.isLine_append, Text.isLine_ofNat,
            name.isLine_qualifiedTypeName, and_true]
          decide
      | unknownBase => cases unforeseen
      | circularBases => cases unforeseen
      | declaration => cases unforeseen
      | _ => cases late

theorem lined_operationSource {entries : List (Value × Value)} (lined : (Value.map entries).Lined)
    (filed : ∀ path, document.file = some path → Text.IsLine path.toText) :
    (document.operationSource entries).Lined := by
  refine ⟨?_, filed⟩
  have operations := Entries.lined_field lined (.text "operations")
  unfold operationSource
  dsimp only
  split
  · rename_i read
    have given : (Entries.find? (.text "operations") entries).getD .null = .map _ := read
    rw [given] at operations
    exact Value.lined_map.mp operations
  · exact fun _ inside => absurd inside List.not_mem_nil

end CatalogDocument

theorem StructureLint.Origin.isLine {document : CatalogDocument} {file : Path} {finding : Finding}
    (origin : Origin document file finding) (lined : document.value.Lined)
    (filed : ∀ path, document.file = some path → Text.IsLine path.toText)
    (line : Text.IsLine file.toText) : finding.IsLine := by
  have placed {pointer : Text} (line : Text.IsLine pointer) :
      Text.IsLine (document.locate pointer).toText := SourceLocation.isLine_locate filed line
  have version : Text.IsLine document.versionLocation.toText := placed (by decide)
  cases origin with
  | root =>
      rw [Finding.IsLine]
      decide
  | version mapping refused =>
      rw [mapping] at lined
      have given := Entries.lined_field lined (.text FormatVersion.field)
      exact Finding.isLine_located (VersionCheck.isLine_of_error given refused) version
  | notice => exact Finding.isLine_located (VersionNotice.isLine_message _) version
  | shape _ found =>
      have wording := Shape.wording_of_mem_issues found
      exact Finding.isLine_located (wording.isLine_message lined)
        (placed (wording.isLine_pointer lined))
  | @name entries _ mapping found =>
      unfold nameFindings at found
      dsimp only at found
      split at found
      · contradiction
      · rw [List.mem_singleton.mp found]
        rw [mapping] at lined
        have named : Text.IsLine (document.assemble entries []).name.shown :=
          Value.isLine_shown _ (Entries.lined_field lined (.text "name"))
        refine Finding.isLine_located ?_ (placed (by decide))
        simp only [Text.isLine_append, named, CatalogFile.isLine_catalogName line, and_true]
        decide
  | operations mapping failed =>
      rw [mapping] at lined
      have told := (CatalogDocument.lined_operationSource lined filed).buildAll
      rw [failed] at told
      exact told

namespace CatalogFile

/-- The path of the file and all texts of its document stand on one line each. Malformed texts are
left out: the details of what is wrong with them may take several lines. -/
structure Lined (system : FileSystem) (file : Path) : Prop where
  path : Text.IsLine file.toText
  formed : system.document file ≠ .error (.malformed (some file))
  declared : ∀ document, system.document file = .ok document → document.value.Lined

theorem lined_of_read {system : FileSystem} {file : Path} (path : Text.IsLine file.toText)
    (read : (system.document file).toOption.any (fun document => decide document.value.Lined) =
      true) : Lined system file := by
  refine ⟨path, ?_, ?_⟩
  · intro malformed
    rw [malformed] at read
    contradiction
  · intro document held
    rw [held] at read
    exact of_decide_eq_true read

theorem Lined.isLine_of_error {system : FileSystem} {file : Path} {error : LoadError}
    (lined : Lined system file) (ended : system.document file = .error error) :
    Text.IsLine error.message :=
  (FileSystem.unread_of_document ended).isLine lined.path fun same => lined.formed (same ▸ ended)

/-- All that is found about such a file is told on one line. -/
theorem Lined.isLine_of_mem {system : FileSystem} {file : Path} (lined : Lined system file) :
    ∀ finding ∈ (resultOf (system.document file) file).findings, finding.IsLine := by
  intro finding found
  have filed {document : CatalogDocument} (read : system.document file = .ok document) :
      ∀ path, document.file = some path → Text.IsLine path.toText := by
    intro path same
    rw [FileSystem.file_of_document read] at same
    cases same
    exact lined.path
  cases origin_of_result found with
  | fileName about => exact isLine_of_mem_findings lined.path finding about
  | unread ended => exact Text.isLine_append.mpr ⟨by decide, lined.isLine_of_error ended⟩
  | structural read origin => exact origin.isLine (lined.declared _ read) (filed read) lined.path
  | names read loaded named =>
      obtain ⟨entries, operations, mapping, run, rfl⟩ := CatalogDocument.exists_assembled loaded
      have declared := lined.declared _ read
      rw [mapping] at declared
      have source := CatalogDocument.lined_operationSource declared (filed read)
      refine NamingLint.isLine_of_mem_findings (source.schemas run)
        (OperationSource.reachable_of_schemas run) (filed read) finding named
  | @unexpected error ended unforeseen =>
      refine Text.isLine_append.mpr ⟨by decide, ?_⟩
      cases read : system.document file with
      | ok document =>
          rw [read] at ended
          exact document.isLine_of_unforeseen ended unforeseen
      | error first =>
          rw [read] at ended
          cases ended
          exact lined.isLine_of_error read

end CatalogFile

end QueryOptions
