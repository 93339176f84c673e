import Mathlib.Data.List.Induction
import QueryOptions.Lint.Naming
import QueryOptions.Lint.Structure
import QueryOptions.Proofs.Loops

namespace QueryOptions

/-! Looking up where a value stands. The search goes up from a pointer, cutting it at its last
slash, until it meets a position. It comes to the root from every pointer that is made of tokens,
since no slash is left inside a token, and all lookups of loading and linting are at such
pointers. -/

namespace Pointer

theorem slash_notMem_escape (token : Text) : '/'.toNat ∉ escape token := by
  intro inside
  obtain ⟨point, -, written⟩ := List.mem_flatMap.mp inside
  split at written
  · revert written; decide
  · split at written
    · revert written; decide
    · exact (by assumption : ¬ point = '/'.toNat) (List.mem_singleton.mp written).symm

theorem append_eq (base token : Text) : append base token = base ++ '/'.toNat :: escape token := by
  show (base ++ ['/'.toNat]) ++ escape token = _
  rw [List.append_assoc, List.singleton_append]

@[simp] theorem ofTokens_nil : ofTokens [] = [] := rfl

@[simp] theorem ofTokens_concat (tokens : List Text) (token : Text) :
    ofTokens (tokens ++ [token]) = append (ofTokens tokens) token := by
  simp [ofTokens]

/-- Where the search goes from a pointer: to what stands before its last slash. A text without a
slash stays as it is. -/
def above (pointer : Text) : Text := (parent? pointer).getD pointer

theorem above_append (base token : Text) : above (append base token) = base := by
  rw [append_eq, above, parent?, Text.splitLast?_append (slash_notMem_escape token)]
  rfl

end Pointer

namespace SourceMap

variable {sources : SourceMap} {probe : Text} {tokens : List Text} {found : Option Position}

/-- The entry of a pointer, unless it says nothing. -/
def known? (sources : SourceMap) (pointer : Text) : Option Position :=
  (Entries.find? pointer sources).filter (·.isKnown)

/-- The search that starts at a text ends with a position, or at the root without one. -/
inductive Search (sources : SourceMap) : Text → Option Position → Prop
  | hit {probe : Text} {position : Position} (known : sources.known? probe = some position) :
      Search sources probe (some position)
  | root (unknown : sources.known? [] = none) : Search sources [] none
  | up {probe : Text} {found : Option Position} (unknown : sources.known? probe = none)
      (below : probe ≠ []) (rest : Search sources (Pointer.above probe) found) :
      Search sources probe found

/-- The position of the longest beginning of the tokens that has one. -/
inductive Nearest (sources : SourceMap) (tokens : List Text) : Option Position → Prop
  | known {beginning : List Text} {position : Position} (begins : beginning <+: tokens)
      (stands : sources.known? (Pointer.ofTokens beginning) = some position)
      (longest : ∀ longer, longer <+: tokens → beginning.length < longer.length →
        sources.known? (Pointer.ofTokens longer) = none) : Nearest sources tokens (some position)
  | unknown (nowhere : ∀ beginning, beginning <+: tokens →
      sources.known? (Pointer.ofTokens beginning) = none) : Nearest sources tokens none

/-! The search as one pass over the ancestors of a text. -/

theorem ancestors_unslashed (plain : '/'.toNat ∉ probe) : ancestors probe = [probe] := by
  rw [ancestors, Text.split_of_notMem plain]
  show [Text.join "/" [probe]] = [probe]
  rw [Text.join, List.intercalate_singleton]

theorem ancestors_cut {before after : Text} (last : '/'.toNat ∉ after) :
    ancestors (before ++ '/'.toNat :: after) =
      (before ++ '/'.toNat :: after) :: ancestors before := by
  have pieces :
      Text.split '/' (before ++ '/'.toNat :: after) = Text.split '/' before ++ [after] := by
    rw [Text.split_append_separator, Text.split_of_notMem last]
  have whole : Text.join "/" (Text.split '/' before ++ [after]) = before ++ '/'.toNat :: after := by
    rw [← pieces]
    exact Text.join_split _
  simp only [ancestors, pieces, List.length_append, List.length_singleton, List.range_succ,
    List.reverse_concat, List.map_cons]
  refine congrArg₂ List.cons ?_ (List.map_congr_left fun count inside => ?_)
  · rw [List.take_of_length_le (by simp), whole]
  · have within : count + 1 ≤ (Text.split '/' before).length := List.mem_range.mp
      (List.mem_reverse.mp inside)
    rw [List.take_append_of_le_length within]

theorem position?_eq (sources : SourceMap) (pointer : Text) :
    sources.position? pointer = (ancestors pointer).findSome? sources.known? := rfl

theorem position?_unslashed (plain : '/'.toNat ∉ probe) :
    sources.position? probe = sources.known? probe := by
  rw [position?_eq, ancestors_unslashed plain, List.findSome?_singleton]

theorem position?_cut {before after : Text} (last : '/'.toNat ∉ after) :
    sources.position? (before ++ '/'.toNat :: after) =
      (sources.known? (before ++ '/'.toNat :: after)).or (sources.position? before) := by
  rw [position?_eq, ancestors_cut last, List.findSome?_cons, position?_eq]
  cases sources.known? (before ++ '/'.toNat :: after) <;> rfl

theorem Search.position?_eq (search : sources.Search probe found) :
    sources.position? probe = found := by
  induction search with
  | @hit probe position known =>
      by_cases slashed : '/'.toNat ∈ probe
      · obtain ⟨before, after, rfl, last⟩ := Text.exists_last slashed
        rw [position?_cut last, known, Option.some_or]
      · rw [position?_unslashed slashed, known]
  | root unknown => rw [position?_unslashed List.not_mem_nil, unknown]
  | @up probe found unknown below rest ih =>
      by_cases slashed : '/'.toNat ∈ probe
      · obtain ⟨before, after, rfl, last⟩ := Text.exists_last slashed
        rw [Pointer.above, Pointer.parent?, Text.splitLast?_append last] at ih
        rw [position?_cut last, unknown, Option.none_or]
        exact ih
      · rwa [Pointer.above, Pointer.parent?, Text.splitLast?_eq_none slashed] at ih

/-- From a text without a slash that is not known the search goes on for ever. -/
theorem not_search_of_unslashed (plain : '/'.toNat ∉ probe) (nonempty : probe ≠ [])
    (unknown : sources.known? probe = none) : ¬ ∃ found, sources.Search probe found := by
  rintro ⟨found, search⟩
  induction search with
  | hit known => simp [unknown] at known
  | root => contradiction
  | up _ _ _ ih =>
      have stays : Pointer.above _ = _ :=
        congrArg (fun cut => (Option.map Prod.fst cut).getD _) (Text.splitLast?_eq_none plain)
      rw [stays] at ih
      exact ih plain nonempty unknown

theorem Nearest.concat {token : Text} (nearest : sources.Nearest tokens found)
    (unknown : sources.known? (Pointer.ofTokens (tokens ++ [token])) = none) :
    sources.Nearest (tokens ++ [token]) found := by
  cases nearest with
  | known begins stands longest =>
      refine .known (begins.trans (List.prefix_append _ _)) stands fun longer further later => ?_
      rcases List.prefix_concat_iff.mp further with rfl | inside
      · exact unknown
      · exact longest longer inside later
  | unknown nowhere =>
      refine .unknown fun beginning further => ?_
      rcases List.prefix_concat_iff.mp further with rfl | inside
      · exact unknown
      · exact nowhere beginning inside

theorem nearest_of_known {position : Position}
    (known : sources.known? (Pointer.ofTokens tokens) = some position) :
    sources.Nearest tokens (some position) :=
  .known List.prefix_rfl known fun _ further later =>
    absurd further.length_le (Nat.not_le.mpr later)

/-- The search ends at every pointer made of tokens, with the nearest position. -/
theorem exists_search (sources : SourceMap) (tokens : List Text) :
    ∃ found, sources.Search (Pointer.ofTokens tokens) found ∧ sources.Nearest tokens found := by
  induction tokens using List.reverseRecOn with
  | nil =>
      cases known : sources.known? [] with
      | some position => exact ⟨some position, .hit known, nearest_of_known known⟩
      | none =>
          refine ⟨none, .root known, .unknown fun beginning begins => ?_⟩
          rw [List.prefix_nil.mp begins]
          exact known
  | append_singleton tokens token ih =>
      cases known : sources.known? (Pointer.ofTokens (tokens ++ [token])) with
      | some position => exact ⟨some position, .hit known, nearest_of_known known⟩
      | none =>
          obtain ⟨found, search, nearest⟩ := ih
          refine ⟨found, .up known ?_ ?_, nearest.concat known⟩
          · simp [Pointer.append_eq]
          · rwa [Pointer.ofTokens_concat, Pointer.above_append]

end SourceMap

namespace OperationSource

variable {source : OperationSource} {others : Option SourceMap}

theorem pointer_eq (operation : Value) :
    pointer operation = Pointer.ofTokens [Text.ofString "operations", operation.shown] := by
  have below : Pointer.ofTokens [Text.ofString "operations"] = "/operations" := by decide
  rw [pointer, ← below]
  rfl

/-- Another source map locates the operations and their bases where the source does. -/
def LocatedAlike (source : OperationSource) (others : Option SourceMap) : Prop :=
  ∀ operation, { source with sources := others }.locate (pointer operation) =
      source.locate (pointer operation) ∧
    { source with sources := others }.locate (pointer operation ++ "/base") =
      source.locate (pointer operation ++ "/base")

theorem extend_relocated (alike : source.LocatedAlike others) (operation : Value) (base : Schema)
    (built : BuiltOperations) :
    { source with sources := others }.extend operation base built =
      source.extend operation base built := by
  unfold extend
  rw [(alike operation).1]
  rfl

theorem build_eq (source : OperationSource) (chain : List Value) (operation : Value)
    (built : BuiltOperations) : source.build chain operation built =
      if Entries.hasKey operation built then .ok built
      else if chain.any (· == operation) then
        .error ⟨.joining (chain ++ [operation]) (.circularBases (chain ++ [operation])), built⟩
      else
        match (source.entry operation).base with
        | none => source.extend operation .empty built
        | some base =>
            if Entries.hasKey base source.operations then
              match source.build (chain ++ [operation]) base built with
              | .error failure => .error failure
              | .ok built =>
                  source.extend operation
                    ((Entries.find? base built).elim .empty BuiltOperation.schema) built
            else
              .error ⟨.unknownBase operation base (source.locate (pointer operation ++ "/base")),
                built⟩ := by
  rw [build]
  split
  · rfl
  · split
    · rfl
    · split
      · rename_i rooted
        rw [rooted]
      · rename_i base given
        rw [given]
        dsimp only
        split
        · cases source.build (chain ++ [operation]) base built with
          | error failure => rfl
          | ok built =>
              dsimp only
              cases Entries.find? base built <;> rfl
        · rfl

theorem build_relocated (alike : source.LocatedAlike others) (chain : List Value)
    (operation : Value) (built : BuiltOperations) :
    { source with sources := others }.build chain operation built =
      source.build chain operation built := by
  have entry : ∀ operation, { source with sources := others }.entry operation =
      source.entry operation := fun _ => rfl
  have extension := extend_relocated alike
  fun_induction OperationSource.build source chain operation built with
  | case1 chain operation known => rw [build_eq, if_pos known]
  | case2 chain operation fresh waits => rw [build_eq, if_neg fresh, if_pos waits]
  | case3 chain operation fresh idle rooted =>
      rw [build_eq, if_neg fresh, if_neg idle, entry, rooted]
      exact extension operation .empty _
  | case4 chain operation fresh idle base given known failure runBase ih =>
      rw [build_eq, if_neg fresh, if_neg idle, entry, given]
      simp only [known, if_true, ih, runBase]
  | case5 chain operation fresh idle base given known middle runBase found hit ih =>
      rw [build_eq, if_neg fresh, if_neg idle, entry, given]
      simp only [known, if_true, ih, runBase, hit, extension, Option.elim_some]
  | case6 chain operation fresh idle base given known middle runBase missing ih =>
      rw [build_eq, if_neg fresh, if_neg idle, entry, given]
      simp only [known, if_true, ih, runBase, missing, extension, Option.elim_none]
  | case7 chain operation fresh idle base given unknown =>
      rw [build_eq, if_neg fresh, if_neg idle, entry, given]
      simp only [unknown, (alike operation).2]
      rfl

theorem buildAll_relocated (alike : source.LocatedAlike others) :
    { source with sources := others }.buildAll = source.buildAll := by
  have steps : ∀ built : BuiltOperations, ∀ operation : Value × Value,
      { source with sources := others }.build [] operation.1 built =
        source.build [] operation.1 built := fun built operation =>
    build_relocated alike [] operation.1 built
  simp only [buildAll, steps]

end OperationSource

namespace CatalogDocument

/-- The pointers that are looked up when a document is loaded and when it is linted: those of its
version and its name, of what is wrong with its shape, and of operations and their bases. -/
inductive LooksUp (document : CatalogDocument) : Text → Prop
  | version : LooksUp document ("/" ++ FormatVersion.field)
  | name : LooksUp document "/name"
  | issue {issue : ShapeIssue} (found : issue ∈ Shape.issues document.value) :
      LooksUp document issue.pointer
  | operation (operation : Value) : LooksUp document (OperationSource.pointer operation)
  | base (operation : Value) : LooksUp document (OperationSource.pointer operation ++ "/base")

variable {document : CatalogDocument} {others : Option SourceMap} {pointer : Text}

theorem LooksUp.exists_tokens (looked : document.LooksUp pointer) :
    ∃ tokens, pointer = Pointer.ofTokens tokens := by
  cases looked with
  | version => exact ⟨[FormatVersion.field], by decide⟩
  | name => exact ⟨["name"], by decide⟩
  | issue => exact ⟨_, rfl⟩
  | operation operation => exact ⟨_, OperationSource.pointer_eq operation⟩
  | base operation =>
      refine ⟨[Text.ofString "operations", operation.shown] ++ [Text.ofString "base"], ?_⟩
      rw [Pointer.ofTokens_concat, ← OperationSource.pointer_eq, Pointer.append,
        List.append_assoc]
      rfl

def withSources (document : CatalogDocument) (sources : Option SourceMap) : CatalogDocument :=
  { document with sources := sources }

theorem value_withSources : (document.withSources others).value = document.value := rfl

/-- Another source map locates all that is looked up where the document's own does. -/
def LocatedAlike (document : CatalogDocument) (others : Option SourceMap) : Prop :=
  ∀ pointer, document.LooksUp pointer →
    (document.withSources others).locate pointer = document.locate pointer

namespace LocatedAlike

variable (alike : document.LocatedAlike others)

include alike

theorem versionLocation :
    (document.withSources others).versionLocation = document.versionLocation :=
  alike _ .version

theorem shapeIssues (check : VersionCheck) :
    (document.withSources others).shapeIssues check = document.shapeIssues check := by
  have issues : ((Shape.issues document.value).map fun issue => LocatedIssue.mk issue.message
        ((document.withSources others).locate issue.pointer)) =
      (Shape.issues document.value).map fun issue =>
        ⟨issue.message, document.locate issue.pointer⟩ :=
    List.map_congr_left fun issue found => congrArg _ (alike _ (.issue found))
  unfold CatalogDocument.shapeIssues
  rw [value_withSources, issues]

theorem operationSource (entries : List (Value × Value)) :
    (document.operationSource entries).LocatedAlike others :=
  fun operation => ⟨alike _ (.operation operation), alike _ (.base operation)⟩

theorem buildAll (entries : List (Value × Value)) :
    ((document.withSources others).operationSource entries).buildAll =
      (document.operationSource entries).buildAll :=
  OperationSource.buildAll_relocated (alike.operationSource entries)

theorem load : (document.withSources others).load = document.load := by
  unfold CatalogDocument.load
  rw [value_withSources]
  cases document.value with
  | map entries =>
      simp only [alike.versionLocation, alike.shapeIssues, OperationSource.schemas, alike.buildAll]
      rfl
  | _ => rfl

theorem versionWarning? :
    (document.withSources others).versionWarning? = document.versionWarning? := by
  unfold CatalogDocument.versionWarning?
  rw [value_withSources, alike.versionLocation]

theorem linted (file : Path) : StructureLint.ofDocument (document.withSources others) file =
    StructureLint.ofDocument document file := by
  unfold StructureLint.ofDocument StructureLint.buildFindings StructureLint.nameFindings
  rw [value_withSources]
  cases document.value with
  | map entries =>
      simp only [alike.versionLocation, alike.shapeIssues, alike.buildAll, alike _ .name]
      rfl
  | _ => rfl

theorem namesLinted {catalog : Catalog} (sameFile : catalog.file = document.file) :
    NamingLint.findings catalog others = NamingLint.findings catalog document.sources := by
  unfold NamingLint.findings
  refine List.flatMap_congr fun (operation, schema) _ => ?_
  rw [sameFile]
  exact congrArg (NamingLint.operationFindings · operation schema) (alike _ (.operation operation))

end LocatedAlike

/-- The text of a map entry that is no pointer. -/
theorem notes_ne_ofTokens (tokens : List Text) : Pointer.ofTokens tokens ≠ "notes" := by
  rcases List.eq_nil_or_concat tokens with rfl | ⟨tokens, token, rfl⟩
  · decide
  · intro same
    have slashed : '/'.toNat ∈ Text.ofString "notes" := by
      rw [← show _ = Text.ofString "notes" from same, List.concat_eq_append,
        Pointer.ofTokens_concat, Pointer.append_eq]
      exact List.mem_append_right _ List.mem_cons_self
    exact absurd slashed (by decide)

end CatalogDocument

namespace SourceLocation

/-- At every pointer made of tokens the search for a position ends, with that of the longest
beginning of the tokens that has one, if any. Loading and linting look up such pointers alone: by
these they are determined, whatever else the source map holds. -/
theorem locate_ofTokens :
    (∀ (sources : SourceMap) (tokens : List Text) (file : Option Path),
      let pointer := Pointer.ofTokens tokens
      ∃ found, sources.Search pointer found ∧ sources.Nearest tokens found ∧
        locate (some sources) (some pointer) file =
          ⟨file, some pointer, found.getD ⟨none, none⟩⟩) ∧
    (∀ (document : CatalogDocument) (pointer : Text), document.LooksUp pointer →
      ∃ tokens, pointer = Pointer.ofTokens tokens) ∧
    ∀ (document : CatalogDocument) (others : Option SourceMap), document.LocatedAlike others →
      let relocated := document.withSources others
      relocated.load = document.load ∧ relocated.versionWarning? = document.versionWarning? ∧
      (∀ file, StructureLint.ofDocument relocated file =
        StructureLint.ofDocument document file) ∧
      ∀ catalog : Catalog, catalog.file = document.file →
        NamingLint.findings catalog others = NamingLint.findings catalog document.sources := by
  refine ⟨fun sources tokens file => ?_, fun document pointer looked => looked.exists_tokens,
    fun document others alike => ⟨alike.load, alike.versionWarning?, alike.linted,
      fun catalog sameFile => alike.namesLinted sameFile⟩⟩
  obtain ⟨found, search, nearest⟩ := sources.exists_search tokens
  refine ⟨found, search, nearest, ?_⟩
  rw [locate, search.position?_eq]
  cases found <;> rfl

/-- Below an operation with a slash in its name the search ends at the operation, which has only a
line; an entry that no pointer leads to is not seen. -/
theorem notes_unseen :
    let sources : SourceMap :=
      [("/operations", ⟨some 2, some 1⟩), ("/operations/a~1b", ⟨some 3, none⟩)]
    let pointer : Text := "/operations/a~1b/0"
    let document : CatalogDocument := ⟨.map [(.text "name", .text "svc")], none, none⟩
    let notes : SourceMap := [("notes", ⟨some 9, some 1⟩)]
    (∃ found, sources.Search pointer found ∧ found = some ⟨some 3, none⟩) ∧
    locate (some sources) (some pointer) none = ⟨none, some pointer, ⟨some 3, none⟩⟩ ∧
    (∃ tokens, Text.ofString "/name" = Pointer.ofTokens tokens) ∧
    document.LocatedAlike (some notes) ∧
    (document.withSources (some notes)).load = document.load := by
  intro sources pointer document notes
  obtain ⟨ends, looked, unseen⟩ := locate_ofTokens
  have alike : document.LocatedAlike (some notes) := by
    intro probe probed
    obtain ⟨tokens, rfl⟩ := looked document probe probed
    obtain ⟨found, -, nearest, located⟩ := ends notes tokens none
    refine located.trans ?_
    cases nearest with
    | unknown => rfl
    | @known beginning position begins stands =>
        have other : (Text.ofString "notes" == Pointer.ofTokens beginning) = false :=
          beq_false_of_ne (CatalogDocument.notes_ne_ofTokens beginning).symm
        simp [SourceMap.known?, notes, Entries.find?, other] at stands
  obtain ⟨found, search, -, located⟩ := ends sources ["operations", "a/b", "0"] none
  have here : Pointer.ofTokens ["operations", "a/b", "0"] = pointer := by decide
  rw [here] at search located
  have there : found = some ⟨some 3, none⟩ := search.position?_eq.symm.trans (by decide)
  rw [there] at located
  exact ⟨⟨found, search, there⟩, located, looked document _ .name, alike,
    (unseen document _ alike).1⟩

end SourceLocation

end QueryOptions
