import QueryOptions.Proofs.Locating
import QueryOptions.Proofs.Sorted

namespace QueryOptions

/-! The order of the issues of a document's shape. They come in the order of the ways to what they
are about, compared as lists of texts; that is the order in the document only where keys stand in
the order of their texts. -/

namespace Position

/-- Lines count first, then columns; what is unknown counts as the beginning. -/
def NotAfter (left right : Position) : Prop :=
  left.line.getD 0 < right.line.getD 0 ∨
    left.line.getD 0 = right.line.getD 0 ∧ left.column.getD 0 ≤ right.column.getD 0

instance (left right : Position) : Decidable (left.NotAfter right) :=
  inferInstanceAs (Decidable (_ ∨ _))

theorem NotAfter.rfl {position : Position} : position.NotAfter position :=
  .inr ⟨Eq.refl _, Int.le_refl _⟩

end Position

namespace Shape

/-- Issues never go back in the order of the ways to what they are about. -/
theorem pairwise_issues (value : Value) : (issues value).Pairwise fun left right =>
    ¬ Text.ListBefore right.tokens left.tokens := by
  unfold issues
  split
  · exact Sorting.pairwise_sort ShapeIssue.tokens (fun _ _ => Text.listLe_iff) _
  · exact List.pairwise_singleton _ _

end Shape

/-- In a text with a root every pointer made of tokens has a line and a column. -/
theorem Yaml.Node.exists_position (root : Yaml.Node) (tokens : List Text) (file : Option Path) :
    ∃ line column,
      SourceLocation.locate (some root.sourceMap) (some (Pointer.ofTokens tokens)) file =
        ⟨file, some (Pointer.ofTokens tokens), some line, some column⟩ := by
  obtain ⟨found, search, nearest⟩ := root.sourceMap.exists_search tokens
  rw [SourceLocation.locate, search.position?_eq]
  cases nearest with
  | @known beginning position begins stands =>
      obtain ⟨noted, -⟩ := Option.filter_eq_some_iff.mp stands
      rw [Yaml.Node.sourceMap, Entries.find?_ofPairs] at noted
      obtain ⟨pointer, inside, -⟩ := Entries.exists_mem_of_find? noted
      obtain ⟨-, line, column, known⟩ :=
        Yaml.Node.exists_of_mem_places (List.mem_reverse.mp inside)
      exact ⟨line, column, congrArg _ known⟩
  | unknown nowhere =>
      have rooted := nowhere [] List.nil_prefix
      rw [SourceMap.known?, show Pointer.ofTokens [] = Yaml.pointerOf [] from rfl,
        Yaml.Node.find?_sourceMap (rfl : root.at? [] = some root)] at rooted
      cases rooted

namespace CatalogDocument

variable {document : CatalogDocument} {check : VersionCheck} {issues : List LocatedIssue}

theorem issues_of_shapeIssues (checked : document.shapeIssues check = .ok issues) :
    issues = (Shape.issues document.value).map fun issue =>
      ⟨issue.message, document.locate issue.pointer⟩ := by
  unfold shapeIssues at checked
  cases layout : Layout.load check.layoutVersion with
  | error error =>
      rw [layout] at checked
      cases checked
  | ok layout' =>
      rw [layout] at checked
      exact (Except.ok.inj checked).symm

/-- The located issues stand in the order of the document just if positions agree with the order of
the ways. -/
theorem pairwise_notAfter_iff (document : CatalogDocument) :
    let position (issue : ShapeIssue) : Position := (document.locate issue.pointer).position
    (Shape.issues document.value).Pairwise (fun left right =>
        (position left).NotAfter (position right)) ↔
      ∀ left ∈ Shape.issues document.value, ∀ right ∈ Shape.issues document.value,
        Text.ListBefore left.tokens right.tokens → (position left).NotAfter (position right) := by
  intro position
  have sorted := Shape.pairwise_issues document.value
  constructor
  · intro ordered
    have self : ∀ issue ∈ Shape.issues document.value,
        Text.ListBefore issue.tokens issue.tokens → (position issue).NotAfter (position issue) :=
      fun _ _ _ => .rfl
    have ahead := ordered.imp fun {left right} notAfter
      (_ : Text.ListBefore left.tokens right.tokens) => notAfter
    have back := sorted.imp fun {left right} notBack
      (before : Text.ListBefore right.tokens left.tokens) =>
        (absurd before notBack : (position right).NotAfter (position left))
    exact fun left inLeft right inRight =>
      List.Pairwise.forall_of_forall_of_flip self ahead back inLeft inRight
  · intro agrees
    refine sorted.imp_of_mem fun {left right} inLeft inRight notBack => ?_
    by_cases before : Text.ListBefore left.tokens right.tokens
    · exact agrees left inLeft right inRight before
    · have same : left.tokens = right.tokens :=
        Std.Trichotomous.trichotomous _ _ before notBack
      have here : position left = position right := by
        simp only [position, ShapeIssue.pointer, same]
      exact here ▸ .rfl

/-- The issues of a text come in the order of the ways to what they are about, compared as texts,
and all have a line and a column; they stand in the order of the text just if, of each two issues,
the one with the earlier way is not the one that stands later. -/
theorem shapeIssues_order {text : Text} {root : Yaml.Node} {document : Yaml.Document}
    (composed : Yaml.Node.ofText? text = .ok (some root))
    (loaded : Yaml.Document.ofText text = .ok document) {file : Option Path} {check : VersionCheck}
    {issues : List LocatedIssue}
    (checked : shapeIssues ⟨document.value, some document.sources, file⟩ check = .ok issues) :
    let found := Shape.issues document.value
    let location (issue : ShapeIssue) : SourceLocation :=
      locate ⟨document.value, some document.sources, file⟩ issue.pointer
    issues = found.map (fun issue => ⟨issue.message, location issue⟩) ∧
    found.Pairwise (fun left right => ¬ Text.ListBefore right.tokens left.tokens) ∧
    (∀ issue ∈ issues, ∃ line column, issue.location.position = ⟨some line, some column⟩) ∧
    (issues.Pairwise (fun left right => left.location.position.NotAfter right.location.position) ↔
      ∀ left ∈ found, ∀ right ∈ found, Text.ListBefore left.tokens right.tokens →
        (location left).position.NotAfter (location right).position) := by
  intro found location
  have all := issues_of_shapeIssues checked
  refine ⟨all, Shape.pairwise_issues _, fun issue inside => ?_, ?_⟩
  · rw [all] at inside
    obtain ⟨issue, -, rfl⟩ := List.mem_map.mp inside
    obtain ⟨line, column, located⟩ := root.exists_position issue.tokens file
    refine ⟨line, column, congrArg SourceLocation.position (Eq.trans ?_ located)⟩
    rw [locate, (Yaml.Document.ofText_eq_ok composed loaded).1]
    rfl
  · rw [all, List.pairwise_map]
    exact pairwise_notAfter_iff _

/-- Two operations that are no lists of options, declared against the order of their names. -/
def ownerLast : Text :=
  "option_grammar_format: 1.0.0\nname: svc\noperations:\n  Search: 3\n  Owner: 4\n"

theorem ownerLast_checked : ∃ root document entries issues,
    Yaml.Node.ofText? ownerLast = .ok (some root) ∧
    Yaml.Document.ofText ownerLast = .ok document ∧ document.value = .map entries ∧
    shapeIssues ⟨document.value, some document.sources, none⟩ (checkVersion entries) = .ok issues ∧
    issues.map (·.location.position) = [⟨some 5, some 10⟩, ⟨some 4, some 11⟩] := by
  have rooted : (Yaml.Node.ofText? ownerLast).toOption.any Option.isSome = true := by
    decide +kernel
  have passed : ((Yaml.Document.ofText ownerLast).toOption.any fun document =>
      (document.value.at? [.key "operations"]).isSome &&
        (shapeIssues ⟨document.value, some document.sources, none⟩ (.ofValue
          ((document.value.at? [.key FormatVersion.field]).getD .null))).toOption.any fun issues =>
            issues.map (·.location.position) = [⟨some 5, some 10⟩, ⟨some 4, some 11⟩]) = true := by
    decide +kernel
  obtain ⟨found, composed, exists_root⟩ := exists_ok_of_any rooted
  obtain ⟨root, rfl⟩ := Option.isSome_iff_exists.mp exists_root
  obtain ⟨document, loaded, both⟩ := exists_ok_of_any passed
  obtain ⟨inside, told⟩ := (Bool.and_eq_true _ _).mp both
  obtain ⟨issues, checked, positions⟩ := exists_ok_of_any told
  cases mapping : document.value with
  | map entries =>
      have version : .ofValue ((document.value.at? [.key FormatVersion.field]).getD .null) =
          checkVersion entries := by
        rw [mapping, Value.at?_key]
        exact congrArg (fun found => VersionCheck.ofValue (found.getD .null))
          (Option.bind_fun_some _)
      rw [version] at checked
      exact ⟨root, document, entries, issues, composed, loaded, mapping, checked,
        of_decide_eq_true positions⟩
  | _ =>
      rw [mapping] at inside
      cases inside

/-- The two issues come in the order of the names, and each has its line and column. -/
theorem ownerLast_sorted : ∃ root document entries issues,
    Yaml.Node.ofText? ownerLast = .ok (some root) ∧
    Yaml.Document.ofText ownerLast = .ok document ∧
    shapeIssues ⟨document.value, some document.sources, none⟩ (checkVersion entries) = .ok issues ∧
    issues.length = 2 ∧
    (Shape.issues document.value).Pairwise (fun left right =>
      ¬ Text.ListBefore right.tokens left.tokens) ∧
    ∀ issue ∈ issues, ∃ line column, issue.location.position = ⟨some line, some column⟩ := by
  obtain ⟨root, document, entries, issues, composed, loaded, -, checked, positions⟩ :=
    ownerLast_checked
  obtain ⟨-, sorted, known, -⟩ := shapeIssues_order composed loaded checked
  have two := congrArg List.length positions
  rw [List.length_map] at two
  exact ⟨root, document, entries, issues, composed, loaded, checked, two, sorted, known⟩

/-- The issue of the second operation comes first. -/
theorem ownerLast_unordered : ∃ root document entries issues,
    Yaml.Node.ofText? ownerLast = .ok (some root) ∧
    Yaml.Document.ofText ownerLast = .ok document ∧ document.value = .map entries ∧
    shapeIssues ⟨document.value, some document.sources, none⟩ (checkVersion entries) = .ok issues ∧
    ¬ issues.Pairwise fun left right =>
      left.location.position.NotAfter right.location.position := by
  obtain ⟨root, document, entries, issues, composed, loaded, mapping, checked, positions⟩ :=
    ownerLast_checked
  refine ⟨root, document, entries, issues, composed, loaded, mapping, checked, fun ordered => ?_⟩
  rw [← List.pairwise_map (f := fun issue : LocatedIssue => issue.location.position),
    positions] at ordered
  exact absurd ordered (by decide)

end CatalogDocument

end QueryOptions
