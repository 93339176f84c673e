import QueryOptions.Proofs.Violation

namespace QueryOptions

/-! The check of a request reports the first violation. -/

/-! The loops of the check as checks of numbered items. -/

theorem validateElements_eq_forM (check : Value → Text → Except OptionError Unit) (context : Text)
    (start : Nat) (elements : List Value) :
    validateElements check context (start + 1) elements = (elements.zipIdx start).forM
      fun (element, index) => check element (memberContext (index + 1) context) := by
  induction elements generalizing start with
  | nil => rfl
  | cons element rest ih =>
      rw [validateElements, ih, List.zipIdx_cons]
      rfl

/-- The key of an entry has to name a member, whose check the value has to pass. -/
def checkEntry (unknown : Text → OptionError) (context : Text → Text) (members : List Node) :
    (Value × Value) × Nat → Except OptionError Unit
  | ((key, value), _) =>
      match findBinding? key.shown members with
      | none => .error (unknown key.shown)
      | some member => member.validate value (context key.shown)

def checkMissing (missing : Text → OptionError) (members : List Node)
    (entries : List (Value × Value)) : Except OptionError Unit :=
  match findMissing? members entries with
  | some member => .error (missing member.binding)
  | none => .ok ()

theorem validateEntries_eq_forM (members : List Node) (context : Text) (start : Nat)
    (entries : List (Value × Value)) :
    validateEntries (Node.validateMember? members) context entries = (entries.zipIdx start).forM
      (checkEntry (OptionError.unexpectedKey · context) (keyContext · context) members) := by
  induction entries generalizing start with
  | nil => rfl
  | cons entry rest ih =>
      obtain ⟨key, value⟩ := entry
      rw [validateEntries, Node.validateMember?_eq_map, List.zipIdx_cons, ih (start + 1)]
      cases found : findBinding? key.shown members with
      | none => simp [checkEntry, found, bind, Except.bind]
      | some member => simp [checkEntry, found]

theorem supplied_eq_forM (schema : Schema) (start : Nat) (entries : List (Value × Value)) :
    Schema.validate.supplied schema entries = (entries.zipIdx start).forM
      (checkEntry (fun name => .unexpectedOption (.text name)) (fun _ => []) schema.options) := by
  induction entries generalizing start with
  | nil => rfl
  | cons entry rest ih =>
      obtain ⟨key, value⟩ := entry
      rw [Schema.validate.supplied, List.zipIdx_cons, ih (start + 1), Schema.option?]
      cases found : findBinding? key.shown schema.options with
      | none => simp [checkEntry, found, bind, Except.bind]
      | some member => simp [checkEntry, found]

namespace Node

variable {heading : Heading} {members : List Node} {entries : List (Value × Value)}

theorem violates_scalar {leaf : LeafType} {value : Value} {violation : Violation} :
    (Node.scalar heading leaf).Violates value violation ↔
      leaf.accepts value = false ∧ violation = ⟨[], .shape leaf.expectation⟩ := by
  rw [violates_iff]
  constructor
  · intro parts
    rcases parts with ⟨_, ⟨refused⟩, same⟩ | ⟨_, member, _⟩
    · exact ⟨refused, same⟩
    · simp [children] at member
  · intro shape
    obtain ⟨refused, same⟩ := shape
    exact .inl ⟨_, .scalar refused, same⟩

theorem violates_list_of_none {member : Node} {join : ListJoin} {value : Value}
    {violation : Violation} (shape : value.elements? = none) :
    (Node.list heading member join).Violates value violation ↔
      violation = ⟨[], .shape .enumerable⟩ := by
  rw [violates_iff]
  constructor
  · intro parts
    rcases parts with ⟨_, ⟨_⟩, same⟩ | ⟨_, first, _⟩
    · exact same
    · simp [children, shape] at first
  · intro same
    exact .inl ⟨_, .list (by simp [Value.isEnumerable, shape]), same⟩

theorem violates_list_of_some {member : Node} {join : ListJoin} {value : Value}
    {elements : List Value} {violation : Violation} (shape : value.elements? = some elements) :
    (Node.list heading member join).Violates value violation ↔
      ∃ item ∈ elements.zipIdx, ∃ lower, member.Violates item.1 lower ∧
        violation = lower.under (.element item.2 join) := by
  rw [violates_iff]
  constructor
  · intro parts
    rcases parts with ⟨_, broken, _⟩ | ⟨_, first, lower, broken, same⟩
    · cases broken with
      | list refused => simp [Value.isEnumerable, shape] at refused
    · obtain ⟨index, element, at_, rfl⟩ := (mem_children_list shape).mp first
      exact ⟨(element, index), List.mem_zipIdx_iff_getElem?.mpr at_, lower, broken, same⟩
  · intro inElement
    obtain ⟨⟨element, index⟩, at_, lower, broken, same⟩ := inElement
    have first : ⟨.element index join, member, element⟩ ∈
        (Node.list heading member join).children value :=
      (mem_children_list shape).mpr ⟨index, element, List.mem_zipIdx_iff_getElem?.mp at_, rfl⟩
    exact .inr ⟨_, first, lower, broken, same⟩

/-- The violations at or below one entry of a mapping. -/
def EntryViolates (members : List Node) : (Value × Value) × Nat → Violation → Prop
  | ((key, value), index), violation =>
      match findBinding? key.shown members with
      | none => violation = ⟨[], .unknown index key.shown⟩
      | some member => ∃ lower, member.Violates value lower ∧
          violation = lower.under (.entry index key.shown member.wire)

theorem exists_entryViolates {entry : Value × Value} {index : Nat} :
    (∃ violation, EntryViolates members (entry, index) violation) ↔
      (∃ member, findBinding? entry.1.shown members = some member ∧
        ∃ violation, member.Violates entry.2 violation) ∨
      ∀ member ∈ members, member.binding ≠ entry.1.shown := by
  rw [← findBinding?_eq_none_iff]
  obtain ⟨key, value⟩ := entry
  cases found : findBinding? key.shown members with
  | none => simp [EntryViolates, found]
  | some member =>
      simp only [EntryViolates, found]
      constructor
      · intro broken
        obtain ⟨_, lower, inside, -⟩ := broken
        exact .inl ⟨member, rfl, lower, inside⟩
      · intro wrong
        rcases wrong with ⟨_, same, lower, inside⟩ | none
        · cases same
          exact ⟨_, lower, inside, rfl⟩
        · contradiction

def MissingViolates (members : List Node) (entries : List (Value × Value))
    (violation : Violation) : Prop :=
  ∃ index member, members[index]? = some member ∧ member.required = true ∧
    (∀ entry ∈ entries, entry.1.shown ≠ member.binding) ∧
    violation = ⟨[], .missing index member.binding⟩

theorem violates_mapping {violation : Violation} :
    (Node.structure heading members).Violates (.map entries) violation ↔
      (∃ item ∈ entries.zipIdx, EntryViolates members item violation) ∨
        MissingViolates members entries violation := by
  rw [violates_iff]
  constructor
  · intro parts
    rcases parts with ⟨_, broken, same⟩ | ⟨_, first, lower, broken, same⟩
    · cases broken with
      | mapping refused => exact absurd rfl (refused entries)
      | @unknown _ _ _ index key value supplied strange =>
          refine .inl ⟨((key, value), index), List.mem_zipIdx_iff_getElem?.mpr supplied, ?_⟩
          simpa only [EntryViolates, findBinding?_eq_none_iff.mpr strange] using same
      | missing declared required absent => exact .inr ⟨_, _, declared, required, absent, same⟩
    · obtain ⟨index, key, value, member, supplied, found, rfl⟩ := mem_children_structure.mp first
      refine .inl ⟨((key, value), index), List.mem_zipIdx_iff_getElem?.mpr supplied, ?_⟩
      simp only [EntryViolates, found]
      exact ⟨lower, broken, same⟩
  · intro wrong
    rcases wrong with
      ⟨⟨⟨key, value⟩, index⟩, at_, broken⟩ | ⟨index, member, declared, required, absent, same⟩
    · have supplied := List.mem_zipIdx_iff_getElem?.mp at_
      cases found : findBinding? key.shown members with
      | none =>
          simp only [EntryViolates, found] at broken
          exact .inl ⟨_, .unknown supplied (findBinding?_eq_none_iff.mp found), broken⟩
      | some member =>
          simp only [EntryViolates, found] at broken
          obtain ⟨lower, broken, same⟩ := broken
          exact .inr ⟨_, mem_children_structure.mpr ⟨index, key, value, member, supplied, found, rfl⟩,
            lower, broken, same⟩
    · exact .inl ⟨_, .missing declared required absent, same⟩

theorem violates_other {value : Value} {violation : Violation}
    (shape : ∀ entries, value ≠ .map entries) :
    (Node.structure heading members).Violates value violation ↔
      violation = ⟨[], .shape .hash⟩ := by
  rw [violates_iff]
  constructor
  · intro parts
    rcases parts with ⟨_, broken, same⟩ | ⟨_, first, _⟩
    · cases broken with
      | mapping => exact same
      | unknown => exact absurd rfl (shape _)
      | missing => exact absurd rfl (shape _)
    · cases value with
      | map entries => exact absurd rfl (shape entries)
      | _ => simp [children] at first
  · intro same
    exact .inl ⟨_, .mapping shape, same⟩

/-- Something in a mapping is wrong if a value does not match its member, if a key names no member or
if a required member is absent. -/
theorem exists_violates_mapping :
    (∃ violation, (Node.structure heading members).Violates (.map entries) violation) ↔
      (∃ entry ∈ entries, ∃ member, findBinding? entry.1.shown members = some member ∧
        ∃ violation, member.Violates entry.2 violation) ∨
      (∃ entry ∈ entries, ∀ member ∈ members, member.binding ≠ entry.1.shown) ∨
      (∃ member ∈ members, member.required = true ∧
        ∀ entry ∈ entries, entry.1.shown ≠ member.binding) := by
  simp only [violates_mapping]
  constructor
  · intro wrong
    obtain ⟨violation, ⟨⟨entry, index⟩, at_, broken⟩ | missing⟩ := wrong
    · have supplied := List.mem_of_getElem? (List.mem_zipIdx_iff_getElem?.mp at_)
      rcases exists_entryViolates.mp ⟨violation, broken⟩ with inside | strange
      · exact .inl ⟨entry, supplied, inside⟩
      · exact .inr (.inl ⟨entry, supplied, strange⟩)
    · obtain ⟨_, member, declared, required, absent, -⟩ := missing
      exact .inr (.inr ⟨member, List.mem_of_getElem? declared, required, absent⟩)
  · have broken {entry : Value × Value} (supplied : entry ∈ entries)
        (wrong : ∀ index, ∃ violation, EntryViolates members (entry, index) violation) :
        ∃ violation, ∃ item ∈ entries.zipIdx, EntryViolates members item violation := by
      obtain ⟨index, at_⟩ := List.mem_iff_getElem?.mp supplied
      obtain ⟨violation, broken⟩ := wrong index
      exact ⟨violation, (entry, index), List.mem_zipIdx_iff_getElem?.mpr at_, broken⟩
    intro wrong
    rcases wrong with ⟨entry, supplied, inside⟩ | ⟨entry, supplied, strange⟩ |
      ⟨member, declared, required, absent⟩
    · obtain ⟨violation, found⟩ := broken supplied fun _ => exists_entryViolates.mpr (.inl inside)
      exact ⟨violation, .inl found⟩
    · obtain ⟨violation, found⟩ := broken supplied fun _ => exists_entryViolates.mpr (.inr strange)
      exact ⟨violation, .inl found⟩
    · obtain ⟨index, at_⟩ := List.mem_iff_getElem?.mp declared
      exact ⟨_, .inr ⟨index, member, at_, required, absent, rfl⟩⟩

/-- How a violation below a node is told, where the node stands in an outer context. -/
def errorWithin (node : Node) (outer : Text) (violation : Violation) : OptionError :=
  violation.breach.error (violation.way.contextIn (node.contextOr outer))

theorem contextOr_of_ne_nil (node : Node) {outer : Text} (inside : outer ≠ []) :
    node.contextOr outer = outer := by
  simp [contextOr, inside]

theorem errorWithin_under (node child : Node) (outer : Text) (step : Step) (lower : Violation) :
    node.errorWithin outer (lower.under step) =
      child.errorWithin (step.within (node.contextOr outer)) lower := by
  simp only [errorWithin, Violation.under, Way.contextIn_cons,
    child.contextOr_of_ne_nil (step.within_ne_nil _)]

variable {error : Violation → OptionError} {unknown missing : Text → OptionError}
  {context : Text → Text}

theorem checkMissing_reportsFirst
    (told : ∀ index name, error ⟨[], .missing index name⟩ = missing name) :
    ReportsFirst error (MissingViolates members entries) (checkMissing missing members entries) := by
  unfold checkMissing
  cases found : findMissing? members entries with
  | none =>
      refine .quiet ?_
      intro violation missing
      obtain ⟨index, member, declared, required, absent, -⟩ := missing
      have present := List.find?_eq_none.mp found member (List.mem_of_getElem? declared)
      simp only [required, Bool.true_and, Bool.not_eq_true', Bool.not_eq_false,
        List.any_eq_true, beq_iff_eq] at present
      obtain ⟨entry, supplied, same⟩ := present
      exact absent entry supplied same
  | some member =>
      obtain ⟨holds, index, bound, at_, earlier⟩ := List.find?_eq_some_iff_getElem.mp found
      change ReportsFirst error _ (.error (missing member.binding))
      rw [← told index]
      refine .first ⟨[], .missing index member.binding⟩ ⟨⟨index, member, ?_, ?_⟩, ?_⟩
      · rw [List.getElem?_eq_getElem bound, at_]
      · simpa using holds
      · intro violation missing
        obtain ⟨other, missed, declared, required, absent, rfl⟩ := missing
        -- An absent member before the one found would have been found instead.
        rcases Nat.lt_trichotomy other index with less | rfl | more
        · have passed := earlier other less
          rw [(List.getElem?_eq_some_iff.mp declared).2] at passed
          simp [required] at passed
          obtain ⟨key, ⟨value, supplied⟩, same⟩ := passed
          exact absurd same (absent (key, value) supplied)
        · have same : missed = member := by
            rw [← at_]
            exact (List.getElem?_eq_some_iff.mp declared).2.symm
          exact .inl (by rw [same])
        · exact .inr (.rel (.absents more))

theorem checkEntry_reportsFirst {item : (Value × Value) × Nat}
    (inside : ∀ member ∈ members, ∀ value outer,
      ReportsFirst (member.errorWithin outer) (member.Violates value) (member.validate value outer))
    (told : ∀ index name, error ⟨[], .unknown index name⟩ = unknown name)
    (lowered : ∀ (member : Node) (index : Nat) (lower : Violation),
      error (lower.under (.entry index member.binding member.wire)) =
        member.errorWithin (context member.binding) lower) :
    ReportsFirst error (EntryViolates members item) (checkEntry unknown context members item) := by
  obtain ⟨⟨key, value⟩, index⟩ := item
  cases found : findBinding? key.shown members with
  | none =>
      have check : checkEntry unknown context members ((key, value), index) =
          .error (error ⟨[], .unknown index key.shown⟩) := by
        simp only [checkEntry, found, told]
      rw [check]
      exact (ReportsFirst.single _).congr fun violation => by simp only [EntryViolates, found]
  | some member =>
      have check : checkEntry unknown context members ((key, value), index) =
          member.validate value (context key.shown) := by
        simp only [checkEntry, found]
      have reports := inside member (mem_of_findBinding? found) value (context key.shown)
      rw [check]
      refine (reports.under (.entry index key.shown member.wire) fun lower => ?_).congr
        fun violation => by simp only [EntryViolates, found]
      rw [← binding_of_findBinding? found]
      exact lowered member index lower

theorem EntryViolates.site_eq {item : (Value × Value) × Nat} {violation : Violation}
    (broken : EntryViolates members item violation) :
    ∃ rest, violation.site = .item item.2 :: rest := by
  obtain ⟨⟨key, value⟩, index⟩ := item
  cases found : findBinding? key.shown members with
  | none =>
      simp only [EntryViolates, found] at broken
      exact ⟨[], by rw [broken]; rfl⟩
  | some member =>
      simp only [EntryViolates, found] at broken
      obtain ⟨lower, -, rfl⟩ := broken
      exact ⟨lower.site, rfl⟩

/-- A mapping is checked entry by entry, and after that for absent members. -/
theorem checkMapping_reportsFirst
    (inside : ∀ member ∈ members, ∀ value outer,
      ReportsFirst (member.errorWithin outer) (member.Violates value) (member.validate value outer))
    (unknownTold : ∀ index name, error ⟨[], .unknown index name⟩ = unknown name)
    (missingTold : ∀ index name, error ⟨[], .missing index name⟩ = missing name)
    (lowered : ∀ (member : Node) (index : Nat) (lower : Violation),
      error (lower.under (.entry index member.binding member.wire)) =
        member.errorWithin (context member.binding) lower) :
    ReportsFirst error ((Node.structure heading members).Violates (.map entries))
      (entries.zipIdx.forM (checkEntry unknown context members) >>=
        fun _ => checkMissing missing members entries) := by
  have ordered : entries.zipIdx.Pairwise fun left right => ∀ before after,
      EntryViolates members left before → EntryViolates members right after →
        before.site.Before after.site := by
    refine (pairwise_zipIdx entries 0).imp fun less before after first second => ?_
    obtain ⟨_, beforeSite⟩ := first.site_eq
    obtain ⟨_, afterSite⟩ := second.site_eq
    rw [beforeSite, afterSite]
    exact .rel (.items less)
  have entriesReport : ReportsFirst error
      (fun violation => ∃ item ∈ entries.zipIdx, EntryViolates members item violation)
      (entries.zipIdx.forM (checkEntry unknown context members)) :=
    .forM (fun item _ => checkEntry_reportsFirst inside unknownTold lowered) ordered
  refine (entriesReport.andThen (checkMissing_reportsFirst missingTold) ?_).congr
    fun violation => violates_mapping
  intro before after inEntry missing
  obtain ⟨item, -, broken⟩ := inEntry
  obtain ⟨_, _, -, -, -, rfl⟩ := missing
  obtain ⟨_, beforeSite⟩ := broken.site_eq
  rw [beforeSite]
  exact .rel .mixed

theorem validate_mapping (outer : Text) :
    (Node.structure heading members).validate (.map entries) outer =
      (entries.zipIdx.forM (checkEntry
        (OptionError.unexpectedKey · ((Node.structure heading members).contextOr outer))
        (keyContext · ((Node.structure heading members).contextOr outer)) members) >>=
      fun _ => checkMissing
        (OptionError.missingKey · ((Node.structure heading members).contextOr outer))
        members entries) := by
  rw [validate, validateEntries_eq_forM members _ 0]
  rfl

theorem validate_other {value : Value} (shape : ∀ entries, value ≠ .map entries) (outer : Text) :
    (Node.structure heading members).validate value outer =
      .error (.format .hash ((Node.structure heading members).contextOr outer)) := by
  rw [validate]
  exact shape

theorem errorWithin_shape (node : Node) (outer : Text) (expectation : Expectation) :
    node.errorWithin outer ⟨[], .shape expectation⟩ =
      .format expectation (node.contextOr outer) := by
  simp only [errorWithin, Breach.error, Way.contextIn_nil]

theorem validate_reportsFirst (node : Node) (value : Value) (outer : Text) :
    ReportsFirst (node.errorWithin outer) (node.Violates value) (node.validate value outer) := by
  induction node generalizing value outer with
  | scalar heading leaf =>
      rw [validate, LeafType.validate]
      by_cases accepted : leaf.accepts value = true
      · rw [if_pos accepted]
        exact .quiet fun violation => by simp [violates_scalar, accepted]
      · rw [if_neg accepted, ← errorWithin_shape]
        exact (ReportsFirst.single _).congr fun violation => by simp [violates_scalar, accepted]
  | list heading member join ih =>
      rw [validate]
      cases shape : value.elements? with
      | none =>
          simp only
          rw [← errorWithin_shape]
          exact (ReportsFirst.single _).congr fun violation => violates_list_of_none shape
      | some elements =>
          simp only
          rw [validateElements_eq_forM _ _ 0]
          refine (ReportsFirst.forM (fun item _ => ?_) ?_).congr
            fun violation => violates_list_of_some shape
          · refine (ih item.1 _).under (.element item.2 join) fun lower => ?_
            exact errorWithin_under _ member outer _ lower
          · refine (pairwise_zipIdx elements 0).imp ?_
            intro left right less before after inLeft inRight
            obtain ⟨_, -, rfl⟩ := inLeft
            obtain ⟨_, -, rfl⟩ := inRight
            exact .rel (.items less)
  | members heading nodes ih =>
      by_cases shape : ∃ entries, value = .map entries
      · obtain ⟨entries, rfl⟩ := shape
        rw [validate_mapping]
        refine checkMapping_reportsFirst ih (fun index name => ?_) (fun index name => ?_)
          fun member index lower => ?_
        · simp only [errorWithin, Breach.error, Way.contextIn_nil]
        · simp only [errorWithin, Breach.error, Way.contextIn_nil]
        · exact errorWithin_under _ member outer _ lower
      · have other : ∀ entries, value ≠ .map entries := fun entries same => shape ⟨entries, same⟩
        rw [validate_other other, ← errorWithin_shape]
        exact (ReportsFirst.single _).congr fun violation => violates_other other

end Node

namespace Schema

theorem validate_reportsFirst (schema : Schema) (options : Value) :
    ReportsFirst Violation.error (schema.root.Violates options) (schema.validate options) := by
  by_cases shape : ∃ entries, options = .map entries
  · obtain ⟨entries, rfl⟩ := shape
    have steps : schema.validate (.map entries) =
        (entries.zipIdx.forM (checkEntry (fun name => .unexpectedOption (.text name)) (fun _ => [])
          schema.options) >>=
        fun _ => checkMissing .missingOption schema.options entries) := by
      rw [validate, supplied_eq_forM schema 0]
      rfl
    rw [steps]
    refine Node.checkMapping_reportsFirst (fun member _ => member.validate_reportsFirst)
      (fun index name => rfl) (fun index name => rfl) fun member index lower => ?_
    rfl
  · have other : ∀ entries, options ≠ .map entries := fun entries same => shape ⟨entries, same⟩
    have refused : schema.validate options = .error (Violation.error ⟨[], .shape .hash⟩) := by
      cases options <;> first | rfl | exact absurd rfl (other _)
    rw [refused]
    exact (ReportsFirst.single _).congr fun violation => Node.violates_other other

theorem exists_violation_iff (schema : Schema) (entries : List (Value × Value)) :
    (∃ violation, schema.root.Violates (.map entries) violation) ↔
      (∃ entry ∈ entries, ∃ option, schema.option? entry.1.shown = some option ∧
        ∃ violation, option.Violates entry.2 violation) ∨
      (∃ entry ∈ entries, ∀ option ∈ schema.options, option.binding ≠ entry.1.shown) ∨
      (∃ option ∈ schema.options, option.required = true ∧
        ∀ entry ∈ entries, entry.1.shown ≠ option.binding) := Node.exists_violates_mapping

/-- The check of a request fails if and only if something in the options is wrong, and its error is
the one of the first violation. -/
theorem validate_fails_with_first (schema : Schema) (entries : List (Value × Value)) :
    ((∃ error, schema.validate (.map entries) = .error error) ↔
      (∃ entry ∈ entries, ∃ option, schema.option? entry.1.shown = some option ∧
        ∃ violation, option.Violates entry.2 violation) ∨
      (∃ entry ∈ entries, ∀ option ∈ schema.options, option.binding ≠ entry.1.shown) ∨
      (∃ option ∈ schema.options, option.required = true ∧
        ∀ entry ∈ entries, entry.1.shown ≠ option.binding)) ∧
    ∀ error, schema.validate (.map entries) = .error error ↔
      ∃ first, IsFirst (schema.root.Violates (.map entries)) first ∧ first.error = error := by
  have reports := schema.validate_reportsFirst (.map entries)
  refine ⟨?_, reports.error_iff⟩
  rw [← exists_violation_iff]
  cases checked : schema.validate (.map entries) with
  | ok => simpa using reports.ok_iff.mp checked
  | error error =>
      obtain ⟨first, least, -⟩ := (reports.error_iff error).mp checked
      exact ⟨fun _ => ⟨first, least.1⟩, fun _ => ⟨error, rfl⟩⟩

/-- The second tag is no text, which comes before the key that no option has. -/
example : (⟨[.list ⟨.plain "Tag", "tag", true⟩ Node.listMember .flat]⟩ : Schema).validate
    (.map [(.text "tag", .list [.text "a", .int 7]), (.text "other", .null)]) =
      .error (.format .string "member 2 of option tag") := rfl

end Schema

end QueryOptions
