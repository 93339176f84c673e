import QueryOptions.Proofs.Declaring
import QueryOptions.Proofs.Reachable

namespace QueryOptions

/-! What a configuration is read as. Reading comes before anything is applied and knows nothing of
the schema that is extended, save for the names that stand in its errors: of a name that is spelled
as it is they are the name itself. Hence whether a configuration is accepted, and what is said if
not, depends on the configuration alone. -/

namespace Descriptor

variable {owner other : Text}

theorem toOption_checkArgument (kind : DescriptorKind) (owner other : Text) (argument : Value) :
    (kind.checkArgument owner argument).toOption = (kind.checkArgument other argument).toOption := by
  unfold DescriptorKind.checkArgument
  split <;> rfl

theorem toOption_assemble {name argument : Value}
    {block otherBlock : Unit → Except SchemaError (List Descriptor)}
    {members otherMembers : Unit → Except SchemaError (List (Text × List Descriptor))}
    (sameBlock : (block ()).toOption = (otherBlock ()).toOption)
    (sameMembers : (members ()).toOption = (otherMembers ()).toOption) :
    (assemble owner name argument block members).toOption =
      (assemble other name argument otherBlock otherMembers).toOption := by
  unfold assemble
  simp only [toOption_bind]
  refine congrArg _ (funext fun kind => ?_)
  rw [toOption_checkArgument kind owner other]
  refine congrArg _ (funext fun _ => ?_)
  cases kind with
  | list join => simp only [toOption_bind, sameBlock]
  | «structure» => simp only [toOption_bind, sameMembers]
  | _ => rfl

theorem toOption_bare (value : Value) :
    (bare owner value).toOption = (bare other value).toOption := by
  unfold bare
  split
  · rfl
  · exact toOption_assemble rfl rfl

theorem toOption_readMembers (value : Value) :
    (readMembers owner value).toOption = (readMembers other value).toOption := by
  have checked : ∀ items, (checkMemberEntries owner items).toOption =
      (checkMemberEntries other items).toOption := by
    intro items
    unfold checkMemberEntries
    split <;> rfl
  cases value <;> simp only [readMembers, toOption_bind, checked] <;> rfl

mutual

theorem toOption_readBlock (owner other inner otherInner : Text) :
    ∀ value, (readBlock owner inner value).toOption = (readBlock other otherInner value).toOption
  | .list items => toOption_readAll inner otherInner items
  | .tuple items => toOption_readAll inner otherInner items
  | .map [(name, argument)] => by
      simp only [readBlock, toOption_bind]
      refine congrArg (Option.bind · _) (toOption_assemble ?_ (toOption_readMembers argument))
      exact toOption_readBlock inner otherInner Node.listMemberName Node.listMemberName argument
  | .text content => by
      simp only [readBlock, toOption_bind]
      exact congrArg (Option.bind · _) (toOption_bare _)
  | .kind named => by
      simp only [readBlock, toOption_bind]
      exact congrArg (Option.bind · _) (toOption_bare _)
  | .null | .map [] | .map (_ :: _ :: _) | .bool _ | .int _ | .float _ | .decimal _
  | .fraction _ _ | .bytes _ _ | .set _ _ | .range _ _ _ | .once _ | .date _ | .moment _ => rfl

theorem toOption_read (owner other : Text) :
    ∀ value, (read owner value).toOption = (read other value).toOption
  | .map [(name, argument)] => by
      simp only [read]
      refine toOption_assemble ?_ (toOption_readMembers argument)
      exact toOption_readBlock owner other Node.listMemberName Node.listMemberName argument
  | .null | .map [] | .map (_ :: _ :: _) | .bool _ | .int _ | .float _ | .decimal _
  | .fraction _ _ | .text _ | .kind _ | .bytes _ _ | .list _ | .tuple _ | .set _ _ | .range _ _ _
  | .once _ | .date _ | .moment _ => by
      simp only [read]
      exact toOption_bare _

theorem toOption_readAll (owner other : Text) :
    ∀ declared, (readAll owner declared).toOption = (readAll other declared).toOption
  | [] => rfl
  | given :: rest => by
      rw [readAll_cons, readAll_cons, toOption_bind, toOption_bind, toOption_read owner other given]
      simp only [toOption_bind, toOption_readAll owner other rest]

end

end Descriptor

namespace Declaration

/-- The name of a declaration and its descriptors, read. -/
def readBlock (declaration : Declaration) : Except SchemaError NamedBlock :=
  (Descriptor.readAll declaration.name.spelling declaration.descriptors).map
    fun block => (declaration.name, block)

/-- All that a configuration declares, read. -/
def readConfiguration (configuration : Value) : Except SchemaError (List NamedBlock) := do
  (← ofConfiguration configuration).mapM readBlock

theorem readConfiguration_append_iff {first second : List Value}
    {declared : List NamedBlock} : readConfiguration (.list (first ++ second)) = .ok declared ↔
      ∃ start rest, readConfiguration (.list first) = .ok start ∧
        readConfiguration (.list second) = .ok rest ∧ declared = start ++ rest := by
  have read : ∀ items, readConfiguration (.list items) =
      items.mapM ofValue >>= fun declarations => declarations.mapM readBlock := fun _ => rfl
  simp only [read]
  constructor
  · intro joined
    obtain ⟨declarations, named, blocks⟩ := ok_of_bind joined
    obtain ⟨start, rest, namedStart, namedRest, rfl⟩ := mapM_append_eq_ok_iff.mp named
    obtain ⟨startBlocks, restBlocks, readStart, readRest, rfl⟩ := mapM_append_eq_ok_iff.mp blocks
    exact ⟨startBlocks, restBlocks, by rw [namedStart]; exact readStart,
      by rw [namedRest]; exact readRest, rfl⟩
  · rintro ⟨startBlocks, restBlocks, start, rest, rfl⟩
    obtain ⟨declarations, named, blocks⟩ := ok_of_bind start
    obtain ⟨others, namedOthers, otherBlocks⟩ := ok_of_bind rest
    have joined := mapM_append_eq_ok_iff.mpr ⟨declarations, others, named, namedOthers, rfl⟩
    rw [joined]
    exact mapM_append_eq_ok_iff.mpr ⟨startBlocks, restBlocks, blocks, otherBlocks, rfl⟩

end Declaration

namespace Schema

variable {base schema : Schema} {configuration : Value}

theorem toOption_declare (schema : Schema) (declaration : Declaration) :
    (schema.declare declaration).toOption = declaration.readBlock.toOption.map
      fun named => ⟨declareIn schema.options named⟩ := by
  simp only [declare, Node.extendDeclared, Declaration.readBlock, toOption_bind, toOption_map]
  rw [Descriptor.toOption_readAll _ declaration.name.spelling]
  cases (Descriptor.readAll declaration.name.spelling declaration.descriptors).toOption <;> rfl

theorem foldl_declareIn (schema : Schema) (declared : List NamedBlock) :
    declared.foldl (fun schema named => ⟨declareIn schema.options named⟩) schema =
      (⟨declareAll schema.options declared⟩ : Schema) := by
  induction declared generalizing schema with
  | nil => rfl
  | cons named rest ih => exact ih _

theorem customize_eq_ok_iff : base.customize configuration = .ok schema ↔
    ∃ declared, Declaration.readConfiguration configuration = .ok declared ∧
      schema = ⟨declareAll base.options declared⟩ := by
  have apart : (base.customize configuration).toOption =
      (Declaration.readConfiguration configuration).toOption.map
        fun declared => ⟨declareAll base.options declared⟩ := by
    simp only [customize, Declaration.readConfiguration, toOption_bind,
      toOption_foldlM _ base toOption_declare, foldl_declareIn]
    cases (Declaration.ofConfiguration configuration).toOption <;> rfl
  rw [← toOption_eq_some_iff, apart, Option.map_eq_some_iff]
  refine exists_congr fun declared => ?_
  rw [toOption_eq_some_iff]
  exact and_congr_right fun _ => eq_comm

theorem customize_accepts_iff : (∃ schema, base.customize configuration = .ok schema) ↔
    ∃ declared, Declaration.readConfiguration configuration = .ok declared := by
  simp only [customize_eq_ok_iff]
  constructor
  · rintro ⟨schema, declared, read, made⟩
    exact ⟨declared, read⟩
  · rintro ⟨declared, read⟩
    exact ⟨_, declared, read, rfl⟩

/-- Lists of declarations may be taken in at once or one list after the other. -/
theorem customize_append_iff {first second : List Value} :
    base.customize (.list (first ++ second)) = .ok schema ↔
      ∃ middle, base.customize (.list first) = .ok middle ∧
        middle.customize (.list second) = .ok schema := by
  simp only [customize_eq_ok_iff, Declaration.readConfiguration_append_iff]
  constructor
  · rintro ⟨_, ⟨start, rest, readStart, readRest, rfl⟩, rfl⟩
    exact ⟨_, ⟨start, readStart, rfl⟩, rest, readRest, by simp [declareAll]⟩
  · rintro ⟨_, ⟨start, readStart, rfl⟩, rest, readRest, rfl⟩
    exact ⟨_, ⟨start, rest, readStart, readRest, rfl⟩, by simp [declareAll]⟩

theorem declare_eq_map (named : WellNamed base.options) {declaration : Declaration}
    (plain : declaration.name = .plain declaration.name.text) :
    base.declare declaration =
      declaration.readBlock.map fun named => ⟨declareIn base.options named⟩ := by
  have owner : ((findWire? declaration.name.text base.options).getD
      (.default declaration.name)).wire.spelling = declaration.name.spelling := by
    cases found : findWire? declaration.name.text base.options with
    | none => rfl
    | some node =>
        have wire := named.plain node (mem_of_findWire? found)
        rw [wire_of_findWire? found, ← plain] at wire
        exact congrArg WireName.spelling wire
  simp only [declare, optionByWireName?, Node.extendDeclared, Declaration.readBlock, owner]
  cases Descriptor.readAll declaration.name.spelling declaration.descriptors <;> rfl

/-- Among names that are spelled as they are, customizing is to read the configuration and then to
declare what was read. -/
theorem customize_eq_map (named : WellNamed base.options) (plain : configuration.NamesPlainly) :
    base.customize configuration = (Declaration.readConfiguration configuration).map
      fun declared => ⟨declareAll base.options declared⟩ := by
  rw [customize, Declaration.readConfiguration]
  cases read : Declaration.ofConfiguration configuration with
  | error error => rfl
  | ok declarations =>
      have names := Declaration.plain_of_ofConfiguration plain read
      have steps : ∀ schema : Schema, WellNamed schema.options → ∀ declaration ∈ declarations,
          schema.declare declaration =
            declaration.readBlock.map fun named => ⟨declareIn schema.options named⟩ :=
        fun _ named declaration inside => declare_eq_map named (names declaration inside)
      have kept : ∀ schema : Schema, WellNamed schema.options → ∀ declaration ∈ declarations,
          ∀ block, declaration.readBlock = .ok block →
            WellNamed (declareIn schema.options block) := by
        intro schema named declaration inside block found
        have read := toOption_eq_some_iff.mpr found
        rw [Declaration.readBlock, toOption_map] at read
        obtain ⟨descriptors, -, rfl⟩ := Option.map_eq_some_iff.mp read
        exact named.declared (names declaration inside) descriptors
      have loop := foldlM_eq_map (fun schema : Schema => WellNamed schema.options) declarations base
        named steps kept
      simp only [foldl_declareIn] at loop
      exact loop

/-- Whether a configuration is accepted, and the error if not, does not depend on what it extends. -/
theorem customize_error_iff_empty (reachable : base.PlainlyReachable)
    (plain : configuration.NamesPlainly) (error : SchemaError) :
    base.customize configuration = .error error ↔ empty.customize configuration = .error error := by
  have unnamed : WellNamed empty.options := WellNamed.kept.nil
  rw [customize_eq_map reachable.membersNamed.1 plain, customize_eq_map unnamed plain]
  cases Declaration.readConfiguration configuration <;> simp [Except.map]

/-- Filters whose values are to be renamed, but not to what. -/
def namelessFilters : Value :=
  let values : Value := .map [(.text "list", .list [.map [(.text "rename", .null)]])]
  let members : Value := .map [(.text "Name", .text "integer"), (.text "Value", values)]
  .list [.text "Owner", .map [(.text "Filter", .list [
    .map [(.text "membered_list", .map [(.text "structure", members)])]])]]

theorem filters_refuse_namelessFilters :
    filters.PlainlyReachable ∧ namelessFilters.NamesPlainly ∧
    filters.customize namelessFilters = .error (.missingArgument .rename Node.listMemberName) ∧
    empty.customize namelessFilters = .error (.missingArgument .rename Node.listMemberName) := by
  have plain : namelessFilters.NamesPlainly := by
    intro items found named
    cases found
    simp
  have refused : empty.customize namelessFilters =
      .error (.missingArgument .rename Node.listMemberName) := rfl
  exact ⟨plainlyReachable_filters, plain,
    (customize_error_iff_empty plainlyReachable_filters plain _).mpr refused, refused⟩

end Schema

end QueryOptions
