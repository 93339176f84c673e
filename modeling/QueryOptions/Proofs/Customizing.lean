import QueryOptions.Proofs.Repetition

namespace QueryOptions

/-! What customizing does to the options of a schema. Known wire names keep their places and new ones
come last, in the order in which they are first declared. An option that is not declared stays as it
is, and a declared one takes in all descriptors that are declared for its name. -/

theorem foldl_putNode_of_distinct {known nodes : List Node}
    (distinct : DistinctWires (known ++ nodes)) :
    nodes.foldl (fun options node => putNode node options) known = known ++ nodes := by
  induction nodes generalizing known with
  | nil => simp
  | cons node rest ih =>
      have split : known ++ node :: rest = (known ++ [node]) ++ rest := by simp
      have fresh : node.wire.text ∉ wireTexts known := by
        simp only [DistinctWires, wireTexts, List.map_append, List.map_cons] at distinct
        have apart := (List.nodup_append.mp distinct).2.2
        exact fun inside => apart _ inside _ List.mem_cons_self rfl
      have last : putNode node (known ++ []) = known ++ [node] := putNode_append_of_notMem fresh
      rw [List.append_nil] at last
      rw [split] at distinct
      rw [List.foldl_cons, last, ih distinct, split]

namespace Descriptor

theorem readAll_eq_mapM (owner : Text) (declared : List Value) :
    readAll owner declared = declared.mapM (read owner) := by
  induction declared with
  | nil => rfl
  | cons given rest ih => rw [readAll_cons, List.mapM_cons, ih]

theorem readAll_of_owner {owner : Text} {declared : List Value} {block : List Descriptor}
    (found : readAll owner declared = .ok block) (other : Text) :
    readAll other declared = .ok block := by
  rw [← toOption_eq_some_iff] at found ⊢
  rw [toOption_readAll other owner, found]

end Descriptor

namespace Declaration

/-- All descriptors that are declared for a wire name, in their order. -/
def descriptorsFor (wire : Text) (declarations : List Declaration) : List Value :=
  (declarations.filter fun declaration => declaration.name.text == wire).flatMap
    fun declaration => declaration.descriptors

/-- The first declaration of a wire name. -/
def first? (wire : Text) (declarations : List Declaration) : Option Declaration :=
  declarations.find? fun declaration => declaration.name.text == wire

variable {declarations : List Declaration} {declared : List NamedBlock} {wire : Text}

theorem readBlock_eq_ok_iff {declaration : Declaration} {named : NamedBlock} :
    declaration.readBlock = .ok named ↔ named.1 = declaration.name ∧
      Descriptor.readAll declaration.name.spelling declaration.descriptors = .ok named.2 := by
  obtain ⟨name, block⟩ := named
  rw [readBlock, map_eq_ok_iff]
  constructor
  · rintro ⟨_, read, made⟩
    cases made
    exact ⟨rfl, read⟩
  · rintro ⟨rfl, read⟩
    exact ⟨block, read, rfl⟩

theorem names_of_read (read : declarations.mapM readBlock = .ok declared) :
    declared.map Prod.fst = declarations.map Declaration.name := by
  rw [← List.forall₂_eq_eq_eq, List.forall₂_map_left_iff, List.forall₂_map_right_iff]
  exact (forall₂_of_mapM_ok read).flip.imp fun named declaration found =>
    (readBlock_eq_ok_iff.mp found).1

theorem readAll_descriptorsFor (read : declarations.mapM readBlock = .ok declared)
    (wire owner : Text) :
    Descriptor.readAll owner (descriptorsFor wire declarations) = .ok (blockOf wire declared) := by
  have related := forall₂_of_mapM_ok read
  clear read
  induction related with
  | nil => rfl
  | @cons declaration named rest others found _ ih =>
      obtain ⟨name, block⟩ := readBlock_eq_ok_iff.mp found
      by_cases same : declaration.name.text = wire
      · have here := Descriptor.readAll_of_owner block owner
        rw [Descriptor.readAll_eq_mapM] at here ih
        simp only [descriptorsFor, List.filter_cons, same, beq_self_eq_true, if_true,
          List.flatMap_cons, blockOf_cons, name] at ih ⊢
        rw [Descriptor.readAll_eq_mapM]
        exact mapM_append_eq_ok_iff.mpr ⟨_, _, here, ih, rfl⟩
      · simpa [descriptorsFor, blockOf_cons, name, same] using ih

theorem extendDeclared_descriptorsFor (read : declarations.mapM readBlock = .ok declared)
    (wire : Text) (node : Node) :
    node.extendDeclared (descriptorsFor wire declarations) =
      .ok (node.extend (blockOf wire declared)) := by
  rw [Node.extendDeclared, readAll_descriptorsFor read]
  rfl

theorem readAll_of_descriptorsFor {declaration : Declaration} (inside : declaration ∈ declarations)
    {owner : Text} {block : List Descriptor}
    (read : Descriptor.readAll owner (descriptorsFor declaration.name.text declarations) =
      .ok block) : ∃ part, Descriptor.readAll owner declaration.descriptors = .ok part := by
  have kept : declaration ∈ declarations.filter
      fun other => other.name.text == declaration.name.text :=
    List.mem_filter.mpr ⟨inside, beq_self_eq_true _⟩
  obtain ⟨before, after, parts⟩ := List.append_of_mem kept
  rw [descriptorsFor, parts, List.flatMap_append, List.flatMap_cons,
    Descriptor.readAll_eq_mapM] at read
  obtain ⟨_, _, -, readRest, -⟩ := mapM_append_eq_ok_iff.mp read
  obtain ⟨part, _, readPart, -, -⟩ := mapM_append_eq_ok_iff.mp readRest
  exact ⟨part, (Descriptor.readAll_eq_mapM _ _).trans readPart⟩

theorem blockOf_of_undeclared (read : declarations.mapM readBlock = .ok declared)
    (undeclared : first? wire declarations = none) : blockOf wire declared = [] := by
  have none : descriptorsFor wire declarations = [] := by
    rw [descriptorsFor, List.filter_eq_nil_iff.mpr (List.find?_eq_none.mp undeclared)]
    rfl
  have block := readAll_descriptorsFor read wire []
  rw [none] at block
  exact (Except.ok.inj block).symm

end Declaration

namespace Schema

/-- The schema is the base with the declarations taken in. -/
structure TakesIn (base : Schema) (declarations : List Declaration) (schema : Schema) : Prop where
  wires : wireTexts schema.options = wireTexts base.options ++
    newNames (wireTexts base.options) (declarations.map fun declaration => declaration.name.text)
  unchanged : ∀ wire, Declaration.first? wire declarations = none →
    schema.optionByWireName? wire = base.optionByWireName? wire
  extended : ∀ wire declaration, Declaration.first? wire declarations = some declaration →
    ∃ option, schema.optionByWireName? wire = some option ∧
      ((base.optionByWireName? wire).getD (.default declaration.name)).extendDeclared
        (Declaration.descriptorsFor wire declarations) = .ok option
  rebuilt : ofNodes schema.options = schema

variable {base schema other : Schema} {configuration : Value} {declarations : List Declaration}
  {declared : List NamedBlock}

theorem findWire?_declareAll_of_read (distinct : DistinctWires base.options)
    (read : declarations.mapM Declaration.readBlock = .ok declared) (wire : Text) :
    findWire? wire (declareAll base.options declared) =
      ((findWire? wire base.options).or ((Declaration.first? wire declarations).map
        fun declaration => .default declaration.name)).map
          fun node => node.extend (blockOf wire declared) := by
  have firsts := congrArg (List.find? fun name : WireName => name.text == wire)
    (Declaration.names_of_read read)
  rw [List.find?_map, List.find?_map] at firsts
  have defaults := congrArg (Option.map Node.default) firsts
  rw [Option.map_map, Option.map_map] at defaults
  rw [findWire?_declareAll distinct]
  exact congrArg (fun start => ((findWire? wire base.options).or start).map _) defaults

theorem takesIn_declareAll (distinct : DistinctWires base.options)
    (read : declarations.mapM Declaration.readBlock = .ok declared) :
    base.TakesIn declarations ⟨declareAll base.options declared⟩ := by
  have found := findWire?_declareAll_of_read distinct read
  refine ⟨?_, fun wire undeclared => ?_, fun wire declaration first => ?_, ?_⟩
  · have texts := congrArg (List.map WireName.text) (Declaration.names_of_read read)
    rw [List.map_map, List.map_map] at texts
    rw [wireTexts_declareAll]
    exact congrArg (wireTexts base.options ++ newNames _ ·) texts
  · rw [optionByWireName?, found, undeclared, Declaration.blockOf_of_undeclared read undeclared]
    cases same : findWire? wire base.options <;> simp [optionByWireName?, same, Node.extend]
  · refine ⟨_, ?_, Declaration.extendDeclared_descriptorsFor read wire _⟩
    rw [optionByWireName?, found, first]
    cases same : findWire? wire base.options <;> simp [optionByWireName?, same]
  · have after : DistinctWires ([] ++ declareAll base.options declared) :=
      distinctWires_declareAll distinct
    rw [ofNodes, foldl_putNode_of_distinct after]
    rfl

/-- Nothing else has the base with the declarations taken in. -/
theorem TakesIn.unique (distinct : DistinctWires schema.options)
    (taken : base.TakesIn declarations schema) (otherTaken : base.TakesIn declarations other) :
    other = schema := by
  have same : ∀ wire, findWire? wire other.options = findWire? wire schema.options := by
    intro wire
    cases first : Declaration.first? wire declarations with
    | none => exact (otherTaken.unchanged wire first).trans (taken.unchanged wire first).symm
    | some declaration =>
        obtain ⟨option, found, extended⟩ := taken.extended wire declaration first
        obtain ⟨also, otherFound, otherExtended⟩ := otherTaken.extended wire declaration first
        rw [extended] at otherExtended
        cases otherExtended
        exact otherFound.trans found.symm
  have wires : wireTexts other.options = wireTexts schema.options :=
    otherTaken.wires.trans taken.wires.symm
  obtain ⟨options⟩ := schema
  obtain ⟨otherOptions⟩ := other
  exact congrArg Schema.mk (level_ext distinct wires fun wire _ => same wire)

/-- Declarations that have been taken in can all be read. -/
theorem TakesIn.exists_blocks (taken : base.TakesIn declarations schema) :
    ∃ declared, declarations.mapM Declaration.readBlock = .ok declared := by
  refine exists_mapM_ok fun declaration inside => ?_
  have some : (Declaration.first? declaration.name.text declarations).isSome = true :=
    List.find?_isSome.mpr ⟨declaration, inside, beq_self_eq_true _⟩
  obtain ⟨first, found⟩ := Option.isSome_iff_exists.mp some
  obtain ⟨option, -, extended⟩ := taken.extended _ first found
  obtain ⟨block, read, -⟩ := map_eq_ok_iff.mp extended
  obtain ⟨part, readPart⟩ := Declaration.readAll_of_descriptorsFor inside read
  exact ⟨(declaration.name, part), Declaration.readBlock_eq_ok_iff.mpr
    ⟨rfl, Descriptor.readAll_of_owner readPart _⟩⟩

/-- To customize a schema is to take in the declarations of a configuration, and lists of
declarations may be taken in one after the other. -/
theorem customize_takesIn (reachable : base.Reachable) :
    (∀ configuration schema, base.customize configuration = .ok schema ↔
      ∃ declarations, Declaration.ofConfiguration configuration = .ok declarations ∧
        base.TakesIn declarations schema) ∧
    ∀ first second schema, base.customize (.list (first ++ second)) = .ok schema ↔
      ∃ middle, base.customize (.list first) = .ok middle ∧
        middle.customize (.list second) = .ok schema := by
  have distinct := reachable.distinctWires.1
  refine ⟨fun configuration schema => ?_, fun first second schema => customize_append_iff⟩
  constructor
  · intro built
    obtain ⟨declared, read, rfl⟩ := customize_eq_ok_iff.mp built
    obtain ⟨declarations, parsed, blocks⟩ := ok_of_bind read
    exact ⟨declarations, parsed, takesIn_declareAll distinct blocks⟩
  · rintro ⟨declarations, parsed, taken⟩
    obtain ⟨declared, blocks⟩ := taken.exists_blocks
    have made := takesIn_declareAll distinct blocks
    have after : DistinctWires (declareAll base.options declared) :=
      distinctWires_declareAll distinct
    refine customize_eq_ok_iff.mpr ⟨declared, ?_, made.unique after taken⟩
    rw [Declaration.readConfiguration, parsed]
    exact blocks

theorem filters_takesIn_retypedFilters :
    filters.Reachable ∧ ∃ schema, filters.customize retypedFilters = .ok schema ∧
      ∃ declarations, Declaration.ofConfiguration retypedFilters = .ok declarations ∧
        filters.TakesIn declarations schema := by
  have reachable : filters.Reachable := plainlyReachable_filters.reachable
  exact ⟨reachable, _, rfl, ((customize_takesIn reachable).1 retypedFilters _).mp rfl⟩

end Schema

end QueryOptions
