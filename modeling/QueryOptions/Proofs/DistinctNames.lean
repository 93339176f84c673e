import QueryOptions.Proofs.NamingLint
import QueryOptions.Proofs.ParamNames

namespace QueryOptions

/-! Names of parameters tell their ways apart where no wire name has a dot in it. Between the dots
of a name stand the words that the steps of the way add, and no two steps from one value add the
same words. -/

/-- What a step adds between dots. -/
def Step.words : Step → List Text
  | .element index .flat => [Text.ofNat (index + 1)]
  | .element index .membered => ["member", Text.ofNat (index + 1)]
  | .entry _ _ wire => [wire.text]

namespace Way

def words (way : Way) : List Text := way.flatMap Step.words

def Dotless (way : Way) : Prop := ∀ step ∈ way, '.'.toNat ∉ step.ownName.text

theorem split_suffixes {way : Way} (dotless : way.Dotless) {piece : Text}
    (absent : '.'.toNat ∉ piece) :
    Text.split '.' (piece ++ way.flatMap Step.suffix) = piece :: way.words := by
  induction way generalizing piece with
  | nil => exact (congrArg _ (List.append_nil piece)).trans (Text.split_of_notMem absent)
  | cons step rest ih =>
      obtain ⟨here, later⟩ := List.forall_mem_cons.mp dotless
      have tail := ih later here
      have plainJoint : Text.split '.' (piece ++ '.'.toNat :: (step.ownName.text ++
          rest.flatMap Step.suffix)) = piece :: step.ownName.text :: words rest := by
        rw [Text.split_append absent, tail]
      cases step with
      | element index join =>
          cases join with
          | flat => exact plainJoint
          | membered =>
              have marked : '.'.toNat ∉ Text.ofString "member" := by decide
              have markedTail := (Text.split_append marked).trans (congrArg _ tail)
              exact (Text.split_append absent).trans (congrArg _ markedTail)
      | entry index key wire => exact plainJoint

end Way

namespace Node

variable {node : Node} {value : Value}

/-- A property of all mappings that structures take, at or below a value. -/
def EveryMapping (property : List (Value × Value) → Prop) (node : Node) (value : Value) : Prop :=
  ∀ way heading members entries,
    node.Reaches value way (.structure heading members) (.map entries) → property entries

section EveryMapping

variable {property : List (Value × Value) → Prop} {heading : Heading}

theorem EveryMapping.child (holds : node.EveryMapping property value) {child : Child}
    (first : child ∈ node.children value) : child.node.EveryMapping property child.value :=
  fun _ _ _ _ reached => holds _ _ _ _ (.down first reached)

theorem everyMapping_scalar {leaf : LeafType} :
    (Node.scalar heading leaf).EveryMapping property value := by
  intro way _ _ _ reached
  cases reached with
  | down first _ => simp [children] at first

theorem everyMapping_list {member : Node} {join : ListJoin}
    (below : ∀ child ∈ (Node.list heading member join).children value,
      child.node.EveryMapping property child.value) :
    (Node.list heading member join).EveryMapping property value := by
  intro way _ _ _ reached
  cases reached with
  | down first rest => exact below _ first _ _ _ _ rest

theorem everyMapping_structure {members : List Node} {entries : List (Value × Value)}
    (here : property entries)
    (below : ∀ child ∈ (Node.structure heading members).children (.map entries),
      child.node.EveryMapping property child.value) :
    (Node.structure heading members).EveryMapping property (.map entries) := by
  intro way _ _ _ reached
  cases reached with
  | here => exact here
  | down first rest => exact below _ first _ _ _ _ rest

end EveryMapping

/-- No two keys of one mapping look alike, wherever a structure takes a mapping. -/
def KeysDistinct (node : Node) (value : Value) : Prop :=
  ∀ way heading members entries,
    node.Reaches value way (.structure heading members) (.map entries) →
      (entries.map fun entry => entry.1.shown).Nodup

theorem KeysDistinct.child (keys : node.KeysDistinct value) {child : Child}
    (first : child ∈ node.children value) : child.node.KeysDistinct child.value :=
  EveryMapping.child keys first

theorem child_eq_of_place {left right : Child} (first : left ∈ node.children value)
    (second : right ∈ node.children value) (same : left.step.place = right.step.place) :
    left = right := by
  have places : ((node.children value).map fun child => child.step.place).Nodup := by
    refine (List.pairwise_map.mpr (node.pairwise_children value)).imp ?_
    intro place other before equal
    rw [equal] at before
    exact Std.Asymm.asymm other other before before
  exact List.inj_on_of_nodup_map places first second same

theorem shown_eq_of_wire {members : List Node} (named : WellNamed members)
    {leftKey rightKey : Text} {left right : Node}
    (leftFound : findBinding? leftKey members = some left)
    (rightFound : findBinding? rightKey members = some right)
    (same : left.wire.text = right.wire.text) : leftKey = rightKey := by
  have member : left = right := List.inj_on_of_nodup_map named.distinct
    (mem_of_findBinding? leftFound) (mem_of_findBinding? rightFound) same
  rw [← binding_of_findBinding? leftFound, member, binding_of_findBinding? rightFound]

theorem index_eq_of_shown {entries : List (Value × Value)}
    (distinct : (entries.map fun entry => entry.1.shown).Nodup) {leftIndex rightIndex : Nat}
    {left right : Value × Value} (leftAt : entries[leftIndex]? = some left)
    (rightAt : entries[rightIndex]? = some right) (same : left.1.shown = right.1.shown) :
    leftIndex = rightIndex := by
  have inside : leftIndex < (entries.map fun entry => entry.1.shown).length := by
    rw [List.length_map]
    exact (List.getElem?_eq_some_iff.mp leftAt).1
  refine (List.getElem?_inj inside distinct).mp ?_
  simp only [List.getElem?_map, leftAt, rightAt, Option.map_some, same]

theorem child_eq_of_words (named : node.Everywhere WellNamed) (keys : node.KeysDistinct value)
    {left right : Child} (first : left ∈ node.children value) (second : right ∈ node.children value)
    {leftRest rightRest : List Text}
    (same : left.step.words ++ leftRest = right.step.words ++ rightRest) :
    left = right ∧ leftRest = rightRest := by
  cases leadsTo_of_mem_children first with
  | @element heading member join value _ leftIndex leftElement _ _ =>
      cases leadsTo_of_mem_children second with
      | @element _ _ _ _ _ rightIndex rightElement _ _ =>
          have numbers : Text.ofNat (leftIndex + 1) = Text.ofNat (rightIndex + 1) ∧
              leftRest = rightRest := by
            cases join with
            | flat => exact List.cons.inj same
            | membered => exact List.cons.inj (List.cons.inj same).2
          have index : leftIndex = rightIndex := Nat.succ.inj (Text.ofNat_inj.mp numbers.1)
          exact ⟨child_eq_of_place first second (congrArg Place.item index), numbers.2⟩
  | @entry heading members entries leftIndex leftKey _ _ leftAt leftFound =>
      cases leadsTo_of_mem_children second with
      | @entry _ _ _ rightIndex rightKey _ _ rightAt rightFound =>
          obtain ⟨wires, rests⟩ := List.cons.inj same
          have shown : leftKey.shown = rightKey.shown :=
            shown_eq_of_wire (everywhere_structure.mp named).1 leftFound rightFound wires
          have index : leftIndex = rightIndex :=
            index_eq_of_shown (keys [] heading members entries .here) leftAt rightAt shown
          exact ⟨child_eq_of_place first second (congrArg Place.item index), rests⟩

/-- Nothing is sent below what is sent itself. -/
theorem not_emitsBelow_of_emits (emits : node.Emits value) (visit : Visit) :
    ¬ Child.EmitsBelow (node.children value) visit := by
  cases node with
  | scalar heading leaf => simp [Child.EmitsBelow, children]
  | list heading member join => exact emits_list_iff.mp emits visit
  | «structure» heading members => simp [Emits] at emits

theorem Reaches.way_eq_of_words {way : Way} {inner : Node} {found : Value}
    (reached : node.Reaches value way inner found) (emits : inner.Emits found)
    (named : node.Everywhere WellNamed) (keys : node.KeysDistinct value) {other : Visit}
    (sent : node.Sends value other) (same : way.words = other.way.words) : way = other.way := by
  -- Neither way can end where the other goes on: something would be sent below what is sent itself.
  induction reached generalizing other with
  | here =>
      rcases sends_iff.mp sent with ⟨rfl, -⟩ | below
      · rfl
      · exact absurd below (not_emitsBelow_of_emits emits other)
  | @down node value rest inner found child first lower ih =>
      rcases sends_iff.mp sent with ⟨rfl, emitsHere⟩ | ⟨sibling, second, visit, sentBelow, rfl⟩
      · exact absurd ⟨child, first, ⟨rest, inner, found⟩, ⟨lower, emits⟩, rfl⟩
          (not_emitsBelow_of_emits emitsHere _)
      · obtain ⟨rfl, tail⟩ := child_eq_of_words named keys first second same
        exact congrArg (child.step :: ·)
          (ih emits (named.child first) (keys.child first) sentBelow tail)

end Node

namespace Schema

variable {schema : Schema} {entries : List (Value × Value)}

/-- The words of what is sent stand between the dots of its name. -/
theorem split_text {visit : Visit} (sent : schema.root.Sends (.map entries) visit)
    (undotted : schema.root.Everywhere Undotted) :
    Text.split '.' visit.way.text = visit.way.words := by
  have dotless : visit.way.Dotless := sent.reached.ownNames
    (fun wire => '.'.toNat ∉ wire.text) Text.dot_notMem_ofNat undotted
  rcases Node.sends_iff.mp sent with ⟨rfl, emits⟩ | ⟨child, first, lower, -, rfl⟩
  · simp [root, Node.Emits] at emits
  · obtain ⟨index, key, value, member, -, -, rfl⟩ := Node.mem_children_structure.mp first
    obtain ⟨here, later⟩ := List.forall_mem_cons.mp dotless
    exact Way.split_suffixes later here

theorem keysDistinct_filtersGiven : filters.root.KeysDistinct (.map filtersGiven) := by
  have values : ∀ heading value,
      (Node.list heading Node.listMember .flat).KeysDistinct value := by
    intro heading value
    refine Node.everyMapping_list fun child first => ?_
    obtain ⟨_, _, rfl⟩ := List.mem_map.mp first
    exact Node.everyMapping_scalar
  refine Node.everyMapping_structure (by decide) (List.forall_mem_cons.mpr ⟨?_, ?_⟩)
  · refine Node.everyMapping_list (List.forall_mem_cons.mpr ⟨?_, ?_⟩)
    · exact Node.everyMapping_structure (by decide) (List.forall_mem_cons.mpr
        ⟨Node.everyMapping_scalar, List.forall_mem_singleton.mpr (values _ _)⟩)
    · exact List.forall_mem_singleton.mpr (Node.everyMapping_structure (by decide)
        (List.forall_mem_cons.mpr
          ⟨values _ _, List.forall_mem_singleton.mpr Node.everyMapping_scalar⟩))
  · exact List.forall_mem_singleton.mpr Node.everyMapping_scalar

/-- Where no wire name has a dot in it, as on an operation without naming warnings, and no two keys
of a mapping look alike, the parameters of a request have distinct names. -/
theorem requestParams_names_nodup {schema : Schema} (reachable : schema.PlainlyReachable) :
    (∀ location operation, (∀ finding ∈ NamingLint.operationFindings location operation schema,
      finding.isWarning = false) → schema.root.Everywhere Undotted) ∧
    ∀ codec entries, schema.root.Everywhere Undotted →
      schema.validate (.map entries) = .ok () → schema.root.KeysDistinct (.map entries) →
      ∃ params, schema.requestParams codec (.map entries) = .ok params ∧
        (params.map fun param => param.name.text).Nodup := by
  refine ⟨fun location operation unwarned => undotted_of_unwarned unwarned,
    fun codec entries undotted valid keys => ?_⟩
  obtain ⟨emissions, sent, written⟩ := exists_named_emissions reachable valid
  obtain ⟨params, encoded, all⟩ := written codec
  refine ⟨params, encoded, ?_⟩
  have names : (emissions.map fun visit => visit.way.text) =
      params.map fun param => param.name.text := by
    rw [← List.forall₂_eq_eq_eq, List.forall₂_map_left_iff, List.forall₂_map_right_iff]
    exact all.imp fun visit param wrote => (congrArg WireName.text wrote.1).symm
  rw [← names]
  refine List.pairwise_map.mpr (sent.ordered.imp_of_mem ?_)
  intro left right leftMember rightMember before same
  have leftSent := (sent.mem_iff left).mp leftMember
  have rightSent := (sent.mem_iff right).mp rightMember
  have words : left.way.words = right.way.words := by
    rw [← split_text leftSent undotted, same, split_text rightSent undotted]
  have way := leftSent.reached.way_eq_of_words leftSent.emits reachable.wellNamed keys rightSent words
  rw [way] at before
  exact Std.Asymm.asymm _ _ before before

theorem filters_requestParams_names_nodup :
    filters.PlainlyReachable ∧ filters.root.Everywhere Undotted ∧
    filters.validate (.map filtersGiven) = .ok () ∧
    filters.root.KeysDistinct (.map filtersGiven) ∧
    ∃ params, filters.requestParams Base64.encode (.map filtersGiven) = .ok params ∧
      (params.map fun param => param.name.text).Nodup := by
  have distinct := requestParams_names_nodup plainlyReachable_filters
  have undotted : filters.root.Everywhere Undotted :=
    distinct.1 (.locate none none none) (.text "DescribeImages") (by decide)
  exact ⟨plainlyReachable_filters, undotted, validate_filtersGiven, keysDistinct_filtersGiven,
    distinct.2 Base64.encode filtersGiven undotted validate_filtersGiven keysDistinct_filtersGiven⟩

end Schema

end QueryOptions
