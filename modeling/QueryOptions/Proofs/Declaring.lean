import QueryOptions.Proofs.Level

namespace QueryOptions

/-! Declaring members at one level, one after the other. A level with distinct wire names is known
by its wire names and by the node of each. After some declarations the known wire names stand where
they stood and new ones come last, and the node of a name has been extended by all the descriptors
that were declared for it, in their order. -/

/-- A name with the descriptors that are declared for it. -/
abbrev NamedBlock := WireName × List Descriptor

/-- The members that a descriptor declares are named as they are spelled. -/
def plainBlocks (members : List (Text × List Descriptor)) : List NamedBlock :=
  members.map fun member => (.plain member.1, member.2)

def declareIn (level : List Node) (declared : NamedBlock) : List Node :=
  putNode (((findWire? declared.1.text level).getD (.default declared.1)).extend declared.2) level

def declareAll (level : List Node) (declared : List NamedBlock) : List Node :=
  declared.foldl declareIn level

/-- All descriptors that are declared for a wire name, in their order. -/
def blockOf (wire : Text) (declared : List NamedBlock) : List Descriptor :=
  (declared.filter fun named => named.1.text == wire).flatMap fun named => named.2

def wireTexts (level : List Node) : List Text := level.map fun node => node.wire.text

@[simp] theorem wireTexts_cons (node : Node) (rest : List Node) :
    wireTexts (node :: rest) = node.wire.text :: wireTexts rest := rfl

def DistinctWires (level : List Node) : Prop := (wireTexts level).Nodup

variable {level other : List Node} {node : Node} {wire : Text} {declared : List NamedBlock}

theorem blockOf_cons (named : NamedBlock) (rest : List NamedBlock) :
    blockOf wire (named :: rest) =
      if named.1.text = wire then named.2 ++ blockOf wire rest else blockOf wire rest := by
  by_cases same : named.1.text = wire <;> simp [blockOf, same]

namespace Node

theorem extend_append (node : Node) (first second : List Descriptor) :
    node.extend (first ++ second) = (node.extend first).extend second := by
  induction first generalizing node with
  | nil => rfl
  | cons descriptor rest ih => rw [List.cons_append, extend, extend, ih]

theorem extendMembers_eq_declareAll (known : List Node)
    (members : List (Text × List Descriptor)) :
    extendMembers known members = declareAll known (plainBlocks members) := by
  induction members generalizing known with
  | nil => rfl
  | cons member rest ih =>
      rw [extendMembers, ih]
      rfl

end Node

/-! Looking up by wire name. -/

theorem wire_of_findWire? (found : findWire? wire level = some node) : node.wire.text = wire :=
  beq_iff_eq.mp (List.find?_some (p := fun node : Node => node.wire.text == wire) found)

theorem findWire?_eq_none_iff : findWire? wire level = none ↔ wire ∉ wireTexts level := by
  simp [findWire?, wireTexts]

theorem findWire?_eq_some_iff (distinct : DistinctWires level) :
    findWire? wire level = some node ↔ node ∈ level ∧ node.wire.text = wire := by
  constructor
  · intro found
    exact ⟨mem_of_findWire? found, wire_of_findWire? found⟩
  · intro known
    obtain ⟨inside, rfl⟩ := known
    cases found : findWire? node.wire.text level with
    | none => exact absurd (List.mem_map_of_mem inside) (findWire?_eq_none_iff.mp found)
    | some first =>
        exact congrArg some (List.inj_on_of_nodup_map distinct (mem_of_findWire? found) inside
          (wire_of_findWire? found))

/-- Levels with distinct wire names are equal if they have the same wire names in the same order,
and the same node for each. -/
theorem level_ext (distinct : DistinctWires level) (wires : wireTexts other = wireTexts level)
    (same : ∀ wire ∈ wireTexts level, findWire? wire other = findWire? wire level) :
    other = level := by
  have otherDistinct : DistinctWires other := by
    rw [DistinctWires, wires]
    exact distinct
  have lengths : other.length = level.length := by
    have counted := congrArg List.length wires
    rwa [wireTexts, wireTexts, List.length_map, List.length_map] at counted
  refine List.ext_getElem lengths fun index inOther inLevel => ?_
  have wire : other[index].wire.text = level[index].wire.text := by
    have both := congrArg (fun texts => texts[index]?) wires
    simpa [wireTexts, inOther, inLevel] using both
  have found : findWire? other[index].wire.text other = some other[index] :=
    (findWire?_eq_some_iff otherDistinct).mpr ⟨List.getElem_mem inOther, rfl⟩
  rw [same _ (wires ▸ List.mem_map_of_mem (List.getElem_mem inOther))] at found
  exact List.inj_on_of_nodup_map distinct (mem_of_findWire? found) (List.getElem_mem inLevel) wire

/-! One declaration. -/

theorem putNode_cons (node known : Node) (rest : List Node) :
    putNode node (known :: rest) =
      if known.wire.text = node.wire.text then node :: rest else known :: putNode node rest := by
  have same : (known.wire == node.wire) = (known.wire.text == node.wire.text) := rfl
  simp only [putNode, same, beq_iff_eq]

theorem putNode_append_of_notMem {known : List Node}
    (fresh : node.wire.text ∉ wireTexts known) :
    putNode node (known ++ level) = known ++ putNode node level := by
  induction known with
  | nil => rfl
  | cons first rest ih =>
      obtain ⟨here, later⟩ := not_or.mp (mt List.mem_cons.mpr fresh)
      rw [List.cons_append, putNode_cons, if_neg (Ne.symm here), ih later, List.cons_append]

theorem wireTexts_putNode :
    wireTexts (putNode node level) = if node.wire.text ∈ wireTexts level then wireTexts level
      else wireTexts level ++ [node.wire.text] := by
  induction level with
  | nil => rfl
  | cons known rest ih =>
      rw [putNode_cons]
      by_cases same : known.wire.text = node.wire.text
      · simp [same]
      · by_cases inRest : node.wire.text ∈ wireTexts rest
        · simp [same, ih, inRest]
        · simp [same, Ne.symm same, ih, inRest]

theorem mem_putNode_iff (distinct : DistinctWires level) {found : Node} :
    found ∈ putNode node level ↔
      found = node ∨ found ∈ level ∧ found.wire.text ≠ node.wire.text := by
  induction level with
  | nil => simp [putNode]
  | cons known rest ih =>
      obtain ⟨fresh, distinctRest⟩ := List.nodup_cons.mp distinct
      rw [putNode_cons]
      by_cases same : known.wire.text = node.wire.text
      · have others : ∀ found ∈ rest, found.wire.text ≠ node.wire.text := fun found inRest equal =>
          fresh (List.mem_map.mpr ⟨found, inRest, equal.trans same.symm⟩)
        simp only [if_pos same, List.mem_cons]
        grind
      · simp only [if_neg same, List.mem_cons, ih distinctRest]
        grind

theorem findWire?_putNode (distinct : DistinctWires level) :
    findWire? wire (putNode node level) =
      if node.wire.text = wire then some node else findWire? wire level := by
  have after : DistinctWires (putNode node level) := nodup_putNode distinct
  refine Option.ext fun found => ?_
  rw [findWire?_eq_some_iff after, mem_putNode_iff distinct]
  split
  · grind
  · rw [findWire?_eq_some_iff distinct]
    grind

theorem wire_declared (level : List Node) (named : NamedBlock) :
    (((findWire? named.1.text level).getD (.default named.1)).extend named.2).wire.text =
      named.1.text := by
  rw [Node.wire_extend]
  cases found : findWire? named.1.text level with
  | none => rfl
  | some node => exact wire_of_findWire? found

theorem wireTexts_declareIn (level : List Node) (named : NamedBlock) :
    wireTexts (declareIn level named) = if named.1.text ∈ wireTexts level then wireTexts level
      else wireTexts level ++ [named.1.text] := by
  rw [declareIn, wireTexts_putNode, wire_declared]

theorem findWire?_declareIn (distinct : DistinctWires level) (named : NamedBlock) :
    findWire? wire (declareIn level named) = if named.1.text = wire then
        some (((findWire? named.1.text level).getD (.default named.1)).extend named.2)
      else findWire? wire level := by
  rw [declareIn, findWire?_putNode distinct, wire_declared]

theorem distinctWires_declareIn (distinct : DistinctWires level) (named : NamedBlock) :
    DistinctWires (declareIn level named) := nodup_putNode distinct

/-! All declarations. -/

/-- The names that are not known, each of them once, where it comes first. -/
def newNames (known names : List Text) : List Text :=
  (names.filter fun name => name ∉ known).eraseDups

theorem mem_newNames {known names : List Text} {name : Text} :
    name ∈ newNames known names ↔ name ∈ names ∧ name ∉ known := by
  simp [newNames, List.mem_eraseDups]

theorem newNames_cons_of_mem {known names : List Text} {name : Text} (inside : name ∈ known) :
    newNames known (name :: names) = newNames known names := by
  simp [newNames, inside]

theorem newNames_cons_of_notMem {known names : List Text} {name : Text} (fresh : name ∉ known) :
    newNames known (name :: names) = name :: newNames (known ++ [name]) names := by
  rw [newNames, List.filter_cons_of_pos (by simpa using fresh), List.eraseDups_cons,
    List.filter_filter, newNames]
  refine congrArg (name :: List.eraseDups ·) (List.filter_congr fun other _ => ?_)
  simp only [List.mem_append, List.mem_singleton]
  grind

theorem declareAll_cons (level : List Node) (named : NamedBlock) (rest : List NamedBlock) :
    declareAll level (named :: rest) = declareAll (declareIn level named) rest := rfl

theorem distinctWires_declareAll (distinct : DistinctWires level) :
    DistinctWires (declareAll level declared) := by
  induction declared generalizing level with
  | nil => exact distinct
  | cons named rest ih => exact ih (distinctWires_declareIn distinct named)

theorem distinctWires_kept : Node.KeptByDeclaring DistinctWires :=
  ⟨List.nodup_nil, nodup_putNode⟩

theorem Node.AllLevels.declareAll {property : List Node → Prop} (nil : property [])
    (step : ∀ level named, property level → property (declareIn level named))
    (holds : Node.AllLevels property level) :
    Node.AllLevels property (declareAll level declared) := by
  have kept : Node.KeptByDeclaring property :=
    ⟨nil, fun {level name block} holds => step level (.plain name, block) holds⟩
  induction declared generalizing level with
  | nil => exact holds
  | cons named rest ih =>
      have inside := Node.everywhere_extend kept _ (holds.everywhere_declared named.1) named.2
      exact ih (holds.put (step level named holds.1) inside)

/-- A known node, or a default one under the name that was given first, takes in all descriptors
that are declared for its name. -/
theorem findWire?_declareAll (distinct : DistinctWires level) :
    findWire? wire (declareAll level declared) =
      ((findWire? wire level).or ((declared.find? fun named => named.1.text == wire).map
        fun named => .default named.1)).map fun node => node.extend (blockOf wire declared) := by
  induction declared generalizing level with
  | nil => cases found : findWire? wire level <;> simp [declareAll, blockOf, Node.extend, found]
  | cons named rest ih =>
      have tail := ih (distinctWires_declareIn distinct named)
      rw [findWire?_declareIn distinct] at tail
      rw [declareAll_cons, tail]
      by_cases same : named.1.text = wire
      · subst same
        cases findWire? named.1.text level <;> simp [blockOf_cons, Node.extend_append]
      · simp [blockOf_cons, same]

/-- The wire names stay as they are, and those that are new come last in the order in which they are
first declared. -/
theorem wireTexts_declareAll (level : List Node) (declared : List NamedBlock) :
    wireTexts (declareAll level declared) = wireTexts level ++
      newNames (wireTexts level) (declared.map fun named => named.1.text) := by
  induction declared generalizing level with
  | nil => simp [declareAll, newNames]
  | cons named rest ih =>
      rw [declareAll_cons, ih, wireTexts_declareIn, List.map_cons]
      split
      · rename_i known
        rw [newNames_cons_of_mem known]
      · rename_i fresh
        rw [newNames_cons_of_notMem fresh, List.append_assoc, List.singleton_append]

theorem mem_wireTexts_declareAll :
    wire ∈ wireTexts (declareAll level declared) ↔
      wire ∈ wireTexts level ∨ ∃ named ∈ declared, named.1.text = wire := by
  rw [wireTexts_declareAll, List.mem_append, mem_newNames, List.mem_map]
  grind

theorem wireTexts_declareAll_of_known (known : ∀ named ∈ declared, named.1.text ∈ wireTexts level) :
    wireTexts (declareAll level declared) = wireTexts level := by
  have none : newNames (wireTexts level) (declared.map fun named => named.1.text) = [] := by
    refine List.eq_nil_iff_forall_not_mem.mpr fun wire new => ?_
    obtain ⟨declaredWire, fresh⟩ := mem_newNames.mp new
    obtain ⟨named, inside, rfl⟩ := List.mem_map.mp declaredWire
    exact fresh (known named inside)
  rw [wireTexts_declareAll, none, List.append_nil]

/-- Declaring once more changes nothing, as extending a node once more does not. -/
theorem declareAll_declareAll (distinct : Node.AllLevels DistinctWires level)
    (settled : ∀ wire (node : Node), node.Everywhere DistinctWires →
      (node.extend (blockOf wire declared)).extend (blockOf wire declared) =
        node.extend (blockOf wire declared)) :
    declareAll (declareAll level declared) declared = declareAll level declared := by
  have after : DistinctWires (declareAll level declared) := distinctWires_declareAll distinct.1
  refine level_ext after (wireTexts_declareAll_of_known fun named inside => ?_) fun wire known => ?_
  · exact mem_wireTexts_declareAll.mpr (.inr ⟨named, inside, rfl⟩)
  · rw [findWire?_declareAll after]
    cases found : findWire? wire (declareAll level declared) with
    | none => exact absurd known (findWire?_eq_none_iff.mp found)
    | some node =>
        rw [findWire?_declareAll distinct.1] at found
        obtain ⟨start, begun, rfl⟩ := Option.map_eq_some_iff.mp found
        have named : start.Everywhere DistinctWires := by
          rcases Option.or_eq_some_iff.mp begun with inLevel | ⟨-, fresh⟩
          · exact distinct.2 start (mem_of_findWire? inLevel)
          · obtain ⟨_, -, rfl⟩ := Option.map_eq_some_iff.mp fresh
            exact Node.everywhere_default _
        exact congrArg some (settled wire start named)

end QueryOptions
