import QueryOptions.Proofs.Recovery

namespace QueryOptions

/-! The empty parameter of a list. It is left by a list of which no element leaves a parameter: by
an empty one, but also by one with no other elements than mappings that hold nothing. All other
elements leave parameters that tell their numbers, so that lists with the same parameters differ in
length by such mappings at most. -/

/-- What a step appends to the name of the value above, as it is spelled. -/
def Step.addition (step : Step) : Text := step.joint ++ step.ownName.spelling

theorem Step.exists_addition (step : Step) : ∃ rest, step.addition = '.'.toNat :: rest := by
  cases step with
  | element index join => cases join <;> exact ⟨_, rfl⟩
  | entry index key wire => exact ⟨_, rfl⟩

namespace Way

variable {name : WireName} {step : Step} {rest : Way} {param : Param}

theorem nameFrom_cons (name : WireName) (step : Step) (rest : Way) :
    nameFrom name (step :: rest) =
      .plain (name.spelling ++ step.addition ++ rest.flatMap Step.addition) := by
  induction rest generalizing name step with
  | nil => simp [nameFrom, Step.extend, Step.addition]
  | cons next rest ih =>
      have tail := ih (step.extend name) next
      rw [nameFrom, List.foldl_cons]
      refine tail.trans (congrArg WireName.plain ?_)
      simp [Step.extend, Step.addition, WireName.plain]

theorem ne_marker_of_nameFrom (named : param.name = nameFrom name (step :: rest)) :
    param ≠ ⟨name, []⟩ := by
  rintro rfl
  obtain ⟨more, added⟩ := step.exists_addition
  have longer := congrArg (fun name : WireName => name.spelling.length) named
  rw [nameFrom_cons, added] at longer
  simp only [WireName.plain, List.length_append, List.length_cons] at longer
  omega

/-- The name of what stands at or below an element tells its number. -/
theorem wordAfter_of_nameFrom {index : Nat} {join : ListJoin}
    (named : param.name = nameFrom name (.element index join :: rest)) :
    param.wordAfter (name.spelling ++ join.text) = Text.ofNat (index + 1) := by
  have after : param.name.text.drop (name.spelling ++ join.text).length =
      Text.ofNat (index + 1) ++ rest.flatMap Step.addition := by
    have joined :
        name.spelling ++ (Step.element index join).addition ++ rest.flatMap Step.addition =
          (name.spelling ++ join.text) ++ (Text.ofNat (index + 1) ++ rest.flatMap Step.addition) := by
      simp [Step.addition, Step.joint, Step.ownName, WireName.plain]
    rw [named, nameFrom_cons, joined]
    exact List.drop_left
  have absent := Text.dot_notMem_ofNat (index + 1)
  rw [Param.wordAfter, after]
  cases rest with
  | nil => rw [List.flatMap_nil, List.append_nil, Text.split_of_notMem absent, List.headD_cons]
  | cons next rest =>
      obtain ⟨more, added⟩ := next.exists_addition
      rw [List.flatMap_cons, added, List.cons_append, Text.split_append absent, List.headD_cons]

end Way

/-- A parameter that stands at or below an element, by its name. -/
def Param.IsOf (name : WireName) (join : ListJoin) (index : Nat) (param : Param) : Prop :=
  ∃ way, param.name = Way.nameFrom name (.element index join :: way)

theorem Param.IsOf.unique {name : WireName} {join : ListJoin} {index other : Nat} {param : Param}
    (here : param.IsOf name join index) (there : param.IsOf name join other) : index = other := by
  obtain ⟨way, named⟩ := here
  obtain ⟨otherWay, otherNamed⟩ := there
  have numbers :=
    (Way.wordAfter_of_nameFrom named).symm.trans (Way.wordAfter_of_nameFrom otherNamed)
  exact Nat.succ.inj (Text.ofNat_inj.mp numbers)

theorem Param.IsOf.ne_marker {name : WireName} {join : ListJoin} {index : Nat} {param : Param}
    (here : param.IsOf name join index) : param ≠ ⟨name, []⟩ :=
  let ⟨_, named⟩ := here
  Way.ne_marker_of_nameFrom named

namespace Child

variable {codec : BlobCodec} {nameOf : Way → WireName} {children : List Child} {params : List Param}

theorem mem_paramsOfAll {param : Param}
    (encoded : paramsOfAll codec nameOf children = some params) :
    param ∈ params ↔
      ∃ child ∈ children, ∃ block, child.params? codec nameOf = some block ∧ param ∈ block := by
  obtain ⟨blocks, all, rfl⟩ := exists_blocks encoded
  rw [List.mem_flatten]
  constructor
  · rintro ⟨block, inside, member⟩
    obtain ⟨child, first, own⟩ := exists_of_forall₂ all.flip inside
    exact ⟨child, first, block, own, member⟩
  · rintro ⟨child, first, block, own, member⟩
    obtain ⟨also, inside, ownAlso⟩ := exists_of_forall₂ all first
    rw [own] at ownAlso
    cases ownAlso
    exact ⟨block, inside, member⟩

theorem exists_block (encoded : paramsOfAll codec nameOf children = some params) {child : Child}
    (first : child ∈ children) : ∃ block, child.params? codec nameOf = some block := by
  obtain ⟨blocks, all, -⟩ := exists_blocks encoded
  obtain ⟨block, -, own⟩ := exists_of_forall₂ all first
  exact ⟨block, own⟩

end Child

namespace Node

/-- A mapping at a structure that holds nothing, or nothing but such mappings. -/
inductive Hollow : Node → Value → Prop
  | mapping {heading members entries}
      (each : ∀ entry ∈ entries, ∀ member, findBinding? entry.1.shown members = some member →
        Hollow member entry.2) :
      Hollow (.structure heading members) (.map entries)

variable {node : Node} {value : Value} {codec : BlobCodec} {name : WireName} {params : List Param}

/-- Nothing is sent for hollow values, and for no others. -/
theorem hollow_iff (encodable : node.Encodable value) :
    node.Hollow value ↔ ∀ visit, ¬ node.Sends value visit := by
  induction node generalizing value with
  | scalar heading leaf =>
      constructor
      · rintro ⟨⟩
      · intro silent
        exact absurd ⟨.here, by simp [Emits]⟩ (silent ⟨[], .scalar heading leaf, value⟩)
  | list heading member join ih =>
      constructor
      · rintro ⟨⟩
      · intro silent
        have emits : (Node.list heading member join).Emits value :=
          emits_list_iff.mpr fun visit below => silent visit (sends_iff.mpr (.inr below))
        exact absurd ⟨.here, emits⟩ (silent ⟨[], .list heading member join, value⟩)
  | members heading nodes ih =>
      obtain ⟨entries, rfl, -⟩ := encodable Base64.encode _ _ _ .here
      constructor
      · intro hollow visit sent
        cases hollow with
        | mapping each =>
            rcases sends_iff.mp sent with ⟨-, emits⟩ | ⟨child, first, lower, below, -⟩
            · simp [Emits] at emits
            · obtain ⟨index, key, inner, member, at_, found, rfl⟩ := mem_children_structure.mp first
              have empty := each _ (List.mem_of_getElem? at_) member found
              have known := mem_of_findBinding? found
              exact (ih member known (encodable.child first)).mp empty lower below
      · intro silent
        refine .mapping fun entry inside member found => ?_
        obtain ⟨index, at_⟩ := List.mem_iff_getElem?.mp inside
        have first : ⟨.entry index entry.1.shown member.wire, member, entry.2⟩ ∈
            (Node.structure heading nodes).children (.map entries) :=
          mem_children_structure.mpr ⟨index, _, _, member, at_, found, rfl⟩
        have known := mem_of_findBinding? found
        refine (ih member known (encodable.child first)).mpr fun visit sent => ?_
        exact silent _ (sends_iff.mpr (.inr ⟨_, first, visit, sent, rfl⟩))

/-- All parameters of a value are named after it, and hollow values have none. -/
theorem params_of_encodable (encodable : node.Encodable value)
    (encoded : node.params? codec value name = some params) :
    (params = [] ↔ node.Hollow value) ∧
      ∀ param ∈ params, ∃ way, param.name = Way.nameFrom name way := by
  obtain ⟨emissions, sent, written⟩ := node.exists_emissions value encodable
  obtain ⟨also, encodedAlso, all⟩ := written codec name
  obtain rfl : also = params := Option.some.inj (encodedAlso.symm.trans encoded)
  constructor
  · rw [hollow_iff encodable, ← List.length_eq_zero_iff, ← all.length_eq, List.length_eq_zero_iff,
      List.eq_nil_iff_forall_not_mem]
    exact forall_congr' fun visit => not_congr (sent.mem_iff visit)
  · intro param member
    obtain ⟨visit, -, wrote⟩ := exists_of_forall₂ all.flip member
    exact ⟨visit.way, wrote.1⟩

/-! Elements. -/

section Elements

variable {heading : Heading} {member : Node} {join : ListJoin} {elements : List Value}

/-- The element of a number leaves parameters. -/
def Shows (member : Node) (elements : List Value) (index : Nat) : Prop :=
  ∃ element, elements[index]? = some element ∧ ¬ member.Hollow element

theorem not_shows_iff : (∀ index, ¬ member.Shows elements index) ↔
    ∀ element ∈ elements, member.Hollow element := by
  constructor
  · intro none element inside
    obtain ⟨index, at_⟩ := List.mem_iff_getElem?.mp inside
    by_contra shown
    exact none index ⟨element, at_, shown⟩
  · rintro all index ⟨element, at_, shown⟩
    exact shown (all element (List.mem_of_getElem? at_))

section Encoded

variable (encodable : (Node.list heading member join).Encodable value)
  (shape : value.elements? = some elements)

include encodable shape

theorem exists_isOf_iff
    (encoded : Child.paramsOfAll codec (Way.nameFrom name)
      ((Node.list heading member join).children value) = some params) :
    (∀ param ∈ params, ∃ index, param.IsOf name join index) ∧
      ∀ index, (∃ param ∈ params, param.IsOf name join index) ↔ member.Shows elements index := by
  have own : ∀ param ∈ params,
      ∃ index, param.IsOf name join index ∧ member.Shows elements index := by
    intro param inside
    obtain ⟨child, first, block, block_eq, inBlock⟩ := (Child.mem_paramsOfAll encoded).mp inside
    obtain ⟨index, element, at_, rfl⟩ := (mem_children_list shape).mp first
    obtain ⟨empty_iff, names⟩ := params_of_encodable (encodable.child first) block_eq
    refine ⟨index, names param inBlock, element, at_, fun hollow => ?_⟩
    rw [empty_iff.mpr hollow] at inBlock
    exact List.not_mem_nil inBlock
  refine ⟨fun param inside => (own param inside).imp fun _ => And.left, fun index => ⟨?_, ?_⟩⟩
  · rintro ⟨param, inside, here⟩
    obtain ⟨other, there, shows⟩ := own param inside
    exact here.unique there ▸ shows
  · rintro ⟨element, at_, shown⟩
    have first : ⟨.element index join, member, element⟩ ∈
        (Node.list heading member join).children value :=
      (mem_children_list shape).mpr ⟨index, element, at_, rfl⟩
    obtain ⟨block, block_eq⟩ := Child.exists_block encoded first
    obtain ⟨empty_iff, names⟩ := params_of_encodable (encodable.child first) block_eq
    obtain ⟨param, inBlock⟩ := List.exists_mem_of_ne_nil block (mt empty_iff.mp shown)
    exact ⟨param, (Child.mem_paramsOfAll encoded).mpr ⟨_, first, block, block_eq, inBlock⟩,
      names param inBlock⟩

/-- The parameters of a list tell which elements leave parameters; where none does, the empty
parameter stands alone. -/
theorem shows_of_params
    (encoded : (Node.list heading member join).params? codec value name = some params) :
    (params = [⟨name, []⟩] ↔ ∀ element ∈ elements, member.Hollow element) ∧
      ∀ index, (∃ param ∈ params, param.IsOf name join index) ↔ member.Shows elements index := by
  rw [params?_list shape] at encoded
  obtain ⟨inner, innerEncoded, rfl⟩ := Option.map_eq_some_iff.mp encoded
  obtain ⟨numbered, shown_iff⟩ := exists_isOf_iff encodable shape innerEncoded
  rw [← not_shows_iff]
  cases inner with
  | nil =>
      have none : ∀ index, ¬ member.Shows elements index := by
        intro index shows
        obtain ⟨param, inside, -⟩ := (shown_iff index).mpr shows
        exact List.not_mem_nil inside
      refine ⟨iff_of_true rfl none, fun index => iff_of_false ?_ (none index)⟩
      rintro ⟨param, inside, here⟩
      exact here.ne_marker (List.mem_singleton.mp inside)
  | cons param rest =>
      obtain ⟨index, here⟩ := numbered param List.mem_cons_self
      refine ⟨iff_of_false ?_ fun none => ?_, shown_iff⟩
      · exact fun same => here.ne_marker (List.cons.inj same).1
      · exact none index ((shown_iff index).mp ⟨param, List.mem_cons_self, here⟩)

end Encoded

end Elements

/-- An empty list leaves nothing but the empty parameter, and no other list does unless all its
elements are hollow. Where lists with the same parameters differ in length, all elements that the
shorter one has not are hollow. -/
theorem elements_of_params {heading : Heading} {member : Node} {join : ListJoin} {outer : Text}
    (valid : (Node.list heading member join).validate value outer = .ok ()) (codec : BlobCodec)
    (name : WireName) :
    ∃ elements params, value.elements? = some elements ∧
      (Node.list heading member join).params? codec value name = some params ∧
      (elements = [] → params = [⟨name, []⟩]) ∧
      (params = [⟨name, []⟩] → ∀ element ∈ elements, member.Hollow element) ∧
      ∀ other context others, (Node.list heading member join).validate other context = .ok () →
        other.elements? = some others →
        (Node.list heading member join).params? codec other name = some params →
        ∀ element ∈ others.drop elements.length, member.Hollow element := by
  have fits : ∀ value outer, (Node.list heading member join).validate value outer = .ok () →
      (Node.list heading member join).Encodable value := fun value outer valid =>
    Sound.encodable ((validate_reportsFirst _ value outer).ok_iff.mp valid)
  have encodable := fits value outer valid
  obtain ⟨elements, shape⟩ := encodable codec _ _ _ .here
  obtain ⟨_, -, written⟩ := exists_emissions _ value encodable
  obtain ⟨params, encoded, -⟩ := written codec name
  obtain ⟨marker_iff, shown_iff⟩ := shows_of_params encodable shape encoded
  refine ⟨elements, params, shape, encoded, ?_, marker_iff.mp, ?_⟩
  · rintro rfl
    exact marker_iff.mpr nofun
  · intro other context others otherValid otherShape same element beyond
    obtain ⟨-, otherShown_iff⟩ := shows_of_params (fits other context otherValid) otherShape same
    by_contra shown
    obtain ⟨index, at_⟩ := List.mem_iff_getElem?.mp beyond
    rw [List.getElem?_drop] at at_
    have shows : member.Shows elements (elements.length + index) :=
      (shown_iff _).mp ((otherShown_iff _).mpr ⟨element, at_, shown⟩)
    obtain ⟨inside, found, -⟩ := shows
    simp at found

/-- Filters that may be empty. -/
def looseFilter : Node :=
  .list ⟨.plain "Filter", "filter", false⟩
    (.structure ⟨.plain listMemberName, listMemberName, false⟩ [.default (.plain "Name")]) .membered

def zoneFilter : Value := .map [(.text "name", .text "zone")]

/-- A filter, and the same with an empty one after it. -/
theorem looseFilter_elements_of_params :
    looseFilter.validate (.list [zoneFilter]) [] = .ok () ∧
    looseFilter.validate (.list [zoneFilter, .map []]) [] = .ok () ∧
    ∃ params, looseFilter.params? Base64.encode (.list [zoneFilter]) looseFilter.wire =
        some params ∧
      looseFilter.params? Base64.encode (.list [zoneFilter, .map []]) looseFilter.wire =
        some params ∧
      params ≠ [⟨looseFilter.wire, []⟩] ∧ looseFilter.listMemberOf.Hollow (.map []) := by
  have valid : looseFilter.validate (.list [zoneFilter]) [] = .ok () := rfl
  have longer : looseFilter.validate (.list [zoneFilter, .map []]) [] = .ok () := rfl
  have shown : ¬ looseFilter.listMemberOf.Hollow zoneFilter := by
    rintro ⟨each⟩
    cases each _ List.mem_cons_self (.default (.plain "Name")) rfl
  obtain ⟨_, params, shape, encoded, -, hollow, beyond⟩ :=
    elements_of_params valid Base64.encode looseFilter.wire
  cases shape
  have same : looseFilter.params? Base64.encode (.list [zoneFilter, .map []]) looseFilter.wire =
      some params := encoded
  exact ⟨valid, longer, params, encoded, same,
    fun empty => shown (hollow empty _ List.mem_cons_self),
    beyond _ _ _ longer rfl same _ List.mem_cons_self⟩

end Node

namespace Schema

def looseFilters : Schema := ⟨[Node.looseFilter]⟩

/-- Empty filters leave nothing: at the end of a list of filters they are lost, and a list of nothing
else leaves what a list of no filters does. -/
theorem looseFilters_confuse :
    looseFilters.PlainlyReachable ∧ Node.looseFilter ∈ looseFilters.options ∧
    (∀ filters ∈ [[Node.zoneFilter], [Node.zoneFilter, .map []], [], [.map []]],
      looseFilters.validate (.map [(.text "filter", .list filters)]) = .ok ()) ∧
    Node.looseFilter.params? Base64.encode (.list [Node.zoneFilter]) Node.looseFilter.wire =
      Node.looseFilter.params? Base64.encode (.list [Node.zoneFilter, .map []])
        Node.looseFilter.wire ∧
    ¬ (Node.looseFilter.params? Base64.encode (.list [.map []]) Node.looseFilter.wire =
        some [⟨Node.looseFilter.wire, []⟩] ↔ (Value.list [.map []]).elements? = some []) := by
  let member : Value := .map [(.text "structure", .map [(.text "Name", .null)])]
  let configuration : Value :=
    .list [.map [(.text "Filter", .list [.map [(.text "membered_list", member)]])]]
  have plain : configuration.NamesPlainly := by
    intro items found named
    cases found
    simp
  have built : empty.customize configuration = .ok looseFilters := rfl
  refine ⟨.customize .empty plain built, List.mem_cons_self, ?_, rfl, fun means => ?_⟩
  · simp only [List.forall_mem_cons]
    exact ⟨rfl, rfl, rfl, rfl, nofun⟩
  · have none := means.mp rfl
    cases none

end Schema

end QueryOptions
