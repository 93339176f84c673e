import Mathlib.Data.List.Forall2
import QueryOptions.Proofs.Visit

namespace QueryOptions

/-! What a request sends. Scalars are sent, and so is a list below which nothing is sent; structures
are not. The parameters are the sent visits in depth-first order, each under the name that its way
spells. -/

namespace Node

/-- Whether a value under a node leaves a parameter of its own. -/
def Emits (node : Node) (value : Value) : Prop :=
  match node with
  | .scalar _ _ => True
  | .list heading member join => ∀ way inner found, (moved : way ≠ []) →
      (reached : (Node.list heading member join).Reaches value way inner found) →
      ¬ inner.Emits found
  | .structure _ _ => False
termination_by sizeOf node
decreasing_by exact reached.sizeOf_lt moved

/-- The encoder can go on from a value under a node: a scalar has a text, a list has elements, and
every key of a mapping names a member. -/
def Encodes (codec : BlobCodec) (node : Node) (value : Value) : Prop :=
  match node with
  | .scalar _ leaf => ∃ text, leaf.encode? codec value = some text
  | .list _ _ _ => ∃ elements, value.elements? = some elements
  | .structure _ members => ∃ entries, value = .map entries ∧
      ∀ entry ∈ entries, ∃ member, findBinding? entry.1.shown members = some member

/-- The visit is to a value, at or below this one, that leaves a parameter of its own. -/
structure Sends (node : Node) (value : Value) (visit : Visit) : Prop where
  reached : node.Reaches value visit.way visit.node visit.value
  emits : visit.node.Emits visit.value

/-- The sent visits in depth-first order. -/
structure Emissions (node : Node) (value : Value) (emissions : List Visit) : Prop where
  ordered : emissions.Pairwise fun left right => left.way.site.Before right.way.site
  mem_iff : ∀ visit, visit ∈ emissions ↔ node.Sends value visit

end Node

/-! Names. Each step adds a name of its own to the name of the value above, with a joint between
the two; the name of an option stands alone. -/

namespace Step

def joint : Step → Text
  | .element _ join => join.text
  | .entry _ _ _ => "."

def ownName : Step → WireName
  | .element index _ => .plain (Text.ofNat (index + 1))
  | .entry _ _ wire => wire

def extend (name : WireName) (step : Step) : WireName :=
  .plain (name.spelling ++ step.joint ++ step.ownName.spelling)

end Step

namespace Way

def nameFrom (name : WireName) (way : Way) : WireName := way.foldl Step.extend name

/-- The name of a value below the options of a request. -/
def name : Way → WireName
  | [] => .plain []
  | first :: rest => nameFrom first.ownName rest

end Way

namespace Visit

def text? (codec : BlobCodec) (visit : Visit) : Option Text :=
  match visit.node with
  | .scalar _ leaf => leaf.encode? codec visit.value
  | .list _ _ _ => some []
  | .structure _ _ => none

/-- The parameter of a visit, where the way gives the name. -/
def Writes (codec : BlobCodec) (nameOf : Way → WireName) (visit : Visit) (param : Param) : Prop :=
  param.name = nameOf visit.way ∧ visit.text? codec = some param.value

end Visit

namespace Node

/-- Every position of a value can be encoded. -/
def Encodable (node : Node) (value : Value) : Prop :=
  ∀ codec way inner found, node.Reaches value way inner found → inner.Encodes codec found

theorem Encodable.child {node : Node} {value : Value} {child : Child}
    (encodable : node.Encodable value) (member : child ∈ node.children value) :
    child.node.Encodable child.value :=
  fun codec _ _ _ reached => encodable codec _ _ _ (.down member reached)

/-- The encoder writes these visits and nothing else. -/
def WritesAll (node : Node) (value : Value) (emissions : List Visit) : Prop :=
  ∀ codec name, ∃ params, node.params? codec value name = some params ∧
    List.Forall₂ (Visit.Writes codec (Way.nameFrom name)) emissions params

end Node

/-! Children in a row. -/

namespace Child

def params? (codec : BlobCodec) (nameOf : Way → WireName) (child : Child) : Option (List Param) :=
  child.node.params? codec child.value (nameOf [child.step])

def paramsOfAll (codec : BlobCodec) (nameOf : Way → WireName) : List Child → Option (List Param)
  | [] => some []
  | child :: rest => do
      let first ← child.params? codec nameOf
      return first ++ (← paramsOfAll codec nameOf rest)

/-- A visit of something that is sent at or below one of the children. -/
def EmitsBelow (children : List Child) (visit : Visit) : Prop :=
  ∃ child ∈ children, ∃ lower : Visit,
    child.node.Sends child.value lower ∧ visit = lower.under child.step

theorem EmitsBelow.site_eq {children : List Child} {visit : Visit}
    (below : EmitsBelow children visit) :
    ∃ child ∈ children, ∃ rest, visit.way.site = child.step.place :: rest := by
  obtain ⟨child, member, lower, -, rfl⟩ := below
  exact ⟨child, member, lower.way.site, rfl⟩

theorem exists_emissions {children : List Child}
    (ordered : children.Pairwise fun left right => left.step.place.Before right.step.place)
    (each : ∀ child ∈ children, ∃ emissions, child.node.Emissions child.value emissions ∧
      child.node.WritesAll child.value emissions) :
    ∃ emissions : List Visit,
      (emissions.Pairwise fun left right => left.way.site.Before right.way.site) ∧
      (∀ visit, visit ∈ emissions ↔ EmitsBelow children visit) ∧
      ∀ codec nameOf, (∀ step way, nameOf (step :: way) = Way.nameFrom (nameOf [step]) way) →
        ∃ params, paramsOfAll codec nameOf children = some params ∧
          List.Forall₂ (Visit.Writes codec nameOf) emissions params := by
  induction children with
  | nil => exact ⟨[], .nil, by simp [EmitsBelow], fun _ _ _ => ⟨[], rfl, .nil⟩⟩
  | cons child rest ih =>
      obtain ⟨before, orderedRest⟩ := List.pairwise_cons.mp ordered
      obtain ⟨first, firstSent, firstWritten⟩ := each child List.mem_cons_self
      obtain ⟨tail, tailOrdered, tailSent, tailWritten⟩ :=
        ih orderedRest fun other member => each other (List.mem_cons_of_mem _ member)
      refine ⟨first.map (Visit.under child.step) ++ tail, ?_, fun visit => ?_,
        fun codec nameOf stepwise => ?_⟩
      · refine List.pairwise_append.mpr ⟨?_, tailOrdered, ?_⟩
        · exact List.pairwise_map.mpr (firstSent.ordered.imp fun less => .cons less)
        · intro upper member lower below
          obtain ⟨visit, -, rfl⟩ := List.mem_map.mp member
          obtain ⟨other, inRest, site, same⟩ := ((tailSent lower).mp below).site_eq
          rw [same]
          exact .rel (before other inRest)
      · rw [List.mem_append, tailSent, List.mem_map]
        simp only [EmitsBelow, List.mem_cons, firstSent.mem_iff]
        constructor
        · intro sides
          rcases sides with ⟨lower, sent, rfl⟩ | ⟨other, member, below⟩
          · exact ⟨child, .inl rfl, lower, sent, rfl⟩
          · exact ⟨other, .inr member, below⟩
        · intro below
          obtain ⟨other, rfl | member, lower, sent, rfl⟩ := below
          · exact .inl ⟨lower, sent, rfl⟩
          · exact .inr ⟨other, member, lower, sent, rfl⟩
      · obtain ⟨params, encoded, written⟩ := firstWritten codec (nameOf [child.step])
        obtain ⟨others, encodedRest, writtenRest⟩ := tailWritten codec nameOf stepwise
        refine ⟨params ++ others, ?_, ?_⟩
        · simp only [paramsOfAll, Child.params?, encoded, encodedRest, Option.bind_eq_bind,
            Option.bind_some, pure]
        · have writtenFirst : List.Forall₂ (Visit.Writes codec nameOf)
              (first.map (Visit.under child.step)) params := by
            refine List.forall₂_map_left_iff.mpr (written.imp fun visit param wrote => ?_)
            exact ⟨wrote.1.trans (stepwise child.step visit.way).symm, wrote.2⟩
          exact List.rel_append writtenFirst writtenRest

end Child

/-! The loops of the encoder over the children. -/

theorem paramsOfElements_eq (codec : BlobCodec) (member : Node) (join : ListJoin) (name : WireName)
    (start : Nat) (elements : List Value) :
    paramsOfElements (member.params? codec) name join (start + 1) elements =
      Child.paramsOfAll codec (Way.nameFrom name)
        ((elements.zipIdx start).map (Child.ofElement member join)) := by
  induction elements generalizing start with
  | nil => rfl
  | cons element rest ih =>
      rw [paramsOfElements, ih, List.zipIdx_cons]
      rfl

theorem paramsOfEntries_eq (codec : BlobCodec) (members : List Node) (named : WireName → WireName)
    (nameOf : Way → WireName) (same : ∀ index key wire, nameOf [.entry index key wire] = named wire)
    (start : Nat) {entries : List (Value × Value)}
    (known : ∀ entry ∈ entries, ∃ member, findBinding? entry.1.shown members = some member) :
    paramsOfEntries (fun binding => (findBinding? binding members).map fun member value =>
        member.params? codec value (named member.wire)) entries =
      Child.paramsOfAll codec nameOf
        ((entries.zipIdx start).filterMap (Child.ofEntry? members)) := by
  induction entries generalizing start with
  | nil => rfl
  | cons entry rest ih =>
      obtain ⟨key, value⟩ := entry
      obtain ⟨member, found⟩ := known (key, value) List.mem_cons_self
      rw [paramsOfEntries, List.zipIdx_cons,
        ih (start + 1) fun other inRest => known other (List.mem_cons_of_mem _ inRest)]
      simp only [found, List.filterMap_cons, Child.ofEntry?, Option.map_some, Child.paramsOfAll,
        Child.params?, same]
      rfl

namespace Node

theorem sends_iff {node : Node} {value : Value} {visit : Visit} :
    node.Sends value visit ↔
      (visit = ⟨[], node, value⟩ ∧ node.Emits value) ∨
        Child.EmitsBelow (node.children value) visit := by
  obtain ⟨way, inner, found⟩ := visit
  constructor
  · intro sends
    obtain ⟨reached, emits⟩ := sends
    cases reached with
    | here => exact .inl ⟨rfl, emits⟩
    | @down _ _ rest _ _ child first lower =>
        exact .inr ⟨child, first, ⟨rest, inner, found⟩, ⟨lower, emits⟩, rfl⟩
  · intro parts
    rcases parts with ⟨same, emits⟩ | ⟨child, first, lower, ⟨reached, emits⟩, same⟩
    · cases same
      exact ⟨.here, emits⟩
    · cases same
      exact ⟨.down first reached, emits⟩

/-! What the encoder does at one value. -/

section Params

variable {codec : BlobCodec} {heading : Heading} {name : WireName}

theorem params?_list {member : Node} {join : ListJoin} {value : Value} {elements : List Value}
    (found : value.elements? = some elements) :
    (Node.list heading member join).params? codec value name =
      (Child.paramsOfAll codec (Way.nameFrom name)
        ((Node.list heading member join).children value)).map fun params =>
          if params.isEmpty then [⟨name, []⟩] else params := by
  simp only [params?, found, Option.bind_eq_bind, Option.bind_some, children, Option.getD_some,
    paramsOfElements_eq codec member join name 0]
  cases Child.paramsOfAll codec (Way.nameFrom name)
    (elements.zipIdx.map (Child.ofElement member join)) <;> rfl

theorem params?_structure {members : List Node} {entries : List (Value × Value)}
    (known : ∀ entry ∈ entries, ∃ member, findBinding? entry.1.shown members = some member) :
    (Node.structure heading members).params? codec (.map entries) name =
      Child.paramsOfAll codec (Way.nameFrom name)
        ((Node.structure heading members).children (.map entries)) := by
  rw [params?, funext (memberParams?_eq_map codec members name)]
  exact paramsOfEntries_eq codec members (memberName name) (Way.nameFrom name)
    (fun _ _ _ => rfl) 0 known

end Params

/-- A list leaves its empty parameter when, and only when, nothing below it is sent. -/
theorem emits_list_iff {heading : Heading} {member : Node} {join : ListJoin} {value : Value} :
    (Node.list heading member join).Emits value ↔
      ∀ visit, ¬ Child.EmitsBelow ((Node.list heading member join).children value) visit := by
  rw [Emits]
  constructor
  · intro silent visit below
    obtain ⟨child, first, lower, ⟨reached, emits⟩, rfl⟩ := below
    exact silent _ _ _ (List.cons_ne_nil _ _) (.down first reached) emits
  · intro silent way inner found moved reached emits
    cases reached with
    | here => exact moved rfl
    | @down _ _ rest _ _ child first lower =>
        exact silent _ ⟨child, first, ⟨rest, inner, found⟩, ⟨lower, emits⟩, rfl⟩

theorem exists_emissions (node : Node) (value : Value) (encodable : node.Encodable value) :
    ∃ emissions, node.Emissions value emissions ∧ node.WritesAll value emissions := by
  obtain ⟨emissions, ordered, sent, written⟩ := Child.exists_emissions
    (node.pairwise_children value) fun child first =>
      child.node.exists_emissions child.value (encodable.child first)
  cases node with
  | scalar heading leaf =>
      refine ⟨[⟨[], .scalar heading leaf, value⟩], ⟨List.pairwise_singleton _ _, fun visit => ?_⟩,
        fun codec name => ?_⟩
      · rw [sends_iff]
        simp [Emits, Child.EmitsBelow, children]
      · obtain ⟨text, encoded⟩ := encodable codec _ _ _ .here
        exact ⟨[⟨name, text⟩], by simp [params?, encoded], .cons ⟨rfl, encoded⟩ .nil⟩
  | list heading member join =>
      -- The list itself is sent just if its elements leave nothing.
      by_cases silent : emissions = []
      · subst silent
        have emits : (Node.list heading member join).Emits value :=
          emits_list_iff.mpr fun visit below => by simpa using (sent visit).mpr below
        refine ⟨[⟨[], .list heading member join, value⟩],
          ⟨List.pairwise_singleton _ _, fun visit => ?_⟩, fun codec name => ?_⟩
        · rw [sends_iff, ← sent visit]
          simp [emits]
        · obtain ⟨elements, found⟩ := encodable codec _ _ _ .here
          obtain ⟨params, encoded, none⟩ := written codec (Way.nameFrom name) fun _ _ => rfl
          cases none
          refine ⟨[⟨name, []⟩], ?_, .cons ⟨rfl, rfl⟩ .nil⟩
          simp [params?_list found, encoded]
      · have quiet : ¬ (Node.list heading member join).Emits value := fun emits => by
          obtain ⟨visit, member⟩ := List.exists_mem_of_ne_nil _ silent
          exact emits_list_iff.mp emits visit ((sent visit).mp member)
        refine ⟨emissions, ⟨ordered, fun visit => ?_⟩, fun codec name => ?_⟩
        · rw [sends_iff, ← sent visit]
          simp [quiet]
        · obtain ⟨elements, found⟩ := encodable codec _ _ _ .here
          obtain ⟨params, encoded, all⟩ := written codec (Way.nameFrom name) fun _ _ => rfl
          have nonempty : params ≠ [] := by
            intro empty
            subst empty
            cases all
            exact silent rfl
          exact ⟨params, by simp [params?_list found, encoded, nonempty], all⟩
  | «structure» heading members =>
      refine ⟨emissions, ⟨ordered, fun visit => ?_⟩, fun codec name => ?_⟩
      · rw [sends_iff, ← sent visit]
        simp [Emits]
      · obtain ⟨entries, rfl, known⟩ := encodable codec _ _ _ .here
        obtain ⟨params, encoded, all⟩ := written codec (Way.nameFrom name) fun _ _ => rfl
        exact ⟨params, (params?_structure known).trans encoded, all⟩
termination_by sizeOf node
decreasing_by exact sizeOf_child_lt first

end Node

theorem Schema.params?_eq {codec : BlobCodec} {schema : Schema} {entries : List (Value × Value)}
    (known : ∀ entry ∈ entries, ∃ member,
      findBinding? entry.1.shown schema.options = some member) :
    schema.params? codec entries =
      Child.paramsOfAll codec Way.name (schema.root.children (.map entries)) :=
  paramsOfEntries_eq codec schema.options id Way.name (fun _ _ _ => rfl) 0 known

theorem Schema.exists_emissions (schema : Schema) (entries : List (Value × Value))
    (encodable : schema.root.Encodable (.map entries)) :
    ∃ emissions, schema.root.Emissions (.map entries) emissions ∧
      ∀ codec, ∃ params, schema.params? codec entries = some params ∧
        List.Forall₂ (Visit.Writes codec Way.name) emissions params := by
  obtain ⟨emissions, ordered, sent, written⟩ := Child.exists_emissions
    (schema.root.pairwise_children (.map entries)) fun child first =>
      child.node.exists_emissions child.value (encodable.child first)
  refine ⟨emissions, ⟨ordered, fun visit => ?_⟩, fun codec => ?_⟩
  · rw [Node.sends_iff, ← sent visit]
    simp [Schema.root, Node.Emits]
  · obtain ⟨_, same, known⟩ := encodable codec _ _ _ .here
    cases same
    obtain ⟨params, encoded, all⟩ := written codec Way.name fun _ _ => rfl
    exact ⟨params, (params?_eq known).trans encoded, all⟩

end QueryOptions
