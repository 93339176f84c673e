import Mathlib.Data.List.Lex
import QueryOptions.Proofs.Lookup
import QueryOptions.Request.Params

namespace QueryOptions

/-! Visits to the values below a node. Schema and value are gone down together: from a collection
at a list node to one of its elements, from a mapping at a structure node to the value of an entry
whose key names a member. The way down says where a value stands in messages and what it is called
on the wire. -/

/-- One step down. Elements and entries are numbered from zero in the order of the caller. -/
inductive Step where
  | element (index : Nat) (join : ListJoin)
  | entry (index : Nat) (key : Text) (wire : WireName)

abbrev Way := List Step

/-- A value met at the end of a way, with the node that it has to match. -/
structure Visit where
  way : Way
  node : Node
  value : Value

def Visit.under (step : Step) (visit : Visit) : Visit :=
  { visit with way := step :: visit.way }

/-- What lies one step down. -/
structure Child where
  step : Step
  node : Node
  value : Value

namespace Child

def ofElement (member : Node) (join : ListJoin) : Value × Nat → Child
  | (element, index) => ⟨.element index join, member, element⟩

/-- An entry leads on if its key names a member. -/
def ofEntry? (members : List Node) : (Value × Value) × Nat → Option Child
  | ((key, value), index) => (findBinding? key.shown members).map fun member =>
      ⟨.entry index key.shown member.wire, member, value⟩

end Child

namespace Node

def children : Node → Value → List Child
  | .list _ member join, value =>
      (value.elements?.getD []).zipIdx.map (Child.ofElement member join)
  | .structure _ members, .map entries => entries.zipIdx.filterMap (Child.ofEntry? members)
  | _, _ => []

theorem mem_children_list {heading : Heading} {member : Node} {join : ListJoin} {value : Value}
    {elements : List Value} (found : value.elements? = some elements) {child : Child} :
    child ∈ children (.list heading member join) value ↔
      ∃ index element, elements[index]? = some element ∧
        child = ⟨.element index join, member, element⟩ := by
  simp only [children, found, Option.getD_some, List.mem_map, Prod.exists,
    List.mem_zipIdx_iff_getElem?, Child.ofElement]
  constructor
  · intro member
    obtain ⟨element, index, at_, rfl⟩ := member
    exact ⟨index, element, at_, rfl⟩
  · intro position
    obtain ⟨index, element, at_, rfl⟩ := position
    exact ⟨element, index, at_, rfl⟩

theorem mem_children_structure {heading : Heading} {members : List Node}
    {entries : List (Value × Value)} {child : Child} :
    child ∈ children (.structure heading members) (.map entries) ↔
      ∃ index key value member, entries[index]? = some (key, value) ∧
        findBinding? key.shown members = some member ∧
        child = ⟨.entry index key.shown member.wire, member, value⟩ := by
  simp only [children, List.mem_filterMap, Prod.exists, List.mem_zipIdx_iff_getElem?,
    Child.ofEntry?, Option.map_eq_some_iff]
  constructor
  · intro member
    obtain ⟨key, value, index, at_, member, found, rfl⟩ := member
    exact ⟨index, key, value, member, at_, found, rfl⟩
  · intro position
    obtain ⟨index, key, value, member, at_, found, rfl⟩ := position
    exact ⟨key, value, index, at_, member, found, rfl⟩

/-- The two ways to get from a value to one below it. -/
inductive LeadsTo : Node → Value → Child → Prop
  | element {heading member join value elements index element}
      (shape : value.elements? = some elements) (at_ : elements[index]? = some element) :
      LeadsTo (.list heading member join) value ⟨.element index join, member, element⟩
  | entry {heading members entries index} {key value : Value} {member : Node}
      (supplied : entries[index]? = some (key, value))
      (found : findBinding? key.shown members = some member) :
      LeadsTo (.structure heading members) (.map entries)
        ⟨.entry index key.shown member.wire, member, value⟩

theorem leadsTo_of_mem_children {node : Node} {value : Value} {child : Child}
    (first : child ∈ node.children value) : node.LeadsTo value child := by
  cases node with
  | scalar heading leaf => simp [children] at first
  | list heading member join =>
      cases shape : value.elements? with
      | none => simp [children, shape] at first
      | some elements =>
          obtain ⟨index, element, at_, rfl⟩ := (mem_children_list shape).mp first
          exact .element shape at_
  | «structure» heading members =>
      cases value with
      | map entries =>
          obtain ⟨index, key, value, member, supplied, found, rfl⟩ :=
            mem_children_structure.mp first
          exact .entry supplied found
      | _ => simp [children] at first

theorem sizeOf_child_lt {node : Node} {value : Value} {child : Child}
    (first : child ∈ node.children value) : sizeOf child.node < sizeOf node := by
  cases leadsTo_of_mem_children first with
  | element shape at_ =>
      simp only [Node.list.sizeOf_spec]
      omega
  | entry supplied found =>
      have smaller := List.sizeOf_lt_of_mem (mem_of_findBinding? found)
      simp only [Node.structure.sizeOf_spec]
      omega

/-- From a value under a node a way leads down to another value under a node of its own. -/
inductive Reaches : Node → Value → Way → Node → Value → Prop
  | here {node value} : Reaches node value [] node value
  | down {node value way inner found} {child : Child} (first : child ∈ node.children value)
      (rest : Reaches child.node child.value way inner found) :
      Reaches node value (child.step :: way) inner found

theorem Reaches.element {heading : Heading} {member : Node} {join : ListJoin} {value element : Value}
    {elements : List Value} {index : Nat} (shape : value.elements? = some elements)
    (at_ : elements[index]? = some element) {way : Way} {inner : Node} {found : Value}
    (rest : member.Reaches element way inner found) :
    (Node.list heading member join).Reaches value (.element index join :: way) inner found :=
  .down ((mem_children_list shape).mpr ⟨index, element, at_, rfl⟩) rest

theorem Reaches.entry {heading : Heading} {members : List Node} {entries : List (Value × Value)}
    {index : Nat} {key value : Value} (supplied : entries[index]? = some (key, value))
    {member : Node} (named : findBinding? key.shown members = some member) {way : Way}
    {inner : Node} {found : Value} (rest : member.Reaches value way inner found) :
    (Node.structure heading members).Reaches (.map entries)
      (.entry index key.shown member.wire :: way) inner found :=
  .down (mem_children_structure.mpr ⟨index, key, value, member, supplied, named, rfl⟩) rest

theorem Reaches.sizeOf_lt {node inner : Node} {value found : Value} {way : Way}
    (reached : node.Reaches value way inner found) (moved : way ≠ []) :
    sizeOf inner < sizeOf node := by
  induction reached with
  | here => contradiction
  | @down _ _ rest _ _ _ first lower ih =>
      have smaller := sizeOf_child_lt first
      by_cases last : rest = []
      · subst last
        cases lower
        exact smaller
      · exact (ih last).trans smaller

end Node

/-- The options of a request are the entries of one structure, whose members are the options of the
schema. -/
def Schema.root (schema : Schema) : Node := .structure ⟨.plain [], [], false⟩ schema.options

/-! What comes first. At one value the elements or entries come in their order, and after all of
them the members that are absent, in the order of their declaration. A value comes before everything
below it. -/

inductive Place where
  | item (index : Nat)
  | absent (index : Nat)
deriving DecidableEq

inductive Place.Before : Place → Place → Prop
  | items {left right : Nat} (less : left < right) : Before (.item left) (.item right)
  | mixed {left right : Nat} : Before (.item left) (.absent right)
  | absents {left right : Nat} (less : left < right) : Before (.absent left) (.absent right)

instance : Std.Asymm Place.Before where
  asymm left right before after := by
    cases before <;> cases after <;> omega

abbrev Site := List Place

/-- The depth-first order. -/
abbrev Site.Before : Site → Site → Prop := List.Lex Place.Before

def Step.place : Step → Place
  | .element index _ => .item index
  | .entry index _ _ => .item index

def Way.site (way : Way) : Site := way.map Step.place

theorem pairwise_zipIdx {α : Type} (items : List α) (start : Nat) :
    (items.zipIdx start).Pairwise fun left right => left.2 < right.2 := by
  rw [← List.pairwise_map (f := Prod.snd), List.zipIdx_map_snd]
  exact List.pairwise_lt_range'

namespace Node

theorem pairwise_children (node : Node) (value : Value) : (node.children value).Pairwise
    fun left right => left.step.place.Before right.step.place := by
  cases node with
  | scalar heading leaf => exact .nil
  | list heading member join =>
      exact List.pairwise_map.mpr ((pairwise_zipIdx _ 0).imp fun less => .items less)
  | «structure» heading members =>
      cases value with
      | map entries =>
          refine List.pairwise_filterMap.mpr ((pairwise_zipIdx entries 0).imp ?_)
          intro left right less first firstFound second secondFound
          obtain ⟨_, -, rfl⟩ := Option.map_eq_some_iff.mp firstFound
          obtain ⟨_, -, rfl⟩ := Option.map_eq_some_iff.mp secondFound
          exact .items less
      | _ => exact .nil

end Node

end QueryOptions
