import Mathlib.Data.List.Induction
import QueryOptions.Proofs.Acceptance

namespace QueryOptions

/-! Customizing once more. What descriptors leave behind is decided by the last of them that bears
on it, and lists and structures go on with the members that they have. Descriptors that have been
applied change nothing when they are applied again, nor does a configuration that has been taken
in. -/

/-! The heading: a descriptor takes back what it did earlier. -/

def Heading.apply (heading : Heading) : Descriptor → Heading
  | .required => { heading with required := true }
  | .rename target => { heading with binding := Naming.bindingName target }
  | _ => heading

namespace Heading

theorem foldl_apply_absorbs (heading : Heading) (descriptor : Descriptor)
    (others : List Descriptor) :
    (others.foldl apply (heading.apply descriptor)).apply descriptor =
      (others.foldl apply heading).apply descriptor := by
  induction others generalizing heading with
  | nil => cases descriptor <;> rfl
  | cons other rest ih =>
      have apart : ((heading.apply descriptor).apply other).apply descriptor =
          (heading.apply other).apply descriptor := by
        cases descriptor <;> cases other <;> rfl
      rw [List.foldl_cons, List.foldl_cons, ← ih, apart, ih]

theorem foldl_apply_twice (heading : Heading) (descriptors : List Descriptor) :
    descriptors.foldl apply (descriptors.foldl apply heading) = descriptors.foldl apply heading := by
  induction descriptors using List.reverseRecOn with
  | nil => rfl
  | append_singleton others descriptor ih =>
      simp only [List.foldl_append, List.foldl_cons, List.foldl_nil]
      rw [foldl_apply_absorbs, ih]

end Heading

namespace Node

variable {heading : Heading}

@[simp] theorem heading_withHeading (node : Node) : (node.withHeading heading).heading = heading := by
  cases node <;> rfl

theorem heading_apply (node : Node) (descriptor : Descriptor) :
    (node.apply descriptor).heading = node.heading.apply descriptor := by
  cases descriptor <;> simp only [apply, heading_withHeading] <;> rfl

theorem heading_extend (node : Node) (descriptors : List Descriptor) :
    (node.extend descriptors).heading = descriptors.foldl Heading.apply node.heading := by
  induction descriptors generalizing node with
  | nil => rfl
  | cons descriptor rest ih => rw [extend, ih, heading_apply, List.foldl_cons]

theorem extend_concat (node : Node) (descriptors : List Descriptor) (descriptor : Descriptor) :
    node.extend (descriptors ++ [descriptor]) = (node.extend descriptors).apply descriptor := by
  rw [extend_append, extend, extend]

theorem apply_withHeading (node : Node) (descriptor : Descriptor) :
    (node.withHeading heading).apply descriptor =
      (node.apply descriptor).withHeading (heading.apply descriptor) := by
  cases node <;> cases descriptor <;> simp only [apply, withHeading] <;> rfl

theorem extend_withHeading (node : Node) (descriptors : List Descriptor) :
    (node.withHeading heading).extend descriptors =
      (node.extend descriptors).withHeading (descriptors.foldl Heading.apply heading) := by
  induction descriptors generalizing node heading with
  | nil => rfl
  | cons descriptor rest ih => rw [extend, apply_withHeading, ih, extend, List.foldl_cons]

theorem withHeading_heading (node : Node) : node.withHeading node.heading = node := by
  cases node <;> rfl

theorem listMemberOf_withHeading (node : Node) :
    (node.withHeading heading).listMemberOf = node.listMemberOf := by
  cases node <;> rfl

theorem members_withHeading (node : Node) : (node.withHeading heading).members = node.members := by
  cases node <;> rfl

theorem extendMembers_append (known : List Node) (first second : List (Text × List Descriptor)) :
    extendMembers known (first ++ second) = extendMembers (extendMembers known first) second := by
  simp only [extendMembers_eq_declareAll, plainBlocks, declareAll, List.map_append,
    List.foldl_append]

end Node

/-! The members of lists and structures: descriptors either put others in the place of those that
were there, whatever they were, or go on with them. -/

theorem sizeOf_append {α : Type} [SizeOf α] (first second : List α) :
    sizeOf (first ++ second) + 1 = sizeOf first + sizeOf second := by
  induction first with
  | nil => simp; omega
  | cons item rest ih => simp; omega

theorem sizeOf_concat {α : Type} [SizeOf α] (items : List α) (item : α) :
    sizeOf (items ++ [item]) = sizeOf items + sizeOf item + 1 := by
  have joined := sizeOf_append items [item]
  simp only [List.cons.sizeOf_spec, List.nil.sizeOf_spec] at joined
  omega

theorem sizeOf_blockOf_le (wire : Text) (members : List (Text × List Descriptor)) :
    sizeOf (blockOf wire (plainBlocks members)) ≤ sizeOf members := by
  induction members with
  | nil => simp [plainBlocks, blockOf]
  | cons member rest ih =>
      obtain ⟨name, block⟩ := member
      rw [plainBlocks, List.map_cons, blockOf_cons]
      have joined := sizeOf_append block (blockOf wire (plainBlocks rest))
      simp only [plainBlocks] at ih joined
      simp only [List.cons.sizeOf_spec, Prod.mk.sizeOf_spec]
      split <;> omega

namespace Node

variable {α β : Type} [SizeOf β] {view : Node → α} {advance : α → List β → α}

/-- What one descriptor does to a part of any node it holds of all descriptors together. -/
theorem view_extend (nil : ∀ part, advance part [] = part)
    (append : ∀ part first second, advance part (first ++ second) = advance (advance part first) second)
    (each : ∀ descriptor : Descriptor, (∃ fixed, ∀ node : Node, view (node.apply descriptor) = fixed) ∨
      ∃ items, sizeOf items ≤ sizeOf descriptor ∧
        ∀ node : Node, view (node.apply descriptor) = advance (view node) items)
    (descriptors : List Descriptor) :
    (∃ fixed, ∀ node : Node, view (node.extend descriptors) = fixed) ∨
      ∃ items, sizeOf items ≤ sizeOf descriptors ∧
        ∀ node : Node, view (node.extend descriptors) = advance (view node) items := by
  induction descriptors using List.reverseRecOn with
  | nil => exact .inr ⟨[], by simp, fun node => (nil _).symm⟩
  | append_singleton others descriptor ih =>
      simp only [extend_concat]
      rcases each descriptor with ⟨fixed, last⟩ | ⟨items, small, last⟩
      · exact .inl ⟨fixed, fun node => last _⟩
      · rcases ih with ⟨fixed, before⟩ | ⟨earlier, smaller, before⟩
        · exact .inl ⟨advance fixed items, fun node => by rw [last, before]⟩
        · refine .inr ⟨earlier ++ items, ?_, fun node => by rw [last, before, append]⟩
          have left := sizeOf_append earlier items
          rw [sizeOf_concat]
          omega

theorem listMemberOf_extend (descriptors : List Descriptor) :
    (∃ fixed, ∀ node : Node, (node.extend descriptors).listMemberOf = fixed) ∨
      ∃ block, sizeOf block ≤ sizeOf descriptors ∧
        ∀ node : Node, (node.extend descriptors).listMemberOf = node.listMemberOf.extend block := by
  refine view_extend (fun _ => rfl) extend_append (fun descriptor => ?_) descriptors
  cases descriptor with
  | leaf type => exact .inl ⟨listMember, fun node => rfl⟩
  | required => exact .inr ⟨[], by simp, fun node => listMemberOf_withHeading node⟩
  | rename target => exact .inr ⟨[], by simp, fun node => listMemberOf_withHeading node⟩
  | pattern => exact .inr ⟨[], by simp, fun node => rfl⟩
  | list join block => exact .inr ⟨block, by simp, fun node => rfl⟩
  | «structure» members => exact .inl ⟨listMember, fun node => rfl⟩

theorem members_extend (descriptors : List Descriptor) :
    (∃ fixed, ∀ node : Node, (node.extend descriptors).members = fixed) ∨
      ∃ declared, sizeOf declared ≤ sizeOf descriptors ∧
        ∀ node : Node, (node.extend descriptors).members = extendMembers node.members declared := by
  refine view_extend (fun _ => rfl) extendMembers_append (fun descriptor => ?_) descriptors
  cases descriptor with
  | leaf type => exact .inl ⟨[], fun node => rfl⟩
  | required => exact .inr ⟨[], by simp, fun node => members_withHeading node⟩
  | rename target => exact .inr ⟨[], by simp, fun node => members_withHeading node⟩
  | pattern => exact .inr ⟨[], by simp, fun node => rfl⟩
  | list join block => exact .inl ⟨[], fun node => rfl⟩
  | «structure» members => exact .inr ⟨members, by simp, fun node => rfl⟩

theorem heading_extend_twice (node other : Node) (descriptors : List Descriptor)
    (same : other.heading = (node.extend descriptors).heading) :
    (other.extend descriptors).heading = (node.extend descriptors).heading := by
  rw [heading_extend, same, heading_extend, Heading.foldl_apply_twice]

/-- A descriptor of the heading alone, after others that have settled. -/
theorem apply_settled_of_heading {descriptor : Descriptor} {node : Node}
    (others : List Descriptor) (settled : (node.extend others).extend others = node.extend others)
    (only : ∀ node : Node, node.apply descriptor = node.withHeading (node.heading.apply descriptor)) :
    (((node.extend others).apply descriptor).extend others).apply descriptor =
      (node.extend others).apply descriptor := by
  have heading := congrArg Node.heading settled
  rw [heading_extend (node.extend others)] at heading
  rw [only (node.extend others), extend_withHeading, settled, apply_withHeading,
    Heading.foldl_apply_absorbs, heading, ← only, ← heading_apply, withHeading_heading]

/-- Descriptors that have been applied change nothing when they are applied again. -/
theorem extend_extend (node : Node) (distinct : node.Everywhere DistinctWires)
    (descriptors : List Descriptor) :
    (node.extend descriptors).extend descriptors = node.extend descriptors := by
  -- By the last descriptor. What it extends has been extended by the same block, or the same
  -- members, that the descriptors before it bring with them; these together are smaller.
  rcases List.eq_nil_or_concat' descriptors with rfl | ⟨others, descriptor, rfl⟩
  · rfl
  have earlier := extend_extend node distinct others
  have headings : ∀ other : Node, other.heading = (node.extend others).heading →
      (other.extend others).heading = (node.extend others).heading :=
    fun other => heading_extend_twice node other others
  simp only [extend_concat]
  cases descriptor with
  | required => exact apply_settled_of_heading others earlier fun _ => rfl
  | rename target => exact apply_settled_of_heading others earlier fun _ => rfl
  | pattern => exact apply_settled_of_heading others earlier fun node => (withHeading_heading node).symm
  | leaf type =>
      have heading := headings (.scalar (node.extend others).heading type) rfl
      simp only [apply, heading]
  | list join block =>
      have heading := headings ((node.extend others).apply (.list join block))
        (heading_apply _ _)
      simp only [apply] at heading ⊢
      rw [heading]
      rcases listMemberOf_extend others with ⟨fixed, member⟩ | ⟨before, small, member⟩
      · rw [member, member]
      · have joined := extend_extend node.listMemberOf (everywhere_listMemberOf distinct)
          (before ++ block)
        simp only [extend_append] at joined
        rw [member, member, listMemberOf, joined]
  | «structure» members =>
      have heading := headings ((node.extend others).apply (.structure members))
        (heading_apply _ _)
      simp only [apply] at heading ⊢
      rw [heading]
      rcases members_extend others with ⟨fixed, level⟩ | ⟨before, small, level⟩
      · rw [level, level]
      · have settled : ∀ wire (member : Node), member.Everywhere DistinctWires →
            (member.extend (blockOf wire (plainBlocks (before ++ members)))).extend
                (blockOf wire (plainBlocks (before ++ members))) =
              member.extend (blockOf wire (plainBlocks (before ++ members))) :=
          fun wire member distinct => extend_extend member distinct _
        have joined := declareAll_declareAll (distinctWires_kept.members distinct) settled
        simp only [← extendMembers_eq_declareAll, extendMembers_append] at joined
        rw [level, level, Node.members, joined]
termination_by sizeOf descriptors
decreasing_by
  all_goals
    subst_vars
    rw [sizeOf_concat]
  · omega
  · have joined := sizeOf_append before block
    simp only [Descriptor.list.sizeOf_spec]
    omega
  · have part := sizeOf_blockOf_le wire (before ++ members)
    have joined := sizeOf_append before members
    simp only [Descriptor.structure.sizeOf_spec]
    omega

end Node

namespace Schema

/-- Reached by configurations of any kind. -/
abbrev Reachable : Schema → Prop := ReachableBy fun _ => True

theorem ReachableBy.reachable {permitted : Value → Prop} {schema : Schema}
    (reachable : ReachableBy permitted schema) : schema.Reachable := by
  induction reachable with
  | empty => exact .empty
  | customize _ _ built ih => exact .customize ih trivial built

/-- What no declaration breaks holds of all levels. -/
theorem Reachable.allLevels {property : List Node → Prop} (nil : property [])
    (step : ∀ level named, property level → property (declareIn level named)) {schema : Schema}
    (reachable : schema.Reachable) : Node.AllLevels property schema.options := by
  induction reachable with
  | empty => exact ⟨nil, nofun⟩
  | customize _ _ built ih =>
      obtain ⟨declared, -, rfl⟩ := customize_eq_ok_iff.mp built
      exact ih.declareAll nil step

theorem Reachable.distinctWires {schema : Schema} (reachable : schema.Reachable) :
    Node.AllLevels DistinctWires schema.options := by
  have empty : DistinctWires [] := List.nodup_nil
  exact reachable.allLevels empty fun _ named distinct => distinctWires_declareIn distinct named

/-- A configuration that a schema has taken in changes nothing when it is taken in again. -/
theorem customize_customized {base schema : Schema} {configuration : Value}
    (reachable : base.Reachable) (built : base.customize configuration = .ok schema) :
    schema.customize configuration = .ok schema := by
  obtain ⟨declared, read, rfl⟩ := customize_eq_ok_iff.mp built
  refine customize_eq_ok_iff.mpr ⟨declared, read, ?_⟩
  have settled := declareAll_declareAll reachable.distinctWires fun wire node distinct =>
    node.extend_extend distinct (blockOf wire declared)
  rw [settled]

/-- Filters whose values become structures on the way to numbers, and an owner that is declared
twice and by a kind that is then given up. -/
def retypedFilters : Value :=
  let values : Value := .list [.map [(.text "structure", .map [(.text "Unit", .text "String")])],
    .map [(.text "list", .text "integer")]]
  let members : Value := .list [.tuple [.text "Value", values],
    .tuple [.text "Name", .map [(.text "rename", .text "FilterName")]], .tuple [.text "Value", .null]]
  .list [.map [(.text "Owner", .list [.map [(.text "list", .text "blob")], .text "required"])],
    .map [(.text "Filter", .list [.map [(.text "membered_list", .map [(.text "structure", members)])]])],
    .kind (.leaf .timestamp),
    .map [(.text "Owner", .list [.text "string", .map [(.text "list", .text "timestamp")]])]]

theorem filters_customize_retypedFilters :
    ∃ schema, filters.Reachable ∧ filters.customize retypedFilters = .ok schema ∧
      schema.customize retypedFilters = .ok schema :=
  ⟨_, plainlyReachable_filters.reachable, rfl,
    customize_customized plainlyReachable_filters.reachable rfl⟩

end Schema

end QueryOptions
