import QueryOptions.Proofs.Reachable
import QueryOptions.Proofs.Request

namespace QueryOptions

/-! Names of parameters where every wire name is spelled as it is. The name of what is sent is then
the wire name of an option with the joints and own names of all further steps after it. -/

/-- What a step appends to the name of the value above. -/
def Step.suffix (step : Step) : Text := step.joint ++ step.ownName.text

/-- The name of what a way leads to below the options of a request. -/
def Way.text : Way → Text
  | [] => []
  | first :: rest => first.ownName.text ++ rest.flatMap Step.suffix

def Way.Plain (way : Way) : Prop := ∀ step ∈ way, step.ownName = .plain step.ownName.text

namespace Way

theorem nameFrom_of_plain {way : Way} (plain : way.Plain) (name : Text) :
    nameFrom (.plain name) way = .plain (name ++ way.flatMap Step.suffix) := by
  induction way generalizing name with
  | nil => simp [nameFrom]
  | cons step rest ih =>
      obtain ⟨here, later⟩ := List.forall_mem_cons.mp plain
      have extended : Step.extend (.plain name) step = .plain (name ++ step.suffix) := by
        rw [Step.extend, Step.suffix, here]
        exact congrArg WireName.plain (List.append_assoc _ _ _)
      have tail := ih later (name ++ step.suffix)
      rw [nameFrom, List.foldl_cons, extended, List.flatMap_cons, ← List.append_assoc]
      exact tail

theorem name_of_plain {way : Way} (plain : way.Plain) : way.name = .plain way.text := by
  cases way with
  | nil => rfl
  | cons first rest =>
      obtain ⟨here, later⟩ := List.forall_mem_cons.mp plain
      rw [name, here, nameFrom_of_plain later]
      rfl

end Way

namespace Node

variable {node : Node} {value : Value}

theorem Everywhere.child {property : List Node → Prop} (holds : node.Everywhere property)
    {child : Child} (first : child ∈ node.children value) : child.node.Everywhere property := by
  cases leadsTo_of_mem_children first with
  | element shape at_ => exact everywhere_list.mp holds
  | entry supplied found =>
      exact (everywhere_structure.mp holds).2 _ (mem_of_findBinding? found)

theorem Everywhere.below {property : List Node → Prop} (holds : node.Everywhere property)
    {way : Way} {inner : Node} {found : Value} (reached : node.Reaches value way inner found) :
    inner.Everywhere property := by
  induction reached with
  | here => exact holds
  | down first _ ih => exact ih (holds.child first)

theorem ownName_of_mem_children (holds : WireName → Prop)
    (numbers : ∀ number, holds (.plain (Text.ofNat number)))
    (named : node.Everywhere fun level => ∀ member ∈ level, holds member.wire) {child : Child}
    (first : child ∈ node.children value) : holds child.step.ownName := by
  cases leadsTo_of_mem_children first with
  | element shape at_ => exact numbers _
  | entry supplied found =>
      exact (everywhere_structure.mp named).1 _ (mem_of_findBinding? found)

theorem Reaches.ownNames (holds : WireName → Prop)
    (numbers : ∀ number, holds (.plain (Text.ofNat number))) {way : Way} {inner : Node}
    {found : Value} (reached : node.Reaches value way inner found)
    (named : node.Everywhere fun level => ∀ member ∈ level, holds member.wire) :
    ∀ step ∈ way, holds step.ownName := by
  induction reached with
  | here => nofun
  | down first _ ih =>
      exact List.forall_mem_cons.mpr
        ⟨ownName_of_mem_children holds numbers named first, ih (named.child first)⟩

theorem Reaches.plain {way : Way} {inner : Node} {found : Value}
    (reached : node.Reaches value way inner found) (named : node.Everywhere WellNamed) :
    way.Plain :=
  reached.ownNames (fun wire => wire = .plain wire.text) (fun _ => rfl)
    fun level inside => (named level inside).plain

end Node

theorem LeafType.encode?_codec {leaf : LeafType} (other : leaf ≠ .blob) (left right : BlobCodec)
    (value : Value) : leaf.encode? left value = leaf.encode? right value := by
  cases leaf with
  | blob => contradiction
  | boolean => cases value <;> rfl
  | _ => rfl

/-- Texts of blobs apart, what is sent does not depend on the codec. -/
theorem Visit.text?_codec (visit : Visit) : (∃ heading, visit.node = .scalar heading .blob) ∨
    ∀ left right, visit.text? left = visit.text? right := by
  obtain ⟨way, node, value⟩ := visit
  cases node with
  | scalar heading leaf =>
      by_cases blob : leaf = .blob
      · exact .inl ⟨heading, by rw [blob]⟩
      · exact .inr fun left right => LeafType.encode?_codec blob left right value
  | _ => exact .inr fun _ _ => rfl

namespace Schema

theorem PlainlyReachable.wellNamed {schema : Schema} (reachable : schema.PlainlyReachable) :
    schema.root.Everywhere WellNamed :=
  Node.everywhere_structure.mpr reachable.membersNamed

theorem exists_named_emissions {schema : Schema} (reachable : schema.PlainlyReachable)
    {entries : List (Value × Value)} (valid : schema.validate (.map entries) = .ok ()) :
    ∃ emissions, schema.root.Emissions (.map entries) emissions ∧
      ∀ codec, ∃ params, schema.requestParams codec (.map entries) = .ok params ∧
        List.Forall₂ (Visit.Writes codec fun way => .plain way.text) emissions params := by
  obtain ⟨emissions, sent, written⟩ := schema.exists_emissions entries (encodable_of_valid valid)
  refine ⟨emissions, sent, fun codec => ?_⟩
  obtain ⟨params, encoded, all⟩ := written codec
  refine ⟨params, requestParams_of_valid valid encoded, ?_⟩
  have plain : ∀ visit ∈ emissions, visit.way.Plain := fun visit member =>
    ((sent.mem_iff visit).mp member).reached.plain reachable.wellNamed
  refine ((List.forall₂_and_left emissions params).mpr ⟨plain, all⟩).imp ?_
  intro visit param wrote
  obtain ⟨plainWay, named, text⟩ := wrote
  exact ⟨named.trans (Way.name_of_plain plainWay), text⟩

/-- The parameters of a request are what is sent, in depth-first order, each under the text of its
way. No other texts than those of blobs depend on the codec. -/
theorem requestParams_eq_emissions {schema : Schema} (reachable : schema.PlainlyReachable)
    {entries : List (Value × Value)} (valid : schema.validate (.map entries) = .ok ()) :
    ∃ emissions, schema.root.Emissions (.map entries) emissions ∧
      (∀ codec, ∃ params, schema.requestParams codec (.map entries) = .ok params ∧
        List.Forall₂ (Visit.Writes codec fun way => .plain way.text) emissions params) ∧
      ∀ visit ∈ emissions, (∃ heading, visit.node = .scalar heading .blob) ∨
        ∀ left right, visit.text? left = visit.text? right := by
  obtain ⟨emissions, sent, written⟩ := exists_named_emissions reachable valid
  exact ⟨emissions, sent, written, fun visit _ => visit.text?_codec⟩

theorem filters_requestParams_eq_emissions :
    filters.PlainlyReachable ∧ filters.validate (.map filtersGiven) = .ok () ∧
    ∃ emissions, filters.root.Emissions (.map filtersGiven) emissions ∧
      (∀ codec, ∃ params, filters.requestParams codec (.map filtersGiven) = .ok params ∧
        List.Forall₂ (Visit.Writes codec fun way => .plain way.text) emissions params) ∧
      ∀ visit ∈ emissions, (∃ heading, visit.node = .scalar heading .blob) ∨
        ∀ left right, visit.text? left = visit.text? right :=
  ⟨plainlyReachable_filters, validate_filtersGiven,
    requestParams_eq_emissions plainlyReachable_filters validate_filtersGiven⟩

example : ((filters.requestParams Base64.encode (.map filtersGiven)).toOption.map fun params =>
    params.map Param.toText) = some (List.map Text.ofString ["Filter.member.1.Name=zone",
      "Filter.member.1.Value=", "Filter.member.2.Value.1=a", "Filter.member.2.Value.2=b",
      "Filter.member.2.Name=state", "Owner=me"]) := by
  decide +kernel

end Schema

end QueryOptions
