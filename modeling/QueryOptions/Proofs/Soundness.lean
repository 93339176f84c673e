import QueryOptions.Proofs.Validation

namespace QueryOptions

/-! Values in which nothing is wrong. They are what the check of a request passes, and what they are
made of is sound as well. -/

namespace Node

def Sound (node : Node) (value : Value) : Prop := ∀ violation, ¬ node.Violates value violation

variable {node inner : Node} {value found : Value} {heading : Heading}

theorem sound_list_iff {member : Node} {join : ListJoin} :
    (Node.list heading member join).Sound value ↔
      ∃ elements, value.elements? = some elements ∧ ∀ element ∈ elements, member.Sound element := by
  cases shape : value.elements? with
  | none =>
      have broken : (Node.list heading member join).Violates value ⟨[], .shape .enumerable⟩ :=
        (violates_list_of_none shape).mpr rfl
      constructor
      · exact fun sound => absurd broken (sound _)
      · rintro ⟨_, same, -⟩
        contradiction
  | some elements =>
      constructor
      · intro sound
        refine ⟨elements, rfl, fun element inside lower broken => ?_⟩
        obtain ⟨index, at_⟩ := List.mem_iff_getElem?.mp inside
        exact sound _ ((violates_list_of_some shape).mpr
          ⟨(element, index), List.mem_zipIdx_iff_getElem?.mpr at_, lower, broken, rfl⟩)
      · rintro ⟨_, same, sound⟩ violation broken
        cases same
        obtain ⟨⟨element, index⟩, at_, lower, wrong, -⟩ := (violates_list_of_some shape).mp broken
        exact sound element (List.mem_of_getElem? (List.mem_zipIdx_iff_getElem?.mp at_)) lower wrong

theorem Sound.mapping {members : List Node}
    (sound : (Node.structure heading members).Sound value) : ∃ entries, value = .map entries := by
  by_contra other
  exact sound _ ((violates_other fun entries same => other ⟨entries, same⟩).mpr rfl)

theorem sound_mapping_iff {members : List Node} {entries : List (Value × Value)} :
    (Node.structure heading members).Sound (.map entries) ↔
      (∀ entry ∈ entries, ∃ member, findBinding? entry.1.shown members = some member ∧
        member.Sound entry.2) ∧
      ∀ member ∈ members, member.required = true →
        ∃ entry ∈ entries, entry.1.shown = member.binding := by
  constructor
  · intro sound
    obtain ⟨valued, rest⟩ := not_or.mp (mt exists_violates_mapping.mpr (not_exists.mpr sound))
    obtain ⟨known, present⟩ := not_or.mp rest
    refine ⟨fun entry supplied => ?_, fun member declared required => ?_⟩
    · cases found : findBinding? entry.1.shown members with
      | none => exact absurd ⟨entry, supplied, findBinding?_eq_none_iff.mp found⟩ known
      | some member =>
          exact ⟨member, rfl, fun violation broken =>
            valued ⟨entry, supplied, member, found, violation, broken⟩⟩
    · by_contra absent
      exact present ⟨member, declared, required, fun entry supplied same =>
        absent ⟨entry, supplied, same⟩⟩
  · rintro ⟨valued, present⟩ violation broken
    rcases exists_violates_mapping.mp ⟨violation, broken⟩ with
      ⟨entry, supplied, member, found, lower, wrong⟩ | ⟨entry, supplied, strange⟩ |
      ⟨member, declared, required, absent⟩
    · obtain ⟨also, foundAlso, sound⟩ := valued entry supplied
      rw [found] at foundAlso
      cases foundAlso
      exact sound lower wrong
    · obtain ⟨member, found, -⟩ := valued entry supplied
      exact strange member (mem_of_findBinding? found) (binding_of_findBinding? found)
    · obtain ⟨entry, supplied, same⟩ := present member declared required
      exact absent entry supplied same

theorem Reaches.append {way rest : Way} {last : Node} {lastValue : Value}
    (reached : node.Reaches value way inner found)
    (lower : inner.Reaches found rest last lastValue) :
    node.Reaches value (way ++ rest) last lastValue := by
  induction reached with
  | here => exact lower
  | down first _ ih => exact .down first (ih lower)

theorem Sound.below {way : Way} (sound : node.Sound value)
    (reached : node.Reaches value way inner found) : inner.Sound found := by
  rintro ⟨rest, breach⟩ ⟨last, lastValue, lower, broken⟩
  exact sound ⟨way ++ rest, breach⟩ ⟨last, lastValue, reached.append lower, broken⟩

end Node

theorem Schema.validate_eq_ok_iff {schema : Schema} {options : Value} :
    schema.validate options = .ok () ↔ schema.root.Sound options :=
  (schema.validate_reportsFirst options).ok_iff

end QueryOptions
