import QueryOptions.Proofs.NamingLint
import QueryOptions.Proofs.ParamNames

namespace QueryOptions

/-! What must be given is sent. Where binding names are distinct, the entry that a required member
must have is the one that the encoder reads for it, and a parameter bears the name of the member,
or of an element in it. -/

/-- The name of a member of the structure to which the way leads. -/
def Way.memberText (way : Way) (wire : WireName) : Text :=
  match way with
  | [] => wire.text
  | _ :: _ => way.text ++ "." ++ wire.text

theorem Way.text_append_entry (way rest : Way) (index : Nat) (key : Text) (wire : WireName) :
    text (way ++ .entry index key wire :: rest) =
      way.memberText wire ++ rest.flatMap Step.suffix := by
  cases way with
  | nil => rfl
  | cons first way =>
      simp only [List.cons_append, text, memberText, List.flatMap_append, List.flatMap_cons,
        List.append_assoc]
      rfl

namespace Node

/-- Some parameter bears this name for a value of a scalar or a list. A list may be sent by its
elements, with the join and the number of one of them behind the name. -/
def SentAs (codec : BlobCodec) (params : List Param) (name : Text) (value : Value) : Node → Prop
  | .scalar _ leaf => ∃ text, leaf.encode? codec value = some text ∧ ⟨.plain name, text⟩ ∈ params
  | .list _ _ join => ∃ elements, value.elements? = some elements ∧
      (⟨.plain name, []⟩ ∈ params ∨ ∃ index < elements.length, ∃ param ∈ params, ∃ rest,
        param.name = .plain (name ++ join.text ++ Text.ofNat (index + 1) ++ rest))
  | .structure _ _ => True

variable {node : Node} {value : Value} {codec : BlobCodec} {params : List Param} {name : Text}

theorem sentAs_of_sends (sound : node.Sound value) (written : ∀ visit, node.Sends value visit →
      ∃ param ∈ params,
        visit.Writes codec (fun way => .plain (name ++ way.flatMap Step.suffix)) param) :
    node.SentAs codec params name value := by
  have own (emits : node.Emits value) : ∃ text,
      Visit.text? codec ⟨[], node, value⟩ = some text ∧ ⟨.plain name, text⟩ ∈ params := by
    obtain ⟨⟨bears, text⟩, inside, named, encoded⟩ := written ⟨[], node, value⟩ ⟨.here, emits⟩
    simp only [List.flatMap_nil, List.append_nil] at named
    exact ⟨text, encoded, named ▸ inside⟩
  cases node with
  | scalar heading leaf => exact own (by simp [Emits])
  | list heading member join =>
      obtain ⟨elements, shape, -⟩ := sound_list_iff.mp sound
      refine ⟨elements, shape, ?_⟩
      by_cases emits : (Node.list heading member join).Emits value
      · obtain ⟨_, empty, inside⟩ := own emits
        cases empty
        exact .inl inside
      -- Otherwise something is sent below, hence below one of the elements.
      · obtain ⟨visit, below⟩ := not_forall_not.mp (mt emits_list_iff.mpr emits)
        obtain ⟨param, inside, named, -⟩ := written visit (sends_iff.mpr (.inr below))
        obtain ⟨child, first, lower, -, rfl⟩ := below
        obtain ⟨index, element, at_, rfl⟩ := (mem_children_list shape).mp first
        refine .inr ⟨index, (List.getElem?_eq_some_iff.mp at_).1, param, inside,
          lower.way.flatMap Step.suffix, ?_⟩
        rw [named]
        simp [Visit.under, Step.suffix, Step.joint, Step.ownName, WireName.plain]
  | «structure» heading members => trivial

end Node

namespace Schema

variable {schema : Schema} {entries : List (Value × Value)}

theorem sentAs_of_required {codec : BlobCodec} {params : List Param}
    (distinct : schema.root.Everywhere DistinctBindings) (sound : schema.root.Sound (.map entries))
    (written : ∀ visit, schema.root.Sends (.map entries) visit →
      ∃ param ∈ params, visit.Writes codec (fun way => .plain way.text) param)
    {way : Way} {heading : Heading} {members : List Node} {inner : List (Value × Value)}
    (reached : schema.root.Reaches (.map entries) way (.structure heading members) (.map inner))
    {member : Node} (declared : member ∈ members) (required : member.required = true) :
    ∃ entry ∈ inner, entry.1.shown = member.binding ∧
      member.SentAs codec params (way.memberText member.wire) entry.2 := by
  obtain ⟨known, present⟩ := Node.sound_mapping_iff.mp (sound.below reached)
  obtain ⟨⟨key, value⟩, supplied, shown⟩ := present member declared required
  have found : findBinding? key.shown members = some member := by
    rw [shown]
    exact findBinding?_of_nodup (Node.everywhere_structure.mp (distinct.below reached)).1 declared
  obtain ⟨index, at_⟩ := List.mem_iff_getElem?.mp supplied
  have down {rest : Way} {last : Node} {lastValue : Value}
      (lower : member.Reaches value rest last lastValue) := reached.append (.entry at_ found lower)
  refine ⟨(key, value), supplied, shown, Node.sentAs_of_sends (sound.below (down .here)) ?_⟩
  intro visit sends
  obtain ⟨param, inside, named, text⟩ := written ⟨_, visit.node, visit.value⟩
    ⟨down sends.reached, sends.emits⟩
  refine ⟨param, inside, named.trans ?_, text⟩
  exact congrArg WireName.plain (way.text_append_entry visit.way index key.shown member.wire)

/-- Where the binding names of every level are distinct, as the naming linter's errors demand, every
required scalar or list of a structure, and of the options themselves, is sent. -/
theorem requestParams_sendsRequired (reachable : schema.PlainlyReachable) :
    (∀ location operation,
      NamingLint.Faultless (NamingLint.operationFindings location operation schema) ↔
        schema.root.Everywhere DistinctBindings) ∧
    ∀ codec entries, schema.root.Everywhere DistinctBindings →
      schema.validate (.map entries) = .ok () →
      ∃ params, schema.requestParams codec (.map entries) = .ok params ∧
        ∀ way heading members inner,
          schema.root.Reaches (.map entries) way (.structure heading members) (.map inner) →
          ∀ member ∈ members, member.required = true →
            ∃ entry ∈ inner, entry.1.shown = member.binding ∧
              member.SentAs codec params (way.memberText member.wire) entry.2 := by
  refine ⟨fun _ _ => faultless_iff_distinctBindings, fun codec entries distinct valid => ?_⟩
  obtain ⟨emissions, sent, written⟩ := exists_named_emissions reachable valid
  obtain ⟨params, encoded, all⟩ := written codec
  refine ⟨params, encoded, fun way heading members inner reached member declared required => ?_⟩
  refine sentAs_of_required distinct (validate_eq_ok_iff.mp valid) (fun visit sends => ?_)
    reached declared required
  exact exists_of_forall₂ all ((sent.mem_iff visit).mpr sends)

/-- The second filter of `filtersGiven`. -/
def secondFilter : List (Value × Value) :=
  [(.text "value", .list [.text "a", .text "b"]), (.text "name", .text "state")]

theorem filtersGiven_reaches : filters.root.Reaches (.map filtersGiven)
    [.entry 0 "filter" (.plain "Filter"), .element 1 .membered]
    (.structure ⟨.plain Node.listMemberName, Node.listMemberName, false⟩
      [.scalar ⟨.plain "Name", "name", true⟩ .string,
        .list ⟨.plain "Value", "value", false⟩ Node.listMember .flat]) (.map secondFilter) :=
  @Node.Reaches.entry _ filters.options filtersGiven 0 (.text "filter") _ rfl _ rfl _ _ _
    (.element rfl rfl .here)

theorem filters_requestParams_sendsRequired :
    filters.PlainlyReachable ∧ filters.root.Everywhere DistinctBindings ∧
    filters.validate (.map filtersGiven) = .ok () ∧
    ∃ params, filters.requestParams Base64.encode (.map filtersGiven) = .ok params ∧
      ∃ entry ∈ secondFilter, entry.1.shown = Text.ofString "name" ∧
        (Node.scalar ⟨.plain "Name", "name", true⟩ .string).SentAs Base64.encode params
          "Filter.member.2.Name" entry.2 := by
  obtain ⟨faultless, sends⟩ := requestParams_sendsRequired plainlyReachable_filters
  have distinct : filters.root.Everywhere DistinctBindings :=
    (faultless (.locate none none none) (.text "DescribeImages")).mp (by decide)
  obtain ⟨params, encoded, required⟩ :=
    sends Base64.encode filtersGiven distinct validate_filtersGiven
  exact ⟨plainlyReachable_filters, distinct, validate_filtersGiven, params, encoded,
    required _ _ _ _ filtersGiven_reaches _ List.mem_cons_self rfl⟩

end Schema

end QueryOptions
