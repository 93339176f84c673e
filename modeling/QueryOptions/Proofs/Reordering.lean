import Mathlib.Algebra.Order.Group.Multiset
import Mathlib.Data.Option.NAry
import QueryOptions.Proofs.Reachable
import QueryOptions.Proofs.Request

namespace QueryOptions

/-! Entries in another order. Options that differ in nothing but the order in which mappings give
their entries pass the check alike, and the same parameters are sent for them, in another order.
Elements of lists keep their places, and what scalars hold is not looked into. -/

namespace Node

/-- The values are the same, but for the order of entries in mappings that structures take.
Collections are compared by their elements. -/
def Reordered (node : Node) (left right : Value) : Prop :=
  left = right ∨
    match node with
    | .scalar _ _ => False
    | .list _ member _ => ∃ lefts rights, left.elements? = some lefts ∧
        right.elements? = some rights ∧
        List.Forall₂ (fun left right => member.Reordered left right) lefts rights
    | .structure _ members => ∃ lefts moved rights, left = .map lefts ∧ right = .map rights ∧
        lefts.Perm moved ∧ List.Forall₂ (fun left right => left.1 = right.1 ∧ (left.2 = right.2 ∨
          ∃ member, ∃ _ : findBinding? left.1.shown members = some member,
            member.Reordered left.2 right.2)) moved rights
termination_by sizeOf node
decreasing_by
  · simp only [Node.list.sizeOf_spec]
    omega
  · have smaller := List.sizeOf_lt_of_mem (mem_of_findBinding? ‹_›)
    simp only [Node.structure.sizeOf_spec]
    omega

/-- The entries have the same key, and what holds of two values holds of theirs under the member that
the key names. -/
def EntriesRelated (members : List Node) (related : Node → Value → Value → Prop)
    (left right : Value × Value) : Prop :=
  left.1 = right.1 ∧ ∀ member, findBinding? left.1.shown members = some member →
    related member left.2 right.2

variable {heading : Heading} {left right : Value}

theorem Reordered.list_cases {member : Node} {join : ListJoin}
    (reordered : (Node.list heading member join).Reordered left right) :
    left = right ∨ ∃ lefts rights, left.elements? = some lefts ∧ right.elements? = some rights ∧
      List.Forall₂ member.Reordered lefts rights := by
  rwa [Reordered] at reordered

theorem Reordered.structure_cases {members : List Node}
    (reordered : (Node.structure heading members).Reordered left right) :
    left = right ∨ ∃ lefts moved rights, left = .map lefts ∧ right = .map rights ∧
      lefts.Perm moved ∧ List.Forall₂ (EntriesRelated members Reordered) moved rights := by
  rw [Reordered] at reordered
  rcases reordered with same | ⟨lefts, moved, rights, leftShape, rightShape, perm, entries⟩
  · exact .inl same
  · refine .inr ⟨lefts, moved, rights, leftShape, rightShape, perm, entries.imp ?_⟩
    intro first second related
    obtain ⟨key, values⟩ := related
    refine ⟨key, fun member found => ?_⟩
    rcases values with same | ⟨other, foundOther, below⟩
    · rw [Reordered.eq_def]
      exact .inl same
    · rw [found] at foundOther
      cases foundOther
      exact below

theorem EntriesRelated.imp {members : List Node} {related others : Node → Value → Value → Prop}
    {first second : Value × Value} (entries : EntriesRelated members related first second)
    (each : ∀ member ∈ members, ∀ left right, related member left right →
      others member left right) : EntriesRelated members others first second :=
  ⟨entries.1, fun member found =>
    each member (mem_of_findBinding? found) _ _ (entries.2 member found)⟩

theorem EntriesRelated.sound_iff {members : List Node} {first second : Value × Value}
    (entries : EntriesRelated members (fun member left right => member.Sound left ↔
      member.Sound right) first second) :
    (∃ member, findBinding? first.1.shown members = some member ∧ member.Sound first.2) ↔
      ∃ member, findBinding? second.1.shown members = some member ∧ member.Sound second.2 := by
  obtain ⟨key, values⟩ := entries
  rw [← key]
  exact exists_congr fun member => and_congr_right fun found => values member found

theorem Reordered.sound_iff {node : Node} (reordered : node.Reordered left right) :
    node.Sound left ↔ node.Sound right := by
  induction node generalizing left right with
  | scalar heading leaf =>
      simp only [Reordered, or_false] at reordered
      rw [reordered]
  | list heading member join ih =>
      rcases reordered.list_cases with rfl | ⟨lefts, rights, leftShape, rightShape, elements⟩
      · rfl
      · have each := forall_mem_iff_of_forall₂ (elements.imp fun _ _ below => ih below)
        simpa [sound_list_iff, leftShape, rightShape] using each
  | members heading nodes ih =>
      rcases reordered.structure_cases with rfl | ⟨lefts, moved, rights, rfl, rfl, perm, entries⟩
      · rfl
      -- An entry keeps its key, so that keys name the same members and the same ones are present.
      · have each := forall_mem_iff_of_forall₂ (entries.imp fun _ _ related =>
          (related.imp fun member inside _ _ below => ih member inside below).sound_iff)
        have supplied (binding : Text) : (∃ entry ∈ moved, entry.1.shown = binding) ↔
            ∃ entry ∈ rights, entry.1.shown = binding := by
          have absent := forall_mem_iff_of_forall₂ (entries.imp fun first second related =>
            show first.1.shown ≠ binding ↔ second.1.shown ≠ binding by rw [related.1])
          simpa using not_congr absent
        simp only [sound_mapping_iff, perm.mem_iff, each, supplied]

end Node

/-! What is sent, without its order. To swap two entries is then to add the same in another order,
and whether a list is sent as empty depends on the number of what is below it only. -/

def unordered (params : Option (List Param)) : Option (Multiset Param) :=
  params.map fun params => (params : Multiset Param)

theorem unordered_append (first second : Option (List Param)) :
    unordered (do return (← first) ++ (← second)) =
      Option.map₂ (· + ·) (unordered first) (unordered second) := by
  cases first <;> cases second <;> rfl

theorem perm_of_unordered_eq {params others : List Param}
    (same : unordered (some params) = unordered (some others)) : params.Perm others :=
  Multiset.coe_eq_coe.mp (Option.some.inj same)

theorem unordered_elements {encode : Value → WireName → Option (List Param)} {name : WireName}
    {join : ListJoin} {lefts rights : List Value} (index : Nat)
    (each : List.Forall₂ (fun left right => ∀ name,
      unordered (encode left name) = unordered (encode right name)) lefts rights) :
    unordered (paramsOfElements encode name join index lefts) =
      unordered (paramsOfElements encode name join index rights) := by
  induction each generalizing index with
  | nil => rfl
  | cons here _ ih =>
      simp only [paramsOfElements]
      rw [unordered_append, unordered_append, here, ih]

section Entries

variable {encode? : Text → Option (Value → Option (List Param))} {lefts rights : List (Value × Value)}

theorem unordered_entries_cons (entry : Value × Value) (rest : List (Value × Value)) :
    unordered (paramsOfEntries encode? (entry :: rest)) = Option.map₂ (· + ·)
      (unordered ((encode? entry.1.shown).bind fun encode => encode entry.2))
      (unordered (paramsOfEntries encode? rest)) := by
  obtain ⟨key, value⟩ := entry
  rw [paramsOfEntries, ← unordered_append]
  cases encode? key.shown <;> rfl

theorem unordered_entries_perm (moved : lefts.Perm rights) :
    unordered (paramsOfEntries encode? lefts) = unordered (paramsOfEntries encode? rights) := by
  induction moved with
  | nil => rfl
  | cons entry _ ih => rw [unordered_entries_cons, unordered_entries_cons, ih]
  | swap first second rest =>
      simp only [unordered_entries_cons]
      exact Option.map₂_left_comm add_left_comm
  | trans _ _ first second => exact first.trans second

theorem unordered_entries {codec : BlobCodec} {members : List Node} (named : WireName → WireName)
    (each : List.Forall₂ (Node.EntriesRelated members fun member left right => ∀ name,
      unordered (member.params? codec left name) = unordered (member.params? codec right name))
      lefts rights) :
    let encode? (binding : Text) := (findBinding? binding members).map fun member value =>
      member.params? codec value (named member.wire)
    unordered (paramsOfEntries encode? lefts) = unordered (paramsOfEntries encode? rights) := by
  induction each with
  | nil => rfl
  | @cons left right _ _ here _ ih =>
      obtain ⟨key, values⟩ := here
      simp only [unordered_entries_cons, ← key] at ih ⊢
      rw [ih]
      cases found : findBinding? left.1.shown members with
      | none => rfl
      | some member =>
          simp only [Option.map_some, Option.bind_some]
          rw [values member found]

end Entries

namespace Node

variable {left right : Value}

theorem unordered_list {heading : Heading} {member : Node} {join : ListJoin} {codec : BlobCodec}
    {name : WireName} {value : Value} {elements : List Value}
    (shape : value.elements? = some elements) :
    unordered ((Node.list heading member join).params? codec value name) =
      (unordered (paramsOfElements (member.params? codec) name join 1 elements)).map fun sent =>
        if sent.card = 0 then {⟨name, []⟩} else sent := by
  simp only [params?, shape, Option.bind_eq_bind, Option.bind_some]
  cases paramsOfElements (member.params? codec) name join 1 elements with
  | none => rfl
  | some params => cases params <;> rfl

theorem Reordered.unordered_params {node : Node} (reordered : node.Reordered left right)
    (codec : BlobCodec) (name : WireName) :
    unordered (node.params? codec left name) = unordered (node.params? codec right name) := by
  induction node generalizing left right name with
  | scalar heading leaf =>
      simp only [Reordered, or_false] at reordered
      rw [reordered]
  | list heading member join ih =>
      rcases reordered.list_cases with rfl | ⟨lefts, rights, leftShape, rightShape, elements⟩
      · rfl
      · rw [unordered_list leftShape, unordered_list rightShape,
          unordered_elements 1 (elements.imp fun _ _ below name => ih below name)]
  | members heading nodes ih =>
      rcases reordered.structure_cases with rfl | ⟨lefts, moved, rights, rfl, rfl, perm, entries⟩
      · rfl
      · simp only [params?, funext (memberParams?_eq_map codec nodes name)]
        exact (unordered_entries_perm perm).trans (unordered_entries _ (entries.imp
          fun _ _ related => related.imp fun member inside _ _ below => ih member inside below))

end Node

namespace Schema

theorem unordered_params {schema : Schema} {lefts rights : List (Value × Value)}
    (reordered : schema.root.Reordered (.map lefts) (.map rights)) (codec : BlobCodec) :
    unordered (schema.params? codec lefts) = unordered (schema.params? codec rights) := by
  rcases reordered.structure_cases with same | ⟨_, moved, _, leftShape, rightShape, perm, entries⟩
  · cases same
    rfl
  · cases leftShape
    cases rightShape
    have each := entries.imp fun _ _ related => related.imp fun member _ _ _ below =>
      below.unordered_params codec
    exact (unordered_entries_perm perm).trans (unordered_entries id each)

/-- In which order the entries of mappings at structures come decides neither whether options pass
the check nor what is sent for them, only the order of what is sent. -/
theorem requestParams_perm {schema : Schema} {left right : Value}
    (reordered : schema.root.Reordered left right) :
    (schema.validate left = .ok () ↔ schema.validate right = .ok ()) ∧
    (schema.validate left = .ok () → ∀ codec, ∃ params others,
      schema.requestParams codec left = .ok params ∧
      schema.requestParams codec right = .ok others ∧ params.Perm others) := by
  have alike : schema.validate left = .ok () ↔ schema.validate right = .ok () := by
    rw [validate_eq_ok_iff, validate_eq_ok_iff, reordered.sound_iff]
  refine ⟨alike, fun valid codec => ?_⟩
  have validRight := alike.mp valid
  obtain ⟨lefts, params, rfl, encoded⟩ := exists_params_of_valid valid codec
  obtain ⟨rights, others, rfl, encodedRight⟩ := exists_params_of_valid validRight codec
  refine ⟨params, others, requestParams_of_valid valid encoded,
    requestParams_of_valid validRight encodedRight, perm_of_unordered_eq ?_⟩
  rw [← encoded, ← encodedRight]
  exact unordered_params reordered codec

/-- The filters of `filtersGiven` with the owner first, and the first filter by its values. -/
def filtersTurned : List (Value × Value) :=
  [(.text "owner", .text "me"),
    (.text "filter", .list [
      .map [(.text "value", .list []), (.text "name", .text "zone")],
      .map [(.text "value", .list [.text "a", .text "b"]), (.text "name", .text "state")]])]

theorem filtersGiven_reordered :
    filters.root.Reordered (.map filtersGiven) (.map filtersTurned) := by
  rw [Node.Reordered.eq_def]
  refine .inr ⟨_, _, _, rfl, rfl, .swap _ _ [], .cons ⟨rfl, .inl rfl⟩
    (.cons ⟨rfl, .inr ⟨_, rfl, ?_⟩⟩ .nil)⟩
  rw [Node.Reordered.eq_def]
  refine .inr ⟨_, _, rfl, rfl, .cons ?_ (.cons ?_ .nil)⟩
  · rw [Node.Reordered.eq_def]
    exact .inr ⟨_, _, _, rfl, rfl, .swap _ _ [], .cons ⟨rfl, .inl rfl⟩ (.cons ⟨rfl, .inl rfl⟩ .nil)⟩
  · rw [Node.Reordered.eq_def]
    exact .inl rfl

theorem filters_requestParams_perm :
    filters.root.Reordered (.map filtersGiven) (.map filtersTurned) ∧
    (filters.validate (.map filtersGiven) = .ok () ↔
      filters.validate (.map filtersTurned) = .ok ()) ∧
    ∃ params others,
      filters.requestParams Base64.encode (.map filtersGiven) = .ok params ∧
      filters.requestParams Base64.encode (.map filtersTurned) = .ok others ∧
      params.Perm others := by
  obtain ⟨alike, sent⟩ := requestParams_perm filtersGiven_reordered
  exact ⟨filtersGiven_reordered, alike, sent validate_filtersGiven Base64.encode⟩

end Schema

end QueryOptions
