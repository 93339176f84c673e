import QueryOptions.Proofs.Level
import QueryOptions.Proofs.Loops
import QueryOptions.Request.Validation
import QueryOptions.Schema.Basic

namespace QueryOptions

/-! Schemas that are reached by customizing the empty one, and what holds of all of them. -/

/-- No bare option name is a descriptor kind. -/
def Value.NamesPlainly : Value → Prop
  | .map _ => True
  | configuration => ∀ items, configuration.items? = some items → ∀ named, .kind named ∉ items

namespace Schema

inductive ReachableBy (permitted : Value → Prop) : Schema → Prop
  | empty : ReachableBy permitted .empty
  | customize {base schema : Schema} {configuration : Value}
      (reached : ReachableBy permitted base) (fit : permitted configuration)
      (built : base.customize configuration = .ok schema) : ReachableBy permitted schema

/-- Reached by configurations whose bare option names are plain texts. -/
abbrev PlainlyReachable : Schema → Prop := ReachableBy Value.NamesPlainly

/-- An option that is a list of structures, and one that is declared by its bare name. -/
def filters : Schema where
  options := [.list ⟨.plain "Filter", "filter", false⟩
    (.structure ⟨.plain Node.listMemberName, Node.listMemberName, false⟩
      [.scalar ⟨.plain "Name", "name", true⟩ .string,
        .list ⟨.plain "Value", "value", false⟩ Node.listMember .flat]) .membered,
    .default (.plain "Owner")]

theorem plainlyReachable_filters : filters.PlainlyReachable := by
  let members : Value := .map [(.text "Name", .text "Required"),
    (.text "Value", .map [(.text "List", .text "String")])]
  let filter : Value := .map [(.text "MemberedList", .map [(.text "Structure", members)])]
  let configuration : Value := .list [.map [(.text "Filter", .list [filter])], .text "Owner"]
  have fit : configuration.NamesPlainly := by
    intro items found named
    cases found
    simp
  have built : empty.customize configuration = .ok filters := rfl
  exact .customize .empty fit built

/-- Two filters, one of them without values. -/
def filtersGiven : List (Value × Value) :=
  [(.text "filter", .list [
    .map [(.text "name", .text "zone"), (.text "value", .list [])],
    .map [(.text "value", .list [.text "a", .text "b"]), (.text "name", .text "state")]]),
    (.text "owner", .text "me")]

theorem validate_filtersGiven : filters.validate (.map filtersGiven) = .ok () := rfl

end Schema

namespace Declaration

theorem plain_of_ofEntry {name description : Value} {declaration : Declaration}
    (read : ofEntry name description = .ok declaration) :
    declaration.name = .plain declaration.name.text := by
  cases description <;> simp only [ofEntry, reduceCtorEq] at read <;> cases read <;> rfl

theorem plain_of_ofValue {option : Value} {declaration : Declaration}
    (bare : ∀ named, option ≠ .kind named) (read : ofValue option = .ok declaration) :
    declaration.name = .plain declaration.name.text := by
  unfold ofValue at read
  split at read
  · contradiction
  · exact plain_of_ofEntry read
  · contradiction
  · contradiction
  · cases read; rfl
  · exact absurd rfl (bare _)
  · contradiction

theorem plain_of_ofConfiguration {configuration : Value} {declarations : List Declaration}
    (plain : configuration.NamesPlainly) (read : ofConfiguration configuration = .ok declarations) :
    ∀ declaration ∈ declarations, declaration.name = .plain declaration.name.text := by
  intro declaration member
  unfold ofConfiguration at read
  split at read
  · cases read
    simp at member
  · obtain ⟨⟨name, description⟩, -, entry⟩ := mem_of_mapM_ok read member
    exact plain_of_ofEntry entry
  · contradiction
  · contradiction
  · contradiction
  · rename_i noMapping _ _ _
    split at read
    · rename_i items found
      obtain ⟨option, inside, valued⟩ := mem_of_mapM_ok read member
      refine plain_of_ofValue (fun named same => ?_) valued
      unfold Value.NamesPlainly at plain
      split at plain
      · exact noMapping _ rfl
      · exact plain items found named (same ▸ inside)
    · contradiction

end Declaration

theorem Node.eq_extend_of_extendDeclared {node extended : Node} {declared : List Value}
    (read : node.extendDeclared declared = .ok extended) :
    ∃ descriptors, extended = node.extend descriptors := by
  obtain ⟨descriptors, -, rfl⟩ := map_eq_ok_iff.mp read
  exact ⟨descriptors, rfl⟩

namespace Schema

theorem options_of_declare {schema next : Schema} {declaration : Declaration}
    (declared : schema.declare declaration = .ok next) :
    ∃ descriptors, next.options = putNode
      (((findWire? declaration.name.text schema.options).getD (.default declaration.name)).extend
        descriptors) schema.options := by
  obtain ⟨node, read, made⟩ := ok_of_bind declared
  cases made
  obtain ⟨descriptors, rfl⟩ := Node.eq_extend_of_extendDeclared read
  exact ⟨descriptors, rfl⟩

theorem membersNamed_of_declare {schema next : Schema} {declaration : Declaration}
    (named : Node.MembersNamed schema.options)
    (plain : declaration.name = .plain declaration.name.text)
    (declared : schema.declare declaration = .ok next) : Node.MembersNamed next.options := by
  obtain ⟨descriptors, options⟩ := options_of_declare declared
  rw [options]
  exact named.put (named.1.declared plain descriptors)
    (Node.everywhere_extend WellNamed.kept _ (named.everywhere_declared declaration.name) descriptors)

/-- The options of a schema, and the members of all structures below them, have distinct wire names
without a spelling of their own. -/
theorem PlainlyReachable.membersNamed {schema : Schema} (reachable : schema.PlainlyReachable) :
    Node.MembersNamed schema.options := by
  induction reachable with
  | empty => exact ⟨⟨List.nodup_nil, nofun⟩, nofun⟩
  | customize _ fit built ih =>
      obtain ⟨declarations, read, declared⟩ := ok_of_bind built
      have plain := Declaration.plain_of_ofConfiguration fit read
      exact foldlM_preserves (fun schema : Schema => Node.MembersNamed schema.options)
        (fun before after declaration member named stepped =>
          membersNamed_of_declare named (plain declaration member) stepped) ih declared

end Schema

end QueryOptions
