import Mathlib.Data.List.Nodup
import QueryOptions.Node.Basic

namespace QueryOptions

/-! Nodes by induction, and nodes that are found by one of their names. -/

/-- Induction over nodes. All members of a structure are below it, however they are found. -/
@[elab_as_elim, induction_eliminator]
theorem Node.induction {motive : Node → Prop}
    (scalar : ∀ heading leaf, motive (.scalar heading leaf))
    (list : ∀ heading member join, motive member → motive (.list heading member join))
    (members : ∀ heading nodes, (∀ member ∈ nodes, motive member) →
      motive (.structure heading nodes))
    (node : Node) : motive node :=
  @Node.rec motive (fun nodes => ∀ member ∈ nodes, motive member) scalar list members (by simp)
    (fun _ _ first rest => List.forall_mem_cons.mpr ⟨first, rest⟩) node

theorem mem_of_findBinding? {binding : Text} {nodes : List Node} {node : Node}
    (found : findBinding? binding nodes = some node) : node ∈ nodes :=
  List.mem_reverse.mp (List.mem_of_find?_eq_some found)

theorem binding_of_findBinding? {binding : Text} {nodes : List Node} {node : Node}
    (found : findBinding? binding nodes = some node) : node.binding = binding :=
  beq_iff_eq.mp (List.find?_some (p := fun node : Node => node.binding == binding) found)

theorem findBinding?_eq_none_iff {binding : Text} {nodes : List Node} :
    findBinding? binding nodes = none ↔ ∀ node ∈ nodes, node.binding ≠ binding := by
  simp [findBinding?]

theorem findBinding?_of_nodup {nodes : List Node} {node : Node}
    (distinct : (nodes.map Node.binding).Nodup) (member : node ∈ nodes) :
    findBinding? node.binding nodes = some node := by
  cases found : findBinding? node.binding nodes with
  | none => exact absurd rfl (findBinding?_eq_none_iff.mp found node member)
  | some other =>
      have same : other = node := List.inj_on_of_nodup_map distinct (mem_of_findBinding? found)
        member (binding_of_findBinding? found)
      rw [same]

theorem findBinding?_append (binding : Text) (first second : List Node) :
    findBinding? binding (first ++ second) =
      (findBinding? binding second).or (findBinding? binding first) := by
  rw [findBinding?, List.reverse_append, List.find?_append]
  rfl

end QueryOptions
