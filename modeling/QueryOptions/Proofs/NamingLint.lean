import QueryOptions.Lint.Naming
import QueryOptions.Proofs.Level
import QueryOptions.Proofs.NameForms
import QueryOptions.Proofs.Visit

namespace QueryOptions

/-! What is known of the names on which the naming linter gives no warning, and on which it gives
no error. -/

/-- No wire name of the level has a dot in it. -/
def Undotted (level : List Node) : Prop := ∀ node ∈ level, '.'.toNat ∉ node.wire.text

def DistinctBindings (level : List Node) : Prop := (level.map Node.binding).Nodup

namespace Naming

theorem dot_notMem_of_isPascalCase {name : Text} (pascal : isPascalCase name = true) :
    '.'.toNat ∉ name :=
  fun inside => absurd (isAsciiAlphanumeric_of_isPascalCase pascal inside) (by decide)

end Naming

namespace NamingLint

variable {owner : Text} {location : SourceLocation} {earlier nodes : List Node} {node : Node}

theorem mem_levelFindings (member : node ∈ nodes) {finding : Finding}
    (found : finding ∈ nameFindings owner location node ∨
      finding ∈ structureFindings owner location node.wire node) :
    finding ∈ levelFindings owner location earlier nodes := by
  induction nodes generalizing earlier with
  | nil => simp at member
  | cons first rest ih =>
      rw [levelFindings, List.mem_append, List.mem_append, List.mem_append]
      rcases List.mem_cons.mp member with rfl | inRest
      · rcases found with named | below
        · exact .inl (.inl (.inl named))
        · exact .inl (.inr below)
      · exact .inr (ih inRest)

theorem isPascalCase_of_unwarned
    (unwarned : ∀ finding ∈ nameFindings owner location node, finding.isWarning = false) :
    Naming.isPascalCase node.wire.text = true := by
  by_contra other
  simp only [nameFindings, if_neg other] at unwarned
  have warned := unwarned _ (List.mem_append_left _ List.mem_cons_self)
  contradiction

theorem undotted_of_level (heading : Heading)
    (unwarned : ∀ finding ∈ levelFindings owner location earlier nodes, finding.isWarning = false)
    (below : ∀ node ∈ nodes, (∀ finding ∈ structureFindings owner location node.wire node,
      finding.isWarning = false) → node.Everywhere Undotted) :
    (Node.structure heading nodes).Everywhere Undotted := by
  refine Node.everywhere_structure.mpr ⟨fun node member => ?_, fun node member => ?_⟩
  · have named : ∀ finding ∈ nameFindings owner location node, finding.isWarning = false :=
      fun finding found => unwarned finding (mem_levelFindings member (.inl found))
    exact Naming.dot_notMem_of_isPascalCase (isPascalCase_of_unwarned named)
  · exact below node member fun finding found =>
      unwarned finding (mem_levelFindings member (.inr found))

theorem undotted_of_structure (node : Node) (owner : Text) (wire : WireName)
    (unwarned : ∀ finding ∈ structureFindings owner location wire node,
      finding.isWarning = false) : node.Everywhere Undotted := by
  induction node generalizing owner wire with
  | scalar heading leaf => exact Node.everywhere_scalar
  | list heading member join ih => exact Node.everywhere_list.mpr (ih owner wire unwarned)
  | members heading nodes ih =>
      exact undotted_of_level heading unwarned fun node member => ih node member _ node.wire

/-! Errors are about shared binding names only. -/

def Faultless (findings : List Finding) : Prop := ∀ finding ∈ findings, finding.isError = false

instance (findings : List Finding) : Decidable (Faultless findings) :=
  inferInstanceAs (Decidable (∀ finding ∈ findings, finding.isError = false))

@[simp] theorem faultless_append {first second : List Finding} :
    Faultless (first ++ second) ↔ Faultless first ∧ Faultless second :=
  List.forall_mem_append

theorem faultless_warning {fine : Bool} {message : Text} :
    Faultless (if fine then [] else [.located .warning location message]) := by
  cases fine <;> simp [Faultless, Finding.located, Finding.isError]

theorem faultless_nameFindings : Faultless (nameFindings owner location node) :=
  faultless_append.mpr ⟨faultless_warning, faultless_warning⟩

theorem faultless_sharedFindings_iff (distinct : DistinctBindings earlier) :
    Faultless (sharedFindings owner location earlier node) ↔
      DistinctBindings (earlier ++ [node]) := by
  have fresh : DistinctBindings (earlier ++ [node]) ↔ findBinding? node.binding earlier = none := by
    rw [findBinding?_eq_none_iff, DistinctBindings, List.map_append, List.map_singleton,
      ← List.concat_eq_append, List.nodup_concat]
    simp [show (earlier.map Node.binding).Nodup from distinct]
  rw [fresh, sharedFindings]
  cases findBinding? node.binding earlier <;> simp [Faultless, Finding.located, Finding.isError]

theorem faultless_levelFindings_iff (distinct : DistinctBindings earlier) :
    Faultless (levelFindings owner location earlier nodes) ↔ DistinctBindings (earlier ++ nodes) ∧
      ∀ node ∈ nodes, Faultless (structureFindings owner location node.wire node) := by
  induction nodes generalizing earlier with
  | nil => simp [levelFindings, Faultless, distinct]
  | cons node rest ih =>
      rw [levelFindings, faultless_append, faultless_append, faultless_append,
        faultless_sharedFindings_iff distinct, List.forall_mem_cons]
      have shape : earlier ++ node :: rest = earlier ++ [node] ++ rest := by simp
      constructor
      · rintro ⟨⟨⟨-, next⟩, below⟩, later⟩
        obtain ⟨all, inRest⟩ := (ih next).mp later
        exact ⟨shape ▸ all, below, inRest⟩
      · rintro ⟨all, below, inRest⟩
        rw [shape] at all
        have next : DistinctBindings (earlier ++ [node]) :=
          all.sublist ((List.sublist_append_left _ _).map _)
        exact ⟨⟨⟨faultless_nameFindings, next⟩, below⟩, (ih next).mpr ⟨all, inRest⟩⟩

theorem faultless_structureFindings_iff (node : Node) (owner : Text) (wire : WireName) :
    Faultless (structureFindings owner location wire node) ↔ node.Everywhere DistinctBindings := by
  induction node generalizing owner wire with
  | scalar heading leaf => simp [structureFindings, Faultless]
  | list heading member join ih => rw [structureFindings, Node.everywhere_list, ih]
  | members heading nodes ih =>
      rw [structureFindings, Node.everywhere_structure,
        faultless_levelFindings_iff (show DistinctBindings [] from List.nodup_nil)]
      exact and_congr_right fun _ => forall₂_congr fun node member => ih node member _ node.wire

end NamingLint

/-- An operation on which the naming linter gives no warning has no dot in any wire name. -/
theorem Schema.undotted_of_unwarned {schema : Schema} {location : SourceLocation}
    {operation : Value}
    (unwarned : ∀ finding ∈ NamingLint.operationFindings location operation schema,
      finding.isWarning = false) : schema.root.Everywhere Undotted :=
  NamingLint.undotted_of_level _
    (fun finding found => unwarned finding (List.mem_append_right _ found))
    fun node _ => NamingLint.undotted_of_structure node _ node.wire

/-- The naming linter gives no error on an operation just if binding names are distinct at every
level. -/
theorem Schema.faultless_iff_distinctBindings {schema : Schema} {location : SourceLocation}
    {operation : Value} :
    NamingLint.Faultless (NamingLint.operationFindings location operation schema) ↔
      schema.root.Everywhere DistinctBindings := by
  have empty : DistinctBindings [] := List.nodup_nil
  rw [NamingLint.operationFindings, NamingLint.faultless_append, root, Node.everywhere_structure,
    NamingLint.faultless_levelFindings_iff empty]
  simp only [NamingLint.faultless_warning, true_and, NamingLint.faultless_structureFindings_iff]
  rfl

end QueryOptions
