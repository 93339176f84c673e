import Mathlib.Data.List.Chain
import QueryOptions.Proofs.Circles

namespace QueryOptions

/-! Circles of bases. The builder goes from an operation to its base as long as there is one, and
the error about a circle names the operations that it has passed: they follow their bases up to the
first that is met again. What is on a circle, or leads to one, is never built. -/

namespace LoadError

theorem eq_of_joining {names operations : List Value} {error : LoadError}
    (joined : joining names error = .circularBases operations) :
    error = .circularBases operations := by
  unfold joining at joined
  split at joined
  · contradiction
  · exact joined

theorem message_circularBases {names : List Value} {texts : List Text}
    (read : List.Forall₂ (fun name text => name.text? = some text) names texts) :
    (LoadError.circularBases names).message =
      "Circular base reference between operations: " ++ Text.join " -> " texts := by
  have listed : names.filterMap Value.text? = texts := by
    induction read with
    | nil => rfl
    | cons here _ ih => rw [List.filterMap_cons_some here, ih]
  rw [message, listed]

end LoadError

namespace OperationSource

variable {source : OperationSource} {operation : Value × Value} {name base : Value}
  {chain names : List Value} {built after : BuiltOperations} {failure : BuildFailure}

/-- Every operation of the chain is based on the next one, the last of them on the operation of the
name, and no two are the same. -/
structure LeadsTo (source : OperationSource) (chain : List Value) (name : Value) : Prop where
  based : (chain ++ [name]).IsChain fun derived base => source.NamesBase base derived
  apart : chain.Pairwise fun left right => (left == right) = false

/-- Names follow their bases until one is met again. -/
structure Circle (source : OperationSource) (names : List Value) : Prop where
  based : names.IsChain fun derived base => source.NamesBase base derived
  apart : names.dropLast.Pairwise fun left right => (left == right) = false
  again : ∃ last, names.getLast? = some last ∧ ∃ name ∈ names.dropLast, (name == last) = true

theorem LeadsTo.step (leads : source.LeadsTo chain name)
    (fresh : ¬ chain.any (· == name) = true) (named : source.NamesBase base name) :
    source.LeadsTo (chain ++ [name]) base where
  based := by
    rw [List.append_assoc, List.singleton_append, List.isChain_append_cons_cons]
    exact ⟨leads.based, named, .singleton base⟩
  apart := by
    refine List.pairwise_append.mpr ⟨leads.apart, List.pairwise_singleton _ _, ?_⟩
    intro waiting inside last member
    cases List.mem_singleton.mp member
    exact eq_false_of_ne_true fun same => fresh (List.any_eq_true.mpr ⟨waiting, inside, same⟩)

theorem LeadsTo.circle (leads : source.LeadsTo chain name) (met : chain.any (· == name) = true) :
    source.Circle (chain ++ [name]) where
  based := leads.based
  apart := by
    rw [List.dropLast_concat]
    exact leads.apart
  again := by
    refine ⟨name, List.getLast?_concat, ?_⟩
    rw [List.dropLast_concat]
    exact List.any_eq_true.mp met

/-- A call of the builder that ends at a circle names the operations that waited for it, and goes on
from there. -/
theorem LeadsTo.circle_of_build (leads : source.LeadsTo chain name)
    (failed : source.build chain name built = .error failure)
    (circular : failure.error = .circularBases names) :
    source.Circle names ∧ ∃ bases, names = chain ++ name :: bases := by
  fun_induction OperationSource.build source chain name built with
  | case1 => contradiction
  | case2 chain name _ met =>
      cases failed
      cases LoadError.eq_of_joining circular
      exact ⟨leads.circle met, [], rfl⟩
  | case3 =>
      obtain ⟨error, rfl⟩ := failure_of_extend failed
      contradiction
  | case4 chain name _ fresh base given known earlier runBase ih =>
      cases failed
      obtain ⟨circle, bases, rfl⟩ := ih (leads.step fresh ⟨given, known⟩) runBase
      exact ⟨circle, base :: bases, List.append_assoc _ _ _⟩
  | case5 =>
      obtain ⟨error, rfl⟩ := failure_of_extend failed
      contradiction
  | case6 =>
      obtain ⟨error, rfl⟩ := failure_of_extend failed
      contradiction
  | case7 =>
      cases failed
      contradiction

/-! What has been built when building ends, in whatever way. -/

def builtBy : Except BuildFailure BuiltOperations → BuiltOperations
  | .ok built => built
  | .error failure => failure.built

/-- Where following the bases of a name ends, following the bases of its operation does. -/
theorem acc_of_ends (distinct : Entries.Distinct source.operations) (ends : source.Ends name)
    (declares : source.Declares name operation) : Acc source.BaseOf operation := by
  induction ends generalizing operation with
  | intro name _ ih =>
      refine .intro operation fun derived based => ?_
      obtain ⟨-, baseName, given, declaresBase⟩ := based
      rw [← declares.entry_eq distinct] at given
      exact ih baseName ⟨given, hasKey_iff_declares.mpr ⟨derived, declaresBase⟩⟩ declaresBase

section Shaped

variable (shaped : ∀ operation ∈ source.operations, Shape.isOperation operation.2 = true)

include shaped

theorem AllEnd.build_error (ending : source.AllEnd built)
    (failed : source.build chain name built = .error failure) : source.AllEnd failure.built := by
  fun_induction OperationSource.build source chain name built with
  | case1 => contradiction
  | case2 =>
      cases failed
      exact ending
  | case3 =>
      obtain ⟨error, rfl⟩ := failure_of_extend failed
      exact ending
  | case4 chain name _ _ base _ _ earlier runBase ih =>
      cases failed
      exact ih runBase
  | case5 chain name _ _ base _ _ middle runBase =>
      obtain ⟨error, rfl⟩ := failure_of_extend failed
      exact ending.build shaped runBase
  | case6 chain name _ _ base _ _ middle runBase =>
      obtain ⟨error, rfl⟩ := failure_of_extend failed
      exact ending.build shaped runBase
  | case7 =>
      cases failed
      exact ending

theorem allEnd_builtBy : source.AllEnd (builtBy source.buildAll) := by
  cases run : source.buildAll with
  | ok built => exact allEnd_of_buildEach shaped run
  | error failure =>
      obtain ⟨before, operation, after, middle, -, ran, failed⟩ := exists_of_foldlM_error run
      have ending : source.AllEnd middle := allEnd_of_buildEach shaped ran
      exact ending.build_error shaped failed

theorem exists_texts {first : Value} {rest : List Value} (text : first.isText = true)
    (based : (first :: rest).IsChain fun derived base => source.NamesBase base derived) :
    ∃ texts, List.Forall₂ (fun name text => name.text? = some text) (first :: rest) texts := by
  induction rest generalizing first with
  | nil =>
      obtain ⟨here, read⟩ := Option.isSome_iff_exists.mp text
      exact ⟨[here], .cons read .nil⟩
  | cons second rest ih =>
      obtain ⟨named, later⟩ := List.isChain_cons_cons.mp based
      obtain ⟨here, read⟩ := Option.isSome_iff_exists.mp text
      obtain ⟨texts, others⟩ := ih (isText_of_entry shaped named.1) later
      exact ⟨here :: texts, .cons read others⟩

/-- The error about circular bases names a declared operation, before which all went well, and then
one base after the other until one is met again. No operation that is among its own bases is ever
built. -/
theorem circle_of_schemas (distinct : Entries.Distinct source.operations)
    (textual : ∀ operation ∈ source.operations, operation.1.isText = true) :
    (∀ names, source.schemas = .error (.circularBases names) →
      (∃ before operation after built, source.operations = before ++ operation :: after ∧
        names.head? = some operation.1 ∧ source.buildEach before [] = .ok built ∧
        ∀ earlier ∈ before, Entries.hasKey earlier.1 built = true) ∧
      source.Circle names ∧
      ∃ texts, List.Forall₂ (fun name text => name.text? = some text) names texts ∧
        (LoadError.circularBases names).message =
          "Circular base reference between operations: " ++ Text.join " -> " texts) ∧
    ∀ operation ∈ source.operations, Relation.TransGen source.BaseOf operation operation →
      Entries.hasKey operation.1 (builtBy source.buildAll) = false := by
  constructor
  · intro names ended
    unfold schemas at ended
    split at ended
    · contradiction
    · rename_i failure run
      have circular : failure.error = .circularBases names := Except.error.inj ended
      obtain ⟨before, operation, after, built, parts, ran, failed⟩ := exists_of_foldlM_error run
      have leads : source.LeadsTo [] operation.1 := ⟨.singleton _, .nil⟩
      obtain ⟨circle, bases, rfl⟩ := leads.circle_of_build failed circular
      have inside : operation ∈ source.operations := by simp [parts]
      have within : before ⊆ source.operations := by simp [parts]
      have sound : source.Sound [] := nofun
      obtain ⟨-, -, earlier⟩ := sound.buildEach distinct within shaped ran
      obtain ⟨texts, read⟩ := exists_texts shaped (textual operation inside) circle.based
      exact ⟨⟨before, operation, after, built, parts, rfl, ran, earlier⟩, circle, texts, read,
        LoadError.message_circularBases read⟩
  · intro operation inside again
    by_contra known
    have ends : source.Ends operation.1 :=
      (allEnd_builtBy shaped).ends_of_hasKey (eq_true_of_ne_false known)
    exact not_transGen_of_acc (acc_of_ends distinct ends (declares_of_mem inside)) again

end Shaped

/-- Two operations that can be built, and three of which the first leads to a circle of the
others. -/
def circledSearch : OperationSource where
  operations := [extending "SearchMine" "Search", (.text "Search", .list [.text "Owner"]),
    extending "List" "ListPages", extending "ListPages" "ListItems",
    extending "ListItems" "ListPages"]
  sources := none
  file := none
where
  extending (name base : String) : Value × Value :=
    (.text name, .map [(.text "base", .text base), (.text "options", .list [])])

theorem circledSearch_circle :
    (∃ names, circledSearch.schemas = .error (.circularBases names) ∧
      names.filterMap Value.text? =
        List.map Text.ofString ["List", "ListPages", "ListItems", "ListPages"] ∧
      circledSearch.Circle names) ∧
    ∀ operation ∈ circledSearch.operations.drop 3,
      Entries.hasKey operation.1 (builtBy circledSearch.buildAll) = false := by
  have shaped : ∀ operation ∈ circledSearch.operations, Shape.isOperation operation.2 = true := by
    decide
  have distinct : Entries.Distinct circledSearch.operations := by decide
  have textual : ∀ operation ∈ circledSearch.operations, operation.1.isText = true := by decide
  obtain ⟨circular, unbuilt⟩ := circle_of_schemas shaped distinct textual
  let listed : Except LoadError (List (Value × Schema)) → List Text
    | .error (.circularBases names) => names.filterMap Value.text?
    | _ => []
  have names : listed circledSearch.schemas =
      List.map Text.ofString ["List", "ListPages", "ListItems", "ListPages"] := by
    decide +kernel
  refine ⟨?_, ?_⟩
  · cases ended : circledSearch.schemas with
    | ok => rw [ended] at names; contradiction
    | error error =>
        rw [ended] at names
        cases error with
        | circularBases operations => exact ⟨operations, rfl, names, (circular _ ended).2.1⟩
        | _ => contradiction
  · have pages : circledSearch.operations[3] ∈ circledSearch.operations := List.getElem_mem _
    have items : circledSearch.operations[4] ∈ circledSearch.operations := List.getElem_mem _
    have first : circledSearch.BaseOf circledSearch.operations[4] circledSearch.operations[3] :=
      ⟨pages, .text "ListItems", rfl, items, rfl⟩
    have second : circledSearch.BaseOf circledSearch.operations[3] circledSearch.operations[4] :=
      ⟨items, .text "ListPages", rfl, pages, rfl⟩
    refine List.forall_mem_cons.mpr ⟨unbuilt _ pages (.tail (.single second) first),
      List.forall_mem_singleton.mpr (unbuilt _ items (.tail (.single first) second))⟩

end OperationSource

end QueryOptions
