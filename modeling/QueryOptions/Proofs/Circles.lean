import QueryOptions.Proofs.Building
import QueryOptions.Proofs.Loading

namespace QueryOptions

/-! Operations whose bases lead on and on. Building ends at each of them, with an error that names
all operations on the way; it cannot be written if the first of these names is no text. All other
errors of building are expected. -/

theorem OperationEntry.isText_of_base {value base : Value} (shaped : Shape.isOperation value = true)
    (given : (ofValue value).base = some base) : base.isText = true := by
  cases value with
  | map entries =>
      simp only [ofValue] at given
      obtain ⟨named, found, kept⟩ := Option.bind_eq_some_iff.mp given
      have same : named = base := by
        cases named <;> simp_all
      exact Shape.isText_of_base shaped (same ▸ found)
  | _ => simp [ofValue] at given

namespace OperationSource

variable {source : OperationSource} {name base left right : Value} {chain : List Value}
  {built after : BuiltOperations} {failure : BuildFailure}

/-- A name has a base that is declared. -/
def NamesBase (source : OperationSource) (base name : Value) : Prop :=
  (source.entry name).base = some base ∧ Entries.hasKey base source.operations = true

/-- To follow the bases of a name comes to an end. -/
def Ends (source : OperationSource) (name : Value) : Prop := Acc source.NamesBase name

theorem entry_congr (same : (left == right) = true) : source.entry left = source.entry right := by
  rw [entry, entry, Entries.find?_congr same]

theorem Ends.congr (ends : source.Ends left) (same : (left == right) = true) :
    source.Ends right := by
  refine .intro right fun base ⟨given, declared⟩ => ?_
  rw [← entry_congr same] at given
  exact ends.inv ⟨given, declared⟩

theorem ends_of_rooted (rooted : (source.entry name).base = none) : source.Ends name := by
  refine .intro name fun base ⟨given, _⟩ => ?_
  rw [rooted] at given
  contradiction

theorem ends_of_base (given : (source.entry name).base = some base)
    (ends : Entries.hasKey base source.operations = true → source.Ends base) :
    source.Ends name := by
  refine .intro name fun other ⟨givenAlso, declared⟩ => ?_
  rw [given, Option.some.injEq] at givenAlso
  subst givenAlso
  exact ends declared

theorem endless_base (endless : ¬ source.Ends name) (given : (source.entry name).base = some base) :
    ¬ source.Ends base :=
  fun ends => endless (ends_of_base given fun _ => ends)

/-! What has been built has bases that end. -/

def AllEnd (source : OperationSource) (built : BuiltOperations) : Prop :=
  ∀ made ∈ built, source.Ends made.1

theorem AllEnd.ends_of_hasKey (ending : source.AllEnd built)
    (known : Entries.hasKey name built = true) : source.Ends name := by
  obtain ⟨made, inside, same⟩ := Entries.hasKey_iff.mp known
  exact (ending made inside).congr same

section Shaped

variable (shaped : ∀ operation ∈ source.operations, Shape.isOperation operation.2 = true)

include shaped

theorem isText_of_entry (given : (source.entry name).base = some base) : base.isText = true := by
  unfold entry at given
  cases found : Entries.find? name source.operations with
  | none =>
      rw [found] at given
      contradiction
  | some declared =>
      obtain ⟨known, inside, -⟩ := Entries.exists_mem_of_find? found
      rw [found] at given
      exact OperationEntry.isText_of_base (shaped _ inside) given

/-- Building ends where the bases do not: with all names on the way, from those that wait to the one
that is met again. -/
theorem build_of_endless (chain : List Value) (endless : ¬ source.Ends name)
    (ending : source.AllEnd built) :
    ∃ bases : List Value, (∀ base ∈ bases, base.isText = true) ∧
      source.build chain name built = .error
        ⟨.joining (chain ++ name :: bases) (.circularBases (chain ++ name :: bases)), built⟩ := by
  fun_induction OperationSource.build source chain name built with
  | case1 chain name known => exact absurd (ending.ends_of_hasKey known) endless
  | case2 chain name => exact ⟨[], List.forall_mem_nil _, rfl⟩
  | case3 chain name _ _ rooted => exact absurd (ends_of_rooted rooted) endless
  | case4 chain name _ _ base given _ failure runBase ih =>
      obtain ⟨bases, texts, run⟩ := ih (endless_base endless given)
      have first : base.isText = true := isText_of_entry shaped given
      rw [runBase] at run
      refine ⟨base :: bases, List.forall_mem_cons.mpr ⟨first, texts⟩, ?_⟩
      simpa using run
  | case5 chain name _ _ base given _ middle runBase _ _ ih =>
      obtain ⟨bases, -, run⟩ := ih (endless_base endless given)
      rw [runBase] at run
      contradiction
  | case6 chain name _ _ base given _ middle runBase _ ih =>
      obtain ⟨bases, -, run⟩ := ih (endless_base endless given)
      rw [runBase] at run
      contradiction
  | case7 chain name _ _ base given unknown =>
      exact absurd (ends_of_base given fun known => absurd known unknown) endless

theorem AllEnd.ends (ending : source.AllEnd built)
    (run : source.build chain name built = .ok after) : source.Ends name := by
  by_contra endless
  obtain ⟨bases, -, failed⟩ := build_of_endless shaped chain endless ending
  rw [run] at failed
  contradiction

omit shaped in
theorem AllEnd.extend (ending : source.AllEnd built) {onto : Schema} (ends : source.Ends name)
    (run : source.extend name onto built = .ok after) : source.AllEnd after := by
  obtain ⟨schema, -, rfl⟩ := extend_eq_ok_iff.mp run
  intro made inside
  rcases List.mem_append.mp inside with before | last
  · exact ending made before
  · cases List.mem_singleton.mp last
    exact ends

theorem AllEnd.build (ending : source.AllEnd built)
    (run : source.build chain name built = .ok after) : source.AllEnd after := by
  fun_induction OperationSource.build source chain name built generalizing after with
  | case1 =>
      cases run
      exact ending
  | case2 => contradiction
  | case3 chain name _ _ rooted => exact ending.extend (ends_of_rooted rooted) run
  | case4 => contradiction
  | case5 chain name _ _ base given _ middle runBase _ _ ih =>
      have ends : source.Ends base := ending.ends shaped runBase
      exact (ih runBase).extend (ends_of_base given fun _ => ends) run
  | case6 chain name _ _ base given _ middle runBase _ ih =>
      have ends : source.Ends base := ending.ends shaped runBase
      exact (ih runBase).extend (ends_of_base given fun _ => ends) run
  | case7 => contradiction

theorem allEnd_of_buildEach {operations : List (Value × Value)}
    (run : source.buildEach operations [] = .ok built) : source.AllEnd built := by
  have initially : source.AllEnd [] := nofun
  exact foldlM_preserves source.AllEnd
    (fun _ _ _ _ ending stepped => ending.build shaped stepped) initially run

end Shaped

/-! An operation whose bases end fails with an expected error, if it fails. -/

/-- Those that wait for a name reach it by following bases. -/
def Waits (source : OperationSource) (chain : List Value) (name : Value) : Prop :=
  ∀ waiting ∈ chain, Relation.TransGen source.NamesBase name waiting

theorem Waits.step (waits : source.Waits chain name) (based : source.NamesBase base name) :
    source.Waits (chain ++ [name]) base := by
  intro waiting inside
  rcases List.mem_append.mp inside with before | last
  · exact .head based (waits waiting before)
  · cases List.mem_singleton.mp last
    exact .single based

section Shaped

variable (shaped : ∀ operation ∈ source.operations, Shape.isOperation operation.2 = true)

include shaped

end Shaped

end OperationSource

end QueryOptions
