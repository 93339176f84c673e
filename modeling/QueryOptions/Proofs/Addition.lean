import QueryOptions.Proofs.Customizing
import QueryOptions.Request.Params

namespace QueryOptions

/-! Options that a configuration adds. What declares nothing but new wire names leaves the options of
the base as they are and adds others after them. A request that names none of these has the same
outcome as before, unless one of them is required. -/

variable {known level : List Node} {wire : Text} {declared : List NamedBlock}

theorem findWire?_append (wire : Text) (first second : List Node) :
    findWire? wire (first ++ second) =
      (findWire? wire second).or (findWire? wire first) := by
  rw [findWire?, List.reverse_append, List.find?_append]
  rfl

theorem declareAll_append_of_fresh
    (fresh : ∀ named ∈ declared, named.1.text ∉ wireTexts known) :
    declareAll (known ++ level) declared = known ++ declareAll level declared := by
  induction declared generalizing level with
  | nil => rfl
  | cons named rest ih =>
      obtain ⟨here, later⟩ := List.forall_mem_cons.mp fresh
      have step : declareIn (known ++ level) named = known ++ declareIn level named := by
        have found : findWire? named.1.text (known ++ level) = findWire? named.1.text level := by
          rw [findWire?_append, findWire?_eq_none_iff.mpr here, Option.or_none]
        rw [declareIn, found]
        refine putNode_append_of_notMem ?_
        rwa [wire_declared]
      rw [declareAll_cons, step, ih later, declareAll_cons]

namespace Schema

variable {base schema left right : Schema} {configuration : Value} {declarations : List Declaration}
  {entries : List (Value × Value)}

/-! Schemas in which the keys of a request find the same options. -/

theorem supplied_congr
    (same : ∀ entry ∈ entries, left.option? entry.1.shown = right.option? entry.1.shown) :
    validate.supplied left entries = validate.supplied right entries := by
  induction entries with
  | nil => rfl
  | cons entry rest ih =>
      obtain ⟨key, value⟩ := entry
      obtain ⟨here, later⟩ := List.forall_mem_cons.mp same
      simp only at here
      rw [validate.supplied, validate.supplied, here, ih later]

theorem validate_congr
    (same : ∀ entry ∈ entries, left.option? entry.1.shown = right.option? entry.1.shown)
    (missing : findMissing? left.options entries = findMissing? right.options entries) :
    left.validate (.map entries) = right.validate (.map entries) := by
  rw [validate, validate, supplied_congr same, missing]

theorem params?_congr (codec : BlobCodec)
    (same : ∀ entry ∈ entries, left.option? entry.1.shown = right.option? entry.1.shown) :
    left.params? codec entries = right.params? codec entries := by
  rw [params?, params?]
  induction entries with
  | nil => rfl
  | cons entry rest ih =>
      obtain ⟨key, value⟩ := entry
      obtain ⟨here, later⟩ := List.forall_mem_cons.mp same
      simp only at here
      rw [paramsOfEntries, paramsOfEntries, here, ih later]

/-- The option has come with customizing. -/
def Adds (base schema : Schema) (option : Node) : Prop :=
  option ∈ schema.options ∧ base.optionByWireName? option.wire.text = none

theorem exists_added (built : base.customize configuration = .ok schema)
    (read : Declaration.ofConfiguration configuration = .ok declarations)
    (fresh : ∀ declaration ∈ declarations, base.optionByWireName? declaration.name.text = none) :
    ∃ added, schema.options = base.options ++ added ∧ ∀ option ∈ added, base.Adds schema option := by
  obtain ⟨declared, found, rfl⟩ := customize_eq_ok_iff.mp built
  rw [Declaration.readConfiguration, read] at found
  have names := Declaration.names_of_read found
  have unknown : ∀ named ∈ declared, named.1.text ∉ wireTexts base.options := by
    intro named inside
    have declaredName : named.1 ∈ declarations.map Declaration.name :=
      names ▸ List.mem_map_of_mem inside
    obtain ⟨declaration, member, same⟩ := List.mem_map.mp declaredName
    rw [← same]
    exact findWire?_eq_none_iff.mp (fresh declaration member)
  have options : declareAll base.options declared = base.options ++ declareAll [] declared := by
    have appended : declareAll (base.options ++ []) declared = _ := declareAll_append_of_fresh unknown
    rwa [List.append_nil] at appended
  refine ⟨declareAll [] declared, options, fun option inside => ⟨?_, ?_⟩⟩
  · exact options ▸ List.mem_append_right _ inside
  · have declaredWire : option.wire.text ∈ wireTexts (declareAll [] declared) :=
      List.mem_map_of_mem inside
    rcases mem_wireTexts_declareAll.mp declaredWire with none | ⟨named, member, same⟩
    · simp [wireTexts] at none
    · exact findWire?_eq_none_iff.mpr (same ▸ unknown named member)

theorem findMissing?_append_of_optional {first second : List Node}
    (optional : ∀ option ∈ second, option.required = false) :
    findMissing? (first ++ second) entries = findMissing? first entries := by
  have none : findMissing? second entries = none :=
    List.find?_eq_none.mpr fun option inside => by simp [optional option inside]
  rw [findMissing?] at none ⊢
  rw [List.find?_append, none, Option.or_none]
  rfl

/-- Options that are added and not required change nothing for requests that do not name them. -/
theorem requestParams_of_unnamed (built : base.customize configuration = .ok schema)
    (read : Declaration.ofConfiguration configuration = .ok declarations)
    (fresh : ∀ declaration ∈ declarations, base.optionByWireName? declaration.name.text = none)
    (optional : ∀ option, base.Adds schema option → option.required = false)
    (unnamed : ∀ option, base.Adds schema option → ∀ entry ∈ entries,
      entry.1.shown ≠ option.binding) :
    schema.validate (.map entries) = base.validate (.map entries) ∧
    ∀ codec, schema.requestParams codec (.map entries) = base.requestParams codec (.map entries) := by
  obtain ⟨added, options, new⟩ := exists_added built read fresh
  have same : ∀ entry ∈ entries, schema.option? entry.1.shown = base.option? entry.1.shown := by
    intro entry supplied
    have unfound : findBinding? entry.1.shown added = none :=
      findBinding?_eq_none_iff.mpr fun option inside named =>
        unnamed option (new option inside) entry supplied named.symm
    rw [option?, options, findBinding?_append, unfound]
    rfl
  have missing : findMissing? schema.options entries = findMissing? base.options entries := by
    rw [options]
    exact findMissing?_append_of_optional fun option inside => optional option (new option inside)
  have checked := validate_congr same missing
  refine ⟨checked, fun codec => ?_⟩
  unfold requestParams
  rw [checked]
  cases base.validate (.map entries) with
  | error error => rfl
  | ok => simp only [params?_congr codec same]

/-- A limit, and a sort order of which a direction must be given. -/
def paging : Value :=
  let order : Value := .map [(.text "structure", .map [(.text "Direction", .text "required")])]
  .list [.map [(.text "Limit", .list [.text "integer"])], .map [(.text "SortOrder", .list [order])]]

def pagedFilters : Schema :=
  let direction : Node := .scalar ⟨.plain "Direction", "direction", true⟩ .string
  ⟨filters.options ++ [.scalar ⟨.plain "Limit", "limit", false⟩ .integer,
    .structure ⟨.plain "SortOrder", "sort_order", false⟩ [direction]]⟩

theorem pagedFilters_requestParams_of_filtersGiven :
    filters.customize paging = .ok pagedFilters ∧
    (∃ declarations, Declaration.ofConfiguration paging = .ok declarations ∧
      ∀ declaration ∈ declarations, filters.optionByWireName? declaration.name.text = none) ∧
    (∀ option, filters.Adds pagedFilters option → option.required = false) ∧
    (∀ option, filters.Adds pagedFilters option → ∀ entry ∈ filtersGiven,
      entry.1.shown ≠ option.binding) ∧
    pagedFilters.validate (.map filtersGiven) = filters.validate (.map filtersGiven) ∧
    ∀ codec, pagedFilters.requestParams codec (.map filtersGiven) =
      filters.requestParams codec (.map filtersGiven) := by
  have built : filters.customize paging = .ok pagedFilters := rfl
  have fresh : ∀ declaration ∈ (Declaration.ofConfiguration paging).toOption.getD [],
      filters.optionByWireName? declaration.name.text = none := by decide
  have optional : ∀ option ∈ pagedFilters.options,
      filters.optionByWireName? option.wire.text = none → option.required = false := by decide
  have unnamed : ∀ option ∈ pagedFilters.options,
      filters.optionByWireName? option.wire.text = none → ∀ entry ∈ filtersGiven,
        entry.1.shown ≠ option.binding := by decide
  have outcome := requestParams_of_unnamed built rfl fresh (fun option new => optional option new.1 new.2)
    fun option new => unnamed option new.1 new.2
  exact ⟨built, ⟨_, rfl, fresh⟩, fun option new => optional option new.1 new.2,
    fun option new => unnamed option new.1 new.2, outcome⟩

end Schema

end QueryOptions
