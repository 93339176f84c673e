import Mathlib.Data.List.Forall2

namespace QueryOptions

/-! Loops that may fail, and lists that are related item by item. -/

/-! Related lists. -/

theorem exists_of_forall₂ {α β : Type} {related : α → β → Prop} {items : List α} {results : List β}
    (all : List.Forall₂ related items results) {item : α} (inside : item ∈ items) :
    ∃ result ∈ results, related item result := by
  induction all with
  | nil => simp at inside
  | cons first _ ih =>
      rcases List.mem_cons.mp inside with rfl | inRest
      · exact ⟨_, List.mem_cons_self, first⟩
      · obtain ⟨result, member, found⟩ := ih inRest
        exact ⟨result, List.mem_cons_of_mem _ member, found⟩

theorem forall_mem_iff_of_forall₂ {α β : Type} {first : α → Prop} {second : β → Prop}
    {items : List α} {results : List β}
    (all : List.Forall₂ (fun item result => first item ↔ second result) items results) :
    (∀ item ∈ items, first item) ↔ ∀ result ∈ results, second result := by
  induction all with
  | nil => simp
  | cons here _ ih => rw [List.forall_mem_cons, List.forall_mem_cons, here, ih]

theorem forall₂_comp {α β γ : Type} {first : α → β → Prop} {second : β → γ → Prop} {items : List α}
    {middles : List β} {results : List γ} (before : List.Forall₂ first items middles)
    (after : List.Forall₂ second middles results) :
    List.Forall₂ (fun item result => ∃ middle, first item middle ∧ second middle result)
      items results := by
  induction before generalizing results with
  | nil =>
      cases after
      exact .nil
  | cons here _ ih =>
      cases after with
      | cons there others => exact .cons ⟨_, here, there⟩ (ih others)

/-! Loops. -/

theorem toOption_eq_some_iff {α ε : Type} {result : Except ε α} {value : α} :
    result.toOption = some value ↔ result = .ok value := by
  cases result <;> simp [Except.toOption]

theorem exists_ok_of_any {α ε : Type} {result : Except ε α} {passes : α → Bool}
    (passed : result.toOption.any passes = true) :
    ∃ value, result = .ok value ∧ passes value = true := by
  obtain ⟨value, found, holds⟩ := (Option.any_eq_true _ _).mp passed
  exact ⟨value, toOption_eq_some_iff.mp found, holds⟩

theorem toOption_bind {α β ε : Type} (first : Except ε α) (next : α → Except ε β) :
    (first >>= next).toOption = first.toOption.bind fun value => (next value).toOption := by
  cases first <;> rfl

theorem toOption_map {α β ε : Type} (result : Except ε α) (change : α → β) :
    (result.map change).toOption = result.toOption.map change := by
  cases result <;> rfl

theorem ok_of_bind {α β ε : Type} {first : Except ε α} {next : α → Except ε β} {result : β}
    (bound : first >>= next = .ok result) :
    ∃ value, first = .ok value ∧ next value = .ok result := by
  cases first with
  | error error => simp [bind, Except.bind] at bound
  | ok value => exact ⟨value, rfl, bound⟩

theorem map_eq_ok_iff {α β ε : Type} {result : Except ε α} {change : α → β} {value : β} :
    result.map change = .ok value ↔ ∃ item, result = .ok item ∧ change item = value := by
  cases result <;> simp [Except.map]

theorem foldlM_preserves {α β ε : Type} (holds : α → Prop) {step : α → β → Except ε α}
    {items : List β} {start final : α}
    (kept : ∀ before after, ∀ item ∈ items, holds before → step before item = .ok after →
      holds after)
    (initially : holds start) (folded : items.foldlM step start = .ok final) : holds final := by
  induction items generalizing start with
  | nil => cases folded; exact initially
  | cons item rest ih =>
      rw [List.foldlM_cons] at folded
      obtain ⟨next, stepped, tail⟩ := ok_of_bind folded
      exact ih (fun before after other inRest => kept before after other (List.mem_cons_of_mem _ inRest))
        (kept start next item List.mem_cons_self initially stepped) tail

/-- A loop that fails has come to a step that fails. -/
theorem exists_of_foldlM_error {α β ε : Type} {step : α → β → Except ε α} {items : List β}
    {start : α} {error : ε} (failed : items.foldlM step start = .error error) :
    ∃ before item after middle, items = before ++ item :: after ∧
      before.foldlM step start = .ok middle ∧ step middle item = .error error := by
  induction items generalizing start with
  | nil => contradiction
  | cons first rest ih =>
      rw [List.foldlM_cons] at failed
      cases stepped : step start first with
      | error here =>
          rw [stepped] at failed
          cases failed
          exact ⟨[], first, rest, start, rfl, rfl, stepped⟩
      | ok next =>
          rw [stepped] at failed
          obtain ⟨before, item, after, middle, rfl, run, ended⟩ := ih failed
          have runAll : (first :: before).foldlM step start = .ok middle := by
            rw [List.foldlM_cons, stepped]
            exact run
          exact ⟨first :: before, item, after, middle, rfl, runAll, ended⟩

theorem forall₂_of_mapM_ok {α β ε : Type} {step : α → Except ε β} {items : List α}
    {results : List β} (mapped : items.mapM step = .ok results) :
    List.Forall₂ (fun item result => step item = .ok result) items results := by
  induction items generalizing results with
  | nil =>
      cases mapped
      exact .nil
  | cons item rest ih =>
      rw [List.mapM_cons] at mapped
      obtain ⟨first, stepped, tail⟩ := ok_of_bind mapped
      obtain ⟨others, mappedRest, joined⟩ := ok_of_bind tail
      cases joined
      exact .cons stepped (ih mappedRest)

theorem mem_of_mapM_ok {α β ε : Type} {step : α → Except ε β} {items : List α} {results : List β}
    (mapped : items.mapM step = .ok results) {result : β} (member : result ∈ results) :
    ∃ item ∈ items, step item = .ok result :=
  exists_of_forall₂ (forall₂_of_mapM_ok mapped).flip member

theorem exists_of_mapM_error {α β ε : Type} {step : α → Except ε β} {items : List α} {error : ε}
    (failed : items.mapM step = .error error) : ∃ item ∈ items, step item = .error error := by
  induction items with
  | nil => contradiction
  | cons item rest ih =>
      rw [List.mapM_cons] at failed
      cases stepped : step item with
      | error here =>
          rw [stepped] at failed
          cases failed
          exact ⟨item, List.mem_cons_self, stepped⟩
      | ok result =>
          rw [stepped] at failed
          cases mapped : rest.mapM step with
          | error later =>
              have same : later = error := by
                rw [mapped] at failed
                exact Except.error.inj failed
              obtain ⟨other, inRest, ended⟩ := ih (same ▸ mapped)
              exact ⟨other, List.mem_cons_of_mem _ inRest, ended⟩
          | ok results =>
              rw [mapped] at failed
              contradiction

theorem exists_mapM_ok {α β ε : Type} {step : α → Except ε β} {items : List α}
    (each : ∀ item ∈ items, ∃ result, step item = .ok result) :
    ∃ results, items.mapM step = .ok results := by
  induction items with
  | nil => exact ⟨[], rfl⟩
  | cons item rest ih =>
      obtain ⟨⟨result, stepped⟩, others⟩ := List.forall_mem_cons.mp each
      obtain ⟨results, mapped⟩ := ih others
      exact ⟨result :: results, by rw [List.mapM_cons, stepped, mapped]; rfl⟩

theorem mapM_append_eq_ok_iff {α β ε : Type} {step : α → Except ε β} {first second : List α}
    {results : List β} : (first ++ second).mapM step = .ok results ↔
      ∃ start rest, first.mapM step = .ok start ∧ second.mapM step = .ok rest ∧
        results = start ++ rest := by
  rw [List.mapM_append]
  constructor
  · intro joined
    obtain ⟨start, read, tail⟩ := ok_of_bind joined
    obtain ⟨rest, readRest, made⟩ := ok_of_bind tail
    cases made
    exact ⟨start, rest, read, readRest, rfl⟩
  · rintro ⟨start, rest, read, readRest, rfl⟩
    rw [read, readRest]
    rfl

section Loops

variable {σ α β ε : Type} {step : σ → α → Except ε σ} {read : α → Except ε β} {apply : σ → β → σ}

/-- A loop whose steps succeed or fail by what they read. -/
theorem toOption_foldlM (items : List α) (start : σ)
    (same : ∀ state item, (step state item).toOption = (read item).toOption.map (apply state)) :
    (items.foldlM step start).toOption =
      (items.mapM read).toOption.map fun results => results.foldl apply start := by
  induction items generalizing start with
  | nil => rfl
  | cons item rest ih =>
      rw [List.foldlM_cons, List.mapM_cons, toOption_bind, toOption_bind, same]
      cases (read item).toOption with
      | none => rfl
      | some result =>
          simp only [Option.map_some, Option.bind_some, ih, toOption_bind]
          cases (rest.mapM read).toOption <;> rfl

/-- A loop whose steps do nothing but apply what they read. -/
theorem foldlM_eq_map (holds : σ → Prop) (items : List α) (start : σ) (initially : holds start)
    (same : ∀ state, holds state → ∀ item ∈ items,
      step state item = (read item).map (apply state))
    (kept : ∀ state, holds state → ∀ item ∈ items, ∀ result, read item = .ok result →
      holds (apply state result)) :
    items.foldlM step start = (items.mapM read).map fun results => results.foldl apply start := by
  induction items generalizing start with
  | nil => rfl
  | cons item rest ih =>
      rw [List.foldlM_cons, List.mapM_cons, same start initially item List.mem_cons_self]
      cases found : read item with
      | error error => rfl
      | ok result =>
          have next := kept start initially item List.mem_cons_self result found
          have tail := ih (apply start result) next
            (fun state holds other inRest => same state holds other (List.mem_cons_of_mem _ inRest))
            (fun state holds other inRest => kept state holds other (List.mem_cons_of_mem _ inRest))
          change rest.foldlM step (apply start result) = _
          rw [tail]
          cases rest.mapM read <;> rfl

end Loops

end QueryOptions
