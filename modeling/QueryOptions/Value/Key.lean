import QueryOptions.Value.Basic

/-!
Keys of mappings. That two values count as the same key is an equivalence, which look-ups by key
rely on.
-/

namespace QueryOptions

theorem Moment.coincides_self (time : Moment) : time.coincides time = true := by
  cases offset : time.offset <;> simp [coincides, offset]

theorem Moment.coincides_of_common {time left right : Moment} (first : time.coincides left = true)
    (second : time.coincides right = true) : left.coincides right = true := by
  unfold coincides at *
  grind

namespace Value

mutual

theorem sameForm_self : ∀ value : Value, value.sameForm value = true
  | .list items | .tuple items | .once items => by simp only [sameForm, sameForms_self items]
  | .set _ items => by simp [sameForm, sameForms_self items]
  | .map entries => by simp only [sameForm, sameEntries_self entries]
  | .moment time => by simp only [sameForm, Moment.coincides_self]
  | .null => rfl
  | .bool _ | .int _ | .float _ | .decimal _ | .fraction _ _ | .text _ | .kind _ | .bytes _ _
  | .range _ _ _ | .date _ => by simp [sameForm]

theorem sameForms_self : ∀ items, sameForms items items = true
  | [] => rfl
  | item :: rest => by simp only [sameForms, sameForm_self item, sameForms_self rest, Bool.and_self]

theorem sameEntries_self : ∀ entries, sameEntries entries entries = true
  | [] => rfl
  | (key, value) :: rest => by
      simp only [sameEntries, sameForm_self key, sameForm_self value, sameEntries_self rest,
        Bool.and_self]

end

mutual

theorem sameForm_of_common : ∀ {value left right : Value}, value.sameForm left = true →
    value.sameForm right = true → left.sameForm right = true
  | .list _, left, right, first, second | .tuple _, left, right, first, second
  | .once _, left, right, first, second => by
      cases left <;> simp only [sameForm, Bool.false_eq_true] at first
      cases right <;> simp only [sameForm, Bool.false_eq_true] at second ⊢
      exact sameForms_of_common first second
  | .set _ _, left, right, first, second => by
      cases left <;> simp only [sameForm, Bool.false_eq_true, Bool.and_eq_true] at first
      cases right <;> simp only [sameForm, Bool.false_eq_true, Bool.and_eq_true] at second ⊢
      exact ⟨by grind, sameForms_of_common first.2 second.2⟩
  | .map _, left, right, first, second => by
      cases left <;> simp only [sameForm, Bool.false_eq_true] at first
      cases right <;> simp only [sameForm, Bool.false_eq_true] at second ⊢
      exact sameEntries_of_common first second
  | .moment _, left, right, first, second => by
      cases left <;> simp only [sameForm, Bool.false_eq_true] at first
      cases right <;> simp only [sameForm, Bool.false_eq_true] at second ⊢
      exact Moment.coincides_of_common first second
  | .null, left, right, first, second | .bool _, left, right, first, second
  | .int _, left, right, first, second | .float _, left, right, first, second
  | .decimal _, left, right, first, second | .fraction _ _, left, right, first, second
  | .text _, left, right, first, second | .kind _, left, right, first, second
  | .bytes _ _, left, right, first, second | .range _ _ _, left, right, first, second
  | .date _, left, right, first, second => by
      cases left <;> simp only [sameForm, Bool.false_eq_true] at first
      cases right <;> simp only [sameForm, Bool.false_eq_true] at second ⊢
      all_goals grind

theorem sameForms_of_common : ∀ {items left right : List Value}, sameForms items left = true →
    sameForms items right = true → sameForms left right = true
  | [], [], [], _, _ => rfl
  | item :: rest, _ :: _, _ :: _, first, second => by
      simp only [sameForms, Bool.and_eq_true] at first second ⊢
      exact ⟨sameForm_of_common first.1 second.1, sameForms_of_common first.2 second.2⟩

theorem sameEntries_of_common : ∀ {entries left right : List (Value × Value)},
    sameEntries entries left = true → sameEntries entries right = true →
      sameEntries left right = true
  | [], [], [], _, _ => rfl
  | (_, _) :: _, (_, _) :: _, (_, _) :: _, first, second => by
      simp only [sameEntries, Bool.and_eq_true] at first second ⊢
      exact ⟨⟨sameForm_of_common first.1.1 second.1.1, sameForm_of_common first.1.2 second.1.2⟩,
        sameEntries_of_common first.2 second.2⟩

end

/-- To count as the same key is an equivalence. -/
instance : EquivBEq Value where
  rfl := sameForm_self _
  symm first := sameForm_of_common first (sameForm_self _)
  trans first second := sameForm_of_common (sameForm_of_common first (sameForm_self _)) second

end Value

end QueryOptions
