import QueryOptions.Proofs.BindingNames

namespace QueryOptions

/-! The forms that names are to have, as whole names. What is taken for upper camel case or for snake
case has the form, or has it before a line feed at its end. The binding name of a name in upper camel
case is in snake case. -/

namespace Naming

/-- A character of one class, followed by characters of another. -/
def Begins (first later : CodePoint → Bool) : Text → Prop
  | [] => False
  | point :: rest => first point = true ∧ ∀ other ∈ rest, later other = true

/-- A capital followed by letters and digits of ASCII. -/
abbrev IsPascal : Text → Prop := Begins CodePoint.isAsciiUpper CodePoint.isAsciiAlphanumeric

/-- A lower-case letter followed by lower-case letters, digits and underscores of ASCII. -/
abbrev IsSnake : Text → Prop :=
  Begins CodePoint.isAsciiLower fun point =>
    point.isAsciiLower || point.isAsciiDigit || point = '_'.toNat

/-- The name has the form, or has it before a line feed at its end. -/
def OnLine (form : Text → Prop) (name : Text) : Prop :=
  form name ∨ ∃ front, form front ∧ name = front ++ ['\n'.toNat]

section Begins

variable {first later : CodePoint → Bool} {name : Text}

instance : Decidable (Begins first later name) :=
  match name with
  | [] => inferInstanceAs (Decidable False)
  | point :: rest =>
      inferInstanceAs (Decidable (first point = true ∧ ∀ other ∈ rest, later other = true))

theorem Begins.of_mem (begins : Begins first later name) {point : CodePoint}
    (inside : point ∈ name) : first point = true ∨ later point = true := by
  cases name with
  | nil => contradiction
  | cons head rest =>
      rcases List.mem_cons.mp inside with rfl | inRest
      · exact .inl begins.1
      · exact .inr (begins.2 point inRest)

theorem withoutFinalLineFeed_concat (front : Text) :
    withoutFinalLineFeed (front ++ ['\n'.toNat]) = front := by
  simp [withoutFinalLineFeed]

/-- A form that is looked for up to the end of the last line. -/
theorem begins_withoutFinalLineFeed_iff (noFirst : first '\n' = false) (noLater : later '\n' = false) :
    Begins first later (withoutFinalLineFeed name) ↔ OnLine (Begins first later) name := by
  by_cases ended : ∃ front, name = front ++ ['\n'.toNat]
  · obtain ⟨front, rfl⟩ := ended
    rw [withoutFinalLineFeed_concat]
    constructor
    · exact fun begins => .inr ⟨front, begins, rfl⟩
    · rintro (begins | ⟨also, begins, same⟩)
      · have feed := begins.of_mem (List.mem_append_right front (List.mem_singleton_self _))
        simp only [noFirst, noLater, Bool.false_eq_true, or_self] at feed
      · exact List.append_cancel_right same ▸ begins
  · have whole : withoutFinalLineFeed name = name := by
      rw [withoutFinalLineFeed, if_neg]
      exact fun last => ended (List.getLast?_eq_some_iff.mp last)
    rw [whole, OnLine, iff_self_or]
    exact fun ⟨front, _, same⟩ => absurd ⟨front, same⟩ ended

end Begins

variable {name wire : Text} {point : CodePoint}

theorem isPascalCase_iff : isPascalCase name = true ↔ OnLine IsPascal name := by
  rw [← begins_withoutFinalLineFeed_iff (by decide) (by decide), isPascalCase]
  cases withoutFinalLineFeed name <;> simp [Begins]

theorem isSnakeCase_iff : isSnakeCase name = true ↔ OnLine IsSnake name := by
  rw [← begins_withoutFinalLineFeed_iff (by decide) (by decide), isSnakeCase]
  cases withoutFinalLineFeed name <;> simp [Begins]

instance : Decidable (OnLine IsPascal name) := decidable_of_iff _ isPascalCase_iff

/-! Binding names. -/

theorem lineFeed_notMem_bindingName (wire : Text) : '\n'.toNat ∉ bindingName wire := by
  obtain ⟨words, joined, lower, -⟩ := exists_words wire
  intro inside
  exact absurd (isLowerPart_of_mem_join lower (joined ▸ inside)) (by decide)

/-- No binding name has a line feed, and so snake case is the form of the whole name. -/
theorem isSnakeCase_bindingName_iff :
    isSnakeCase (bindingName wire) = true ↔ IsSnake (bindingName wire) := by
  rw [isSnakeCase_iff, OnLine, or_iff_left]
  rintro ⟨front, -, ended⟩
  refine lineFeed_notMem_bindingName wire (ended ▸ List.mem_append_right _ ?_)
  exact List.mem_singleton_self _

theorem isAsciiAlphanumeric_of_mem (pascal : IsPascal name) (inside : point ∈ name) :
    point.isAsciiAlphanumeric = true := by
  rcases pascal.of_mem inside with upper | other
  · simp [CodePoint.isAsciiAlphanumeric, CodePoint.isAsciiLetter, upper]
  · exact other

theorem isAsciiAlphanumeric_of_isPascalCase (pascal : isPascalCase name = true)
    (inside : point ∈ name) : point.isAsciiAlphanumeric = true ∨ point = '\n'.toNat := by
  rcases isPascalCase_iff.mp pascal with whole | ⟨front, whole, rfl⟩
  · exact .inl (isAsciiAlphanumeric_of_mem whole inside)
  · rcases List.mem_append.mp inside with inFront | feed
    · exact .inl (isAsciiAlphanumeric_of_mem whole inFront)
    · exact .inr (List.mem_singleton.mp feed)

theorem filter_of_isPascal (pascal : IsPascal name) : name.filter CodePoint.isWordPart = name := by
  refine List.filter_eq_self.mpr fun point inside => ?_
  have alphanumeric := isAsciiAlphanumeric_of_mem pascal inside
  rw [CodePoint.isAsciiAlphanumeric, Bool.or_eq_true] at alphanumeric
  rw [CodePoint.isWordPart, Bool.or_eq_true]
  exact alphanumeric.imp_right CodePoint.isDigit_of_isAsciiDigit

/-- Upper camel case has no namespace, and nothing to separate words. -/
theorem lowerParts_of_isPascalCase (pascal : isPascalCase wire = true) : ∃ name, IsPascal name ∧
    lowerParts (withoutNamespace wire) = Text.asciiLower name := by
  have noColon : ':'.toNat ∉ wire :=
    fun inside => absurd (isAsciiAlphanumeric_of_isPascalCase pascal inside) (by decide)
  have whole : wire = withoutNamespace wire :=
    (OwnPart.whole fun inside => noColon ((List.takeWhile_sublist _).subset inside)).eq
  rw [← whole, lowerParts]
  rcases isPascalCase_iff.mp pascal with form | ⟨front, form, rfl⟩
  · exact ⟨wire, form, by rw [filter_of_isPascal form]⟩
  · have feed : ['\n'.toNat].filter CodePoint.isWordPart = [] := by decide
    exact ⟨front, form, by rw [List.filter_append, filter_of_isPascal form, feed, List.append_nil]⟩

theorem isAsciiLower_asciiLower (upper : point.isAsciiUpper = true) :
    point.asciiLower.isAsciiLower = true := by
  have ascii : ∀ point < 128, CodePoint.isAsciiUpper point = true →
      (CodePoint.asciiLower point).isAsciiLower = true := by decide
  have last : 'Z'.toNat < 128 := by decide
  exact ascii point ((of_decide_eq_true (Bool.and_eq_true_iff.mp upper).2).trans_lt last) upper

/-- What the letters and digits of ASCII become in lower case. -/
theorem asciiLower_of_isAsciiAlphanumeric (alphanumeric : point.isAsciiAlphanumeric = true) :
    point.asciiLower.isAsciiLower = true ∨ point.asciiLower.isAsciiDigit = true := by
  by_cases upper : point.isAsciiUpper = true
  · exact .inl (isAsciiLower_asciiLower upper)
  · rw [CodePoint.asciiLower, if_neg upper]
    simpa [CodePoint.isAsciiAlphanumeric, CodePoint.isAsciiLetter, upper] using alphanumeric

/-- The binding name of a name in upper camel case is in snake case. -/
theorem isSnakeCase_of_isPascalCase (pascal : isPascalCase wire = true) :
    isSnakeCase (bindingName wire) = true := by
  obtain ⟨words, joined, lower, spread⟩ := exists_words wire
  obtain ⟨name, whole, parts⟩ := lowerParts_of_isPascalCase pascal
  rw [isSnakeCase_bindingName_iff, joined]
  rw [parts] at spread
  have later : ∀ point ∈ Text.join ['_'.toNat] words,
      (point.isAsciiLower || point.isAsciiDigit || decide (point = '_'.toNat)) = true := by
    intro point inside
    rcases Text.mem_flatten_of_mem_join (fun word given => (lower word given).underscore_notMem)
      inside with member | rfl
    · obtain ⟨capital, found, rfl⟩ := List.mem_map.mp (spread ▸ member)
      have form := asciiLower_of_isAsciiAlphanumeric (isAsciiAlphanumeric_of_mem whole found)
      rw [Bool.or_eq_true, Bool.or_eq_true]
      exact .inl form
    · decide
  -- the first character is the first letter of the name, since no word is empty
  obtain _ | ⟨capital, rest⟩ := name
  · exact whole.elim
  obtain _ | ⟨word, words⟩ := words
  · cases spread
  obtain _ | ⟨point, word⟩ := word
  · exact absurd rfl (lower [] List.mem_cons_self).nonempty
  have same : point = CodePoint.asciiLower capital := (List.cons.inj spread).1
  rw [Text.join_cons_point] at later ⊢
  exact ⟨same ▸ isAsciiLower_asciiLower whole.1, (List.forall_mem_cons.mp later).2⟩

end Naming

end QueryOptions
