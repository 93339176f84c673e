import Mathlib.Data.List.TakeWhile
import QueryOptions.Naming

namespace QueryOptions

/-! The words of a name. Letters of ASCII and digits of every script make up words, and all else
separates them. Words are read so that each letter and each digit is in one word, in its order;
hence a binding name is what stands after the namespace of a wire name, cut into words. -/

namespace CodePoint

/-- What words are made of. -/
def isWordPart (point : CodePoint) : Bool := point.isAsciiLetter || point.isDigit

/-- What words in lower case are made of. -/
def isLowerPart (point : CodePoint) : Bool := point.isAsciiLower || point.isDigit

theorem isLowerPart_asciiLower {point : CodePoint} (part : point.isWordPart = true) :
    point.asciiLower.isLowerPart = true := by
  unfold asciiLower
  split
  · rename_i upper
    simp only [isAsciiUpper, Bool.and_eq_true, decide_eq_true_eq] at upper
    have codes : 'a'.toNat = 'A'.toNat + 32 ∧ 'z'.toNat = 'Z'.toNat + 32 := by decide
    have lower : isAsciiLower (point + 32) = true := by
      simp only [isAsciiLower, Bool.and_eq_true, decide_eq_true_eq, codes, Nat.add_le_add_iff_right]
      exact upper
    rw [isLowerPart, lower, Bool.true_or]
  · rename_i other
    simpa [isWordPart, isLowerPart, isAsciiLetter, other] using part

end CodePoint

namespace Naming

variable {stretch next : Stretch} {point : CodePoint} {rest name : Text}

/-! Reading words: a character belongs to the word that is being read, or begins another, or
separates. -/

theorem start_eq_outside_iff : Stretch.start point = .outside ↔ point.isWordPart = false := by
  unfold Stretch.start CodePoint.isWordPart CodePoint.isAsciiLetter
  cases point.isAsciiLower <;> cases point.isDigit <;> cases point.isAsciiUpper <;> simp

theorem isWordPart_of_advance? (advanced : stretch.advance? point = some next) :
    point.isWordPart = true := by
  rw [CodePoint.isWordPart, CodePoint.isAsciiLetter]
  cases stretch with
  | outside => contradiction
  | capitals =>
      simp only [Stretch.advance?] at advanced
      split at advanced
      · rename_i acronym
        rcases (Bool.or_eq_true _ _).mp acronym with upper | digit
        · simp [upper]
        · simp [CodePoint.isDigit_of_isAsciiDigit digit]
      · simp [(Option.ite_none_right_eq_some.mp advanced).1]
  | _ =>
      simp only [Stretch.advance?, Option.ite_none_right_eq_some] at advanced
      simp [advanced.1]

theorem wordsFrom_advance (advanced : stretch.advance? point = some next) :
    wordsFrom stretch (point :: rest) = (point :: (wordsFrom next rest).1, (wordsFrom next rest).2) := by
  simp only [wordsFrom, advanced]

theorem wordsFrom_outside (text : Text) : wordsFrom .outside text = ([], words text) := by
  cases text <;> rfl

theorem wordsFrom_begin (stops : stretch.advance? point = none) (part : point.isWordPart = true) :
    wordsFrom stretch (point :: rest) =
      ([], (point :: (wordsFrom (.start point) rest).1) :: (wordsFrom (.start point) rest).2) := by
  have inside : Stretch.start point ≠ .outside := by
    rw [Ne, start_eq_outside_iff, part]
    decide
  simp only [wordsFrom, stops, if_neg inside]

theorem wordsFrom_separator (between : point.isWordPart = false) :
    wordsFrom stretch (point :: rest) = ([], words rest) := by
  have stops : stretch.advance? point = none := by
    refine Option.eq_none_iff_forall_ne_some.mpr fun next advanced => ?_
    rw [isWordPart_of_advance? advanced] at between
    contradiction
  simp only [wordsFrom, stops, start_eq_outside_iff.mpr between, wordsFrom_outside, if_true]

/-- Every letter and every digit is in one word. -/
theorem flatten_wordsFrom (stretch : Stretch) (text : Text) :
    (wordsFrom stretch text).1 ++ (wordsFrom stretch text).2.flatten =
      text.filter CodePoint.isWordPart := by
  induction text generalizing stretch with
  | nil => rfl
  | cons point rest ih =>
      cases advanced : stretch.advance? point with
      | some next =>
          rw [wordsFrom_advance advanced,
            List.filter_cons_of_pos (isWordPart_of_advance? advanced), ← ih next, List.cons_append]
      | none =>
          by_cases part : point.isWordPart = true
          · rw [wordsFrom_begin advanced part, List.filter_cons_of_pos part, ← ih, List.nil_append,
              List.flatten_cons, List.cons_append]
          · -- what follows a separator is read as if nothing came before it
            have later := ih .outside
            rw [wordsFrom_outside] at later
            rw [wordsFrom_separator (eq_false_of_ne_true part), List.filter_cons_of_neg part, later]

theorem flatten_words (name : Text) : (words name).flatten = name.filter CodePoint.isWordPart := by
  rw [← flatten_wordsFrom .outside name, wordsFrom_outside, List.nil_append]

theorem ne_nil_of_mem_wordsFrom {word : Text} (inside : word ∈ (wordsFrom stretch name).2) :
    word ≠ [] := by
  induction name generalizing stretch with
  | nil => contradiction
  | cons point rest ih =>
      cases advanced : stretch.advance? point with
      | some next =>
          rw [wordsFrom_advance advanced] at inside
          exact ih inside
      | none =>
          by_cases part : point.isWordPart = true
          · rw [wordsFrom_begin advanced part] at inside
            rcases List.mem_cons.mp inside with rfl | later
            · exact List.cons_ne_nil _ _
            · exact ih later
          · rw [wordsFrom_separator (eq_false_of_ne_true part)] at inside
            exact ih inside

/-- To set acronyms apart adds separators only. -/
theorem filter_separateAcronyms (afterAcronymPart : Bool) (name : Text) :
    (separateAcronyms afterAcronymPart name).filter CodePoint.isWordPart =
      name.filter CodePoint.isWordPart := by
  induction name generalizing afterAcronymPart with
  | nil => rfl
  | cons point rest ih =>
      have separates : ['_'.toNat].filter CodePoint.isWordPart = [] := by decide
      rw [separateAcronyms_cons, List.filter_append, List.filter_cons, List.filter_cons, ih,
        apply_ite (List.filter CodePoint.isWordPart), separates, List.filter_nil, ite_self,
        List.nil_append]

/-! The namespace of a wire name ends with the last colon of its first line. -/

/-- What of a wire name goes into its binding name: what follows the last colon before the first
line feed, or all of it. -/
inductive OwnPart : Text → Text → Prop
  | whole {name : Text} (none : ':'.toNat ∉ name.takeWhile (· ≠ '\n'.toNat)) : OwnPart name name
  | afterColon {front own : Text} (oneLine : '\n'.toNat ∉ front)
      (last : ':'.toNat ∉ own.takeWhile (· ≠ '\n'.toNat)) :
      OwnPart (front ++ ':'.toNat :: own) own

theorem takeWhile_firstLine {front : Text} (oneLine : '\n'.toNat ∉ front) (own : Text) :
    (front ++ ':'.toNat :: own).takeWhile (· ≠ '\n'.toNat) =
      front ++ ':'.toNat :: own.takeWhile (· ≠ '\n'.toNat) := by
  have inLine : ∀ point ∈ front, decide (point ≠ '\n'.toNat) = true :=
    fun point inside => decide_eq_true fun same => oneLine (same ▸ inside)
  rw [List.takeWhile_append_of_pos inLine, List.takeWhile_cons_of_pos (by decide)]

theorem OwnPart.eq {own : Text} (part : OwnPart name own) : own = withoutNamespace name := by
  cases part with
  | whole none => simp only [withoutNamespace, Text.splitLast?_eq_none none]
  | @afterColon front own oneLine last =>
      have parts : front ++ ':'.toNat :: own = (front ++ ':'.toNat ::
          own.takeWhile (· ≠ '\n'.toNat)) ++ own.dropWhile (· ≠ '\n'.toNat) := by
        rw [List.append_assoc, List.cons_append, List.takeWhile_append_dropWhile]
      simp only [withoutNamespace, takeWhile_firstLine oneLine, Text.splitLast?_append last]
      rw [parts, List.drop_left, List.takeWhile_append_dropWhile]

theorem ownPart_withoutNamespace (name : Text) : OwnPart name (withoutNamespace name) := by
  suffices exists_part : ∃ own, OwnPart name own by
    obtain ⟨own, part⟩ := exists_part
    exact part.eq ▸ part
  by_cases occurs : ':'.toNat ∈ name.takeWhile (· ≠ '\n'.toNat)
  · obtain ⟨front, line, first, last⟩ := Text.exists_last occurs
    have parts := List.takeWhile_append_dropWhile (p := (· ≠ '\n'.toNat)) (l := name)
    rw [first, List.append_assoc, List.cons_append] at parts
    have oneLine : '\n'.toNat ∉ front := by
      intro inside
      have kept : '\n'.toNat ∈ name.takeWhile (· ≠ '\n'.toNat) :=
        first ▸ List.mem_append_left _ inside
      simpa using List.mem_takeWhile_imp kept
    have rest := takeWhile_firstLine oneLine (line ++ name.dropWhile (· ≠ '\n'.toNat))
    rw [parts, first] at rest
    have same := (List.cons.inj (List.append_cancel_left rest)).2
    rw [← parts]
    exact ⟨_, .afterColon oneLine (same ▸ last)⟩
  · exact ⟨name, .whole occurs⟩

/-! Binding names. -/

/-- The letters and digits of a text, in lower case. -/
def lowerParts (text : Text) : Text := Text.asciiLower (text.filter CodePoint.isWordPart)

/-- A word as binding names have it. -/
structure LowerWord (word : Text) : Prop where
  nonempty : word ≠ []
  lower : ∀ point ∈ word, point.isLowerPart = true

theorem LowerWord.underscore_notMem {word : Text} (lower : LowerWord word) : '_'.toNat ∉ word :=
  fun inside => absurd (lower.lower _ inside) (by decide)

theorem lowerWord_of_flatten {words : List Text} {text : Text}
    (nonempty : ∀ word ∈ words, word ≠ []) (spread : words.flatten = lowerParts text) :
    ∀ word ∈ words, LowerWord word := by
  refine fun word inside => ⟨nonempty word inside, fun point member => ?_⟩
  have found : point ∈ lowerParts text := spread ▸ List.mem_flatten.mpr ⟨word, inside, member⟩
  obtain ⟨upper, kept, rfl⟩ := List.mem_map.mp found
  exact CodePoint.isLowerPart_asciiLower (List.mem_filter.mp kept).2

theorem establishedNames_words : ∀ pair ∈ establishedNames,
    pair.2 = Text.join ['_'.toNat] (Text.split '_' pair.2) ∧
    (∀ word ∈ Text.split '_' pair.2, word ≠ []) ∧
    (Text.split '_' pair.2).flatten = lowerParts (withoutNamespace pair.1) := by
  decide

/-- The letters and digits that follow the namespace make up the binding name, cut into words. -/
theorem exists_words (wire : Text) : ∃ words, bindingName wire = Text.join ['_'.toNat] words ∧
    (∀ word ∈ words, LowerWord word) ∧ words.flatten = lowerParts (withoutNamespace wire) := by
  unfold bindingName
  split
  · rename_i name established
    obtain ⟨before, after, table, -⟩ := List.lookup_eq_some_iff.mp established
    have inside : (wire, name) ∈ establishedNames := table ▸ List.mem_append_right _ List.mem_cons_self
    obtain ⟨joined, nonempty, spread⟩ := establishedNames_words _ inside
    exact ⟨_, joined, lowerWord_of_flatten nonempty spread, spread⟩
  · have spread : ((words (separateAcronyms false (withoutNamespace wire))).map
        Text.asciiLower).flatten = lowerParts (withoutNamespace wire) := by
      rw [lowerParts, ← filter_separateAcronyms false, ← flatten_words, Text.asciiLower,
        List.map_flatten]
      rfl
    refine ⟨_, Text.asciiLower_join (by decide), lowerWord_of_flatten ?_ spread, spread⟩
    intro word inside
    obtain ⟨read, found, rfl⟩ := List.mem_map.mp inside
    exact mt List.map_eq_nil_iff.mp (ne_nil_of_mem_wordsFrom found)

/-- A binding name has the letters and digits that follow the namespace of the wire name, each once,
in their order and in lower case, and nothing else but single underscores between words. -/
theorem bindingName_spells (wire : Text) :
    (∃ words, bindingName wire = Text.join "_" words ∧
      ∀ word ∈ words, word ≠ [] ∧ '_'.toNat ∉ word) ∧
    ∃ own, (∀ other, OwnPart wire other ↔ other = own) ∧
      (bindingName wire).filter (· ≠ '_'.toNat) = lowerParts own := by
  obtain ⟨words, joined, lower, spread⟩ := exists_words wire
  refine ⟨⟨words, joined, fun word inside =>
    ⟨(lower word inside).nonempty, (lower word inside).underscore_notMem⟩⟩, withoutNamespace wire,
    ?_, ?_⟩
  · exact fun other => ⟨OwnPart.eq, fun same => same ▸ ownPart_withoutNamespace wire⟩
  · rw [joined, Text.filter_join fun word inside => (lower word inside).underscore_notMem, spread]

end Naming

end QueryOptions
