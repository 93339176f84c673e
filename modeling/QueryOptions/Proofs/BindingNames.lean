import Mathlib.Data.List.Chain
import QueryOptions.Node.Extend
import QueryOptions.Proofs.Words

namespace QueryOptions

/-! Binding names that are given as wire names or as new names. In capitals a digit belongs to the
word around it, in lower case it does not; hence a binding name is taken apart once more where a
letter and a digit meet, and only there. -/

namespace CodePoint

variable {point next : CodePoint}

/-- A letter in lower case and a digit, in either order. -/
def meetsDigit (point next : CodePoint) : Bool :=
  (point.isAsciiLower && next.isDigit) || (point.isDigit && next.isAsciiLower)

theorem lt_of_isAsciiLower (lower : point.isAsciiLower = true) : point < 128 := by
  have last : 'z'.toNat < 128 := by decide
  exact (of_decide_eq_true (Bool.and_eq_true_iff.mp lower).2).trans_lt last

theorem not_isDigit_of_isAsciiLower (lower : point.isAsciiLower = true) :
    point.isDigit = false := by
  have ascii : ∀ point < 128, isAsciiLower point = true → isDigit point = false := by decide
  exact ascii point (lt_of_isAsciiLower lower) lower

theorem not_isAsciiUpper_of_isLowerPart (part : point.isLowerPart = true) :
    point.isAsciiUpper = false := by
  have ascii : ∀ point < 128, isLowerPart point = true → isAsciiUpper point = false := by decide
  have last : 'Z'.toNat < 128 := by decide
  by_contra upper
  have small := (of_decide_eq_true (Bool.and_eq_true_iff.mp (eq_true_of_ne_false upper)).2).trans_lt last
  exact upper (ascii point small part)

end CodePoint

namespace Naming

/-- An underscore is put wherever a letter and a digit stand side by side. -/
def separateDigits : Text → Text
  | [] => []
  | point :: rest =>
      if rest.head?.any point.meetsDigit then point :: '_' :: separateDigits rest
      else point :: separateDigits rest

/-- No letter and digit stand side by side. -/
def Unmixed (text : Text) : Prop := text.IsChain fun point next => point.meetsDigit next = false

instance (text : Text) : Decidable (Unmixed text) :=
  inferInstanceAs (Decidable (text.IsChain fun point next => point.meetsDigit next = false))

variable {point next separator : CodePoint} {rest text : Text} {pieces : List Text}

/-! To separate digits once is enough. -/

theorem separateDigits_cons_cons : separateDigits (point :: next :: rest) =
    if point.meetsDigit next then point :: '_' :: separateDigits (next :: rest)
    else point :: separateDigits (next :: rest) := rfl

theorem exists_separateDigits_cons (point : CodePoint) (rest : Text) :
    ∃ after, separateDigits (point :: rest) = point :: after := by
  rw [separateDigits]
  split <;> exact ⟨_, rfl⟩

theorem underscore_apart (point : CodePoint) :
    point.meetsDigit '_' = false ∧ CodePoint.meetsDigit '_' point = false := by
  have letter : CodePoint.isAsciiLower '_' = false := by decide
  have digit : CodePoint.isDigit '_' = false := by decide
  simp only [CodePoint.meetsDigit, letter, digit, Bool.and_false, Bool.false_and, Bool.or_self,
    and_self]

theorem unmixed_separateDigits (text : Text) : Unmixed (separateDigits text) := by
  induction text with
  | nil => exact .nil
  | cons point rest ih =>
      cases rest with
      | nil => exact .singleton point
      | cons next rest =>
          obtain ⟨after, shape⟩ := exists_separateDigits_cons next rest
          rw [separateDigits_cons_cons, shape]
          rw [shape] at ih
          split
          · exact .cons_cons (underscore_apart point).1 (.cons_cons (underscore_apart next).2 ih)
          · rename_i apart
            exact .cons_cons (eq_false_of_ne_true apart) ih

theorem separateDigits_eq_self_iff : separateDigits text = text ↔ Unmixed text := by
  constructor
  · exact fun same => same ▸ unmixed_separateDigits text
  · intro unmixed
    induction unmixed with
    | nil => rfl
    | singleton point => rfl
    | cons_cons apart _ ih => rw [separateDigits_cons_cons, if_neg (by simp [apart]), ih]

/-! Reading the words of a text in lower case. -/

theorem advance?_start (part : point.isLowerPart = true) (also : next.isLowerPart = true) :
    (Stretch.start point).advance? next =
      if point.meetsDigit next then none else some (.start next) := by
  have digit {other : CodePoint} (part : other.isLowerPart = true)
      (unlike : ¬ other.isAsciiLower = true) : other.isDigit = true := by
    simpa [CodePoint.isLowerPart, unlike] using part
  unfold Stretch.start CodePoint.meetsDigit
  by_cases lower : point.isAsciiLower = true <;> by_cases same : next.isAsciiLower = true
  · simp [Stretch.advance?, lower, same, CodePoint.not_isDigit_of_isAsciiLower]
  · simp [Stretch.advance?, lower, same, digit also same]
  · simp [Stretch.advance?, lower, same, digit part lower, CodePoint.not_isDigit_of_isAsciiLower same]
  · simp [Stretch.advance?, lower, same, digit part lower, digit also same]

theorem isWordPart_of_isLowerPart (part : point.isLowerPart = true) : point.isWordPart = true := by
  rw [CodePoint.isWordPart, CodePoint.isAsciiLetter]
  rcases (Bool.or_eq_true _ _).mp part with lower | digit
  · simp [lower]
  · simp [digit]

theorem join_wordsFrom_start (lower : ∀ other ∈ point :: rest, other.isLowerPart = true) :
    Text.join ['_'.toNat] ((point :: (wordsFrom (.start point) rest).1) ::
      (wordsFrom (.start point) rest).2) = separateDigits (point :: rest) := by
  -- in lower case the stretch that is being read is the one that its last character begins
  induction rest generalizing point with
  | nil => rfl
  | cons next rest ih =>
      obtain ⟨part, others⟩ := List.forall_mem_cons.mp lower
      have nextPart := others next List.mem_cons_self
      have step := advance?_start part nextPart
      rw [separateDigits_cons_cons, ← ih others]
      split at step
      · rename_i meets
        rw [wordsFrom_begin step (isWordPart_of_isLowerPart nextPart), if_pos meets,
          Text.join_cons_cons]
        rfl
      · rename_i apart
        rw [wordsFrom_advance step, if_neg apart, Text.join_cons_point]

theorem join_words (lower : ∀ point ∈ text, point.isLowerPart = true) :
    Text.join ['_'.toNat] (words text) = separateDigits text := by
  cases text with
  | nil => rfl
  | cons point rest =>
      have part := isWordPart_of_isLowerPart (lower point List.mem_cons_self)
      rw [words, wordsFrom_begin rfl part]
      exact join_wordsFrom_start lower

theorem wordsFrom_append_separator (between : separator.isWordPart = false) (stretch : Stretch)
    (front rest : Text) : wordsFrom stretch (front ++ separator :: rest) =
      ((wordsFrom stretch front).1, (wordsFrom stretch front).2 ++ words rest) := by
  induction front generalizing stretch with
  | nil => exact wordsFrom_separator between
  | cons point front ih =>
      rw [List.cons_append]
      cases advanced : stretch.advance? point with
      | some next => rw [wordsFrom_advance advanced, wordsFrom_advance advanced, ih]
      | none =>
          by_cases part : point.isWordPart = true
          · rw [wordsFrom_begin advanced part, wordsFrom_begin advanced part, ih, List.cons_append]
          · have also := eq_false_of_ne_true part
            have later := ih .outside
            rw [wordsFrom_outside, wordsFrom_outside] at later
            rw [wordsFrom_separator also, wordsFrom_separator also, later]

theorem words_append_separator (between : separator.isWordPart = false) (front rest : Text) :
    words (front ++ separator :: rest) = words front ++ words rest := by
  exact congrArg Prod.snd (wordsFrom_append_separator between .outside front rest)

theorem separateDigits_append_underscore (front rest : Text) :
    separateDigits (front ++ '_'.toNat :: rest) =
      separateDigits front ++ '_'.toNat :: separateDigits rest := by
  induction front with
  | nil =>
      cases rest with
      | nil => rfl
      | cons point rest =>
          rw [List.nil_append, separateDigits_cons_cons, (underscore_apart point).2]
          rfl
  | cons point front ih =>
      cases front with
      | nil =>
          rw [List.nil_append] at ih
          rw [List.cons_append, List.nil_append, separateDigits_cons_cons, (underscore_apart point).1,
            ih]
          rfl
      | cons next front =>
          rw [List.cons_append, List.cons_append, separateDigits_cons_cons, ← List.cons_append, ih,
            separateDigits_cons_cons]
          split <;> rfl

theorem words_ne_nil {word : Text} (lower : LowerWord word) : words word ≠ [] := by
  intro none
  have kept := flatten_words word
  have whole : word.filter CodePoint.isWordPart = word := List.filter_eq_self.mpr
    fun point inside => isWordPart_of_isLowerPart (lower.lower point inside)
  rw [none, whole] at kept
  exact lower.nonempty kept.symm

theorem words_join (lower : ∀ word ∈ pieces, LowerWord word) :
    words (Text.join ['_'.toNat] pieces) = pieces.flatMap words := by
  have between : CodePoint.isWordPart '_' = false := by decide
  induction pieces with
  | nil => rfl
  | cons word rest ih =>
      cases rest with
      | nil => simp [Text.join]
      | cons next rest =>
          rw [Text.join_cons_cons, words_append_separator between,
            ih (List.forall_mem_cons.mp lower).2, List.flatMap_cons (x := word)]

theorem separateDigits_join (pieces : List Text) :
    separateDigits (Text.join ['_'.toNat] pieces) =
      Text.join ['_'.toNat] (pieces.map separateDigits) := by
  induction pieces with
  | nil => rfl
  | cons word rest ih =>
      cases rest with
      | nil => simp [Text.join]
      | cons next rest =>
          rw [Text.join_cons_cons, separateDigits_append_underscore, ih]
          exact (Text.join_cons_cons _).symm

/-- Binding names are read word by word, and every word is taken apart where letters and digits
meet. -/
theorem join_words_join (lower : ∀ word ∈ pieces, LowerWord word) :
    Text.join ['_'.toNat] (words (Text.join ['_'.toNat] pieces)) =
      separateDigits (Text.join ['_'.toNat] pieces) := by
  rw [words_join lower, Text.join_flatMap fun word inside => words_ne_nil (lower word inside),
    separateDigits_join]
  exact congrArg _ (List.map_congr_left fun word inside => join_words (lower word inside).lower)

/-! What the rule for binding names leaves alone in a text that is in lower case. -/

theorem isLowerPart_of_mem_join (lower : ∀ word ∈ pieces, LowerWord word)
    (inside : point ∈ Text.join ['_'.toNat] pieces) :
    point.isLowerPart = true ∨ point = '_'.toNat := by
  refine (Text.mem_flatten_of_mem_join (fun word given => (lower word given).underscore_notMem)
    inside).imp_left fun spread => ?_
  obtain ⟨word, given, member⟩ := List.mem_flatten.mp spread
  exact (lower word given).lower point member

theorem mem_separateDigits (inside : point ∈ separateDigits text) :
    point ∈ text ∨ point = '_'.toNat := by
  induction text with
  | nil => contradiction
  | cons first rest ih =>
      rw [separateDigits] at inside
      split at inside <;> grind

theorem separateAcronyms_of_lower (lower : ∀ point ∈ text, point.isAsciiUpper = false)
    (afterAcronymPart : Bool) : separateAcronyms afterAcronymPart text = text := by
  induction text generalizing afterAcronymPart with
  | nil => rfl
  | cons point rest ih =>
      obtain ⟨here, later⟩ := List.forall_mem_cons.mp lower
      rw [separateAcronyms_cons, here, ih later, Bool.and_false, Bool.false_and]
      rfl

theorem asciiLower_of_lower (lower : ∀ point ∈ text, point.isAsciiUpper = false) :
    Text.asciiLower text = text :=
  (List.map_congr_left fun point inside => by
    rw [CodePoint.asciiLower, lower point inside, if_neg Bool.false_ne_true, id]).trans (List.map_id text)

theorem established_in_capitals : ∀ pair ∈ establishedNames,
    ∃ point ∈ pair.1, ¬ (point.isLowerPart = true ∨ point = '_'.toNat) := by
  decide

/-- What becomes of a text in the form of binding names. -/
theorem bindingName_join (lower : ∀ word ∈ pieces, LowerWord word) :
    bindingName (Text.join ['_'.toNat] pieces) = separateDigits (Text.join ['_'.toNat] pieces) := by
  have inForm : ∀ point ∈ Text.join ['_'.toNat] pieces,
      point.isLowerPart = true ∨ point = '_'.toNat :=
    fun point inside => isLowerPart_of_mem_join lower inside
  have noCapital : ∀ point : CodePoint, point.isLowerPart = true ∨ point = '_'.toNat →
      point.isAsciiUpper = false := by
    rintro point (part | rfl)
    · exact CodePoint.not_isAsciiUpper_of_isLowerPart part
    · decide
  -- no exception applies, since each of them is for a name with a capital
  have unlisted : establishedNames.lookup (Text.join ['_'.toNat] pieces) = none := by
    refine List.lookup_eq_none_iff.mpr fun pair listed => bne_iff_ne.mpr fun same => ?_
    obtain ⟨point, inside, other⟩ := established_in_capitals pair listed
    exact other (inForm point (same ▸ inside))
  have noColon : ':'.toNat ∉ (Text.join ['_'.toNat] pieces).takeWhile (· ≠ '\n'.toNat) :=
    fun inside => absurd (inForm _ ((List.takeWhile_sublist _).subset inside)) (by decide)
  have whole := (OwnPart.whole noColon).eq
  have lowerStays : Text.asciiLower (separateDigits (Text.join ['_'.toNat] pieces)) =
      separateDigits (Text.join ['_'.toNat] pieces) :=
    asciiLower_of_lower fun point inside =>
      noCapital point ((mem_separateDigits inside).elim (inForm point) .inr)
  simp only [bindingName, unlisted]
  rw [← whole, separateAcronyms_of_lower fun point inside => noCapital point (inForm point inside)]
  exact (congrArg Text.asciiLower (join_words_join lower)).trans lowerStays

/-- Given as a wire name or as a new name, a binding name is taken apart where letters and digits
meet. So it stays as it is just if they meet nowhere in it, and after that nothing changes. -/
theorem bindingName_bindingName (wire : Text) :
    bindingName (bindingName wire) = separateDigits (bindingName wire) ∧
    (Node.default (.plain (bindingName wire))).binding = separateDigits (bindingName wire) ∧
    (∀ node : Node, (node.apply (.rename (bindingName wire))).binding =
      separateDigits (bindingName wire)) ∧
    (bindingName (bindingName wire) = bindingName wire ↔ Unmixed (bindingName wire)) ∧
    bindingName (bindingName (bindingName wire)) = bindingName (bindingName wire) := by
  have again (name : Text) :
      bindingName (bindingName name) = separateDigits (bindingName name) := by
    obtain ⟨pieces, joined, lower, -⟩ := exists_words name
    rw [joined, bindingName_join lower]
  refine ⟨again wire, again wire, fun node => ?_, ?_, ?_⟩
  · cases node <;> exact again wire
  · rw [again, separateDigits_eq_self_iff]
  · rw [again (bindingName wire), again wire]
    exact separateDigits_eq_self_iff.mpr (unmixed_separateDigits _)

/-- The digit of an established name is a word of its own once the name is in lower case. -/
theorem ec2KeyName_changes :
    ¬ ∀ wire : Text, bindingName (bindingName wire) = bindingName wire :=
  fun stays => absurd (stays "Ec2KeyName") (by decide)

end Naming

end QueryOptions
