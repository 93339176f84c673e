import Mathlib.Data.List.Forall2
import Mathlib.Data.List.TakeWhile
import Mathlib.Data.Nat.Digits.Defs
import QueryOptions.Catalog.Version
import QueryOptions.Proofs.Loops

namespace QueryOptions

/-! The texts that are read as format versions: three decimal numbers with dots between them, in
digits of any script, perhaps after a `v` and between blanks. Every other value is refused, and the
text of a version is read as that version. -/

theorem CodePoint.not_isDigit_of_isBlank {point : CodePoint} (blank : point.isBlank = true) :
    point.isDigit = false := by
  have ascii : ∀ other < 33, isDigit other = false := by decide
  have spread : ∀ offset : Nat, offset < 11 → isDigit (0x2000 + offset) = false := by decide
  have scattered : ∀ other ∈ [0x85, 0xA0, 0x1680, 0x2028, 0x2029, 0x202F, 0x205F, 0x3000],
      isDigit other = false := by decide
  have place : point < 33 ∨ 0x2000 ≤ point ∧ point ≤ 0x200A ∨
      point ∈ [0x85, 0xA0, 0x1680, 0x2028, 0x2029, 0x202F, 0x205F, 0x3000] := by
    simp only [isBlank, Bool.or_eq_true, Bool.and_eq_true, decide_eq_true_eq, beq_iff_eq] at blank
    grind
  rcases place with low | ⟨above, below⟩ | listed
  · exact ascii point low
  · obtain ⟨offset, rfl⟩ := Nat.exists_eq_add_of_le above
    have near : (0x2000 + offset : Nat) ≤ 0x200A := below
    exact spread offset (by omega)
  · exact scattered point listed

namespace Text

variable {inClass : CodePoint → Bool} {text core before after : Text}

/-! What trimming leaves. -/

theorem exists_trimmed (inClass : CodePoint → Bool) (text : Text) :
    ∃ before after, (∀ point ∈ before, inClass point = true) ∧
      (∀ point ∈ after, inClass point = true) ∧ text = before ++ text.trim inClass ++ after := by
  refine ⟨text.takeWhile inClass,
    ((text.dropWhile inClass).reverse.takeWhile inClass).reverse, ?_, ?_, ?_⟩
  · exact fun point inside => List.mem_takeWhile_imp inside
  · exact fun point inside => List.mem_takeWhile_imp (List.mem_reverse.mp inside)
  · rw [trim, List.append_assoc, ← List.reverse_append, List.takeWhile_append_dropWhile,
      List.reverse_reverse, List.takeWhile_append_dropWhile]

theorem dropWhile_append (blank : ∀ point ∈ before, inClass point = true)
    (first : ∀ point ∈ core.head?, inClass point = false) :
    (before ++ core).dropWhile inClass = core := by
  rw [List.dropWhile_append_of_pos blank]
  cases core with
  | nil => rfl
  | cons point rest => rw [List.dropWhile_cons_of_neg]; simp [first point rfl]

theorem trim_between (blankBefore : ∀ point ∈ before, inClass point = true)
    (blankAfter : ∀ point ∈ after, inClass point = true)
    (first : ∀ point ∈ core.head?, inClass point = false)
    (last : ∀ point ∈ core.getLast?, inClass point = false) (filled : core ≠ []) :
    trim inClass (before ++ core ++ after) = core := by
  have begins : ∀ point ∈ (core ++ after).head?, inClass point = false := by
    rwa [List.head?_append_of_ne_nil _ filled]
  have ends : ∀ point ∈ core.reverse.head?, inClass point = false := by
    rwa [List.head?_reverse]
  have behind : ∀ point ∈ after.reverse, inClass point = true :=
    fun point inside => blankAfter point (List.mem_reverse.mp inside)
  rw [trim, List.append_assoc, dropWhile_append blankBefore begins, List.reverse_append,
    dropWhile_append behind ends, List.reverse_reverse]

/-! Decimal numbers. -/

/-- A run of digits with the number that they are, the last of them being the units. -/
def IsDecimal (run : Text) (number : Nat) : Prop :=
  run ≠ [] ∧ ∃ values,
    List.Forall₂ (fun point value => CodePoint.digitValue? point = some value) run values ∧
    number = Nat.ofDigits 10 values.reverse

theorem numeral_eq_ofDigits (base : Nat) (values : List Nat) :
    numeral base values = Nat.ofDigits base values.reverse := by
  rw [numeral, Nat.ofDigits_eq_foldr, List.foldr_reverse]
  simp only [Nat.add_comm, Nat.mul_comm, Nat.cast_id]

theorem forall₂_digitValue? {run : Text} (digits : run.all CodePoint.isDigit = true) :
    List.Forall₂ (fun point value => CodePoint.digitValue? point = some value) run
      (run.filterMap CodePoint.digitValue?) := by
  induction run with
  | nil => exact .nil
  | cons point rest ih =>
      simp only [List.all_cons, Bool.and_eq_true] at digits
      obtain ⟨value, found⟩ := Option.isSome_iff_exists.mp digits.1
      rw [List.filterMap_cons_some found]
      exact .cons found (ih digits.2)

theorem filterMap_of_forall₂ {run : Text} {values : List Nat} (digits :
    List.Forall₂ (fun point value => CodePoint.digitValue? point = some value) run values) :
    run.filterMap CodePoint.digitValue? = values := by
  induction digits with
  | nil => rfl
  | cons found _ ih => rw [List.filterMap_cons_some found, ih]

theorem IsDecimal.isDigit {run : Text} {number : Nat} (decimal : IsDecimal run number)
    {point : CodePoint} (inside : point ∈ run) : point.isDigit = true := by
  obtain ⟨-, values, digits, -⟩ := decimal
  obtain ⟨value, -, found⟩ := exists_of_forall₂ digits inside
  exact Option.isSome_iff_exists.mpr ⟨value, found⟩

end Text

namespace FormatVersion

open Text (IsDecimal)

variable {text run core : Text} {version : FormatVersion} {number : Nat}

theorem number?_eq_some_iff : number? run = some number ↔ IsDecimal run number := by
  constructor
  · intro read
    unfold number? at read
    split at read
    · cases read
    · rename_i known
      simp only [Bool.or_eq_true, Bool.not_eq_true', not_or, Bool.not_eq_false,
        List.isEmpty_iff] at known
      refine ⟨known.1, _, Text.forall₂_digitValue? known.2, ?_⟩
      rw [← Text.numeral_eq_ofDigits]
      exact (Option.some.inj read).symm
  · intro decimal
    have digits : run.all CodePoint.isDigit = true :=
      List.all_eq_true.mpr fun point inside => decimal.isDigit inside
    obtain ⟨filled, values, known, rfl⟩ := decimal
    rw [number?, if_neg (by simp [filled, digits]), Text.decimalValue,
      Text.filterMap_of_forall₂ known, Text.numeral_eq_ofDigits]

/-- Blanks, perhaps a `v`, three decimal numbers with dots between them, and blanks. -/
inductive Spelled : Text → FormatVersion → Prop
  | intro {before mark major minor patch after : Text} {version : FormatVersion}
      (blankBefore : ∀ point ∈ before, point.isBlank = true)
      (marked : mark = [] ∨ mark = ['v'.toNat])
      (first : IsDecimal major version.major) (second : IsDecimal minor version.minor)
      (third : IsDecimal patch version.patch)
      (blankAfter : ∀ point ∈ after, point.isBlank = true) :
      Spelled (before ++ (mark ++ (major ++ '.'.toNat :: (minor ++ '.'.toNat :: patch))) ++ after)
        version

section Core

variable {major minor patch : Text} {one two three : Nat} (first : IsDecimal major one)
  (second : IsDecimal minor two) (third : IsDecimal patch three)

include first second third in
theorem split_numbers :
    Text.split '.' (major ++ '.'.toNat :: (minor ++ '.'.toNat :: patch)) =
      [major, minor, patch] := by
  have undotted {run : Text} {number : Nat} (decimal : IsDecimal run number) : '.'.toNat ∉ run :=
    fun inside => absurd (decimal.isDigit inside) (by decide)
  rw [Text.split_append (undotted first), Text.split_append (undotted second),
    Text.split_of_notMem (undotted third)]

include first in
theorem withoutMark_append {mark : Text} (marked : mark = [] ∨ mark = ['v'.toNat]) :
    withoutMark (mark ++ (major ++ '.'.toNat :: (minor ++ '.'.toNat :: patch))) =
      major ++ '.'.toNat :: (minor ++ '.'.toNat :: patch) := by
  rcases marked with rfl | rfl
  · obtain ⟨point, rest, rfl⟩ := List.exists_cons_of_ne_nil first.1
    have digit := first.isDigit (List.mem_cons_self)
    have other : point ≠ 'v'.toNat := by
      rintro rfl
      exact absurd digit (by decide)
    exact if_neg other
  · rfl

include first third in
theorem trim_numbers {before mark after : Text} (marked : mark = [] ∨ mark = ['v'.toNat])
    (blankBefore : ∀ point ∈ before, CodePoint.isBlank point = true)
    (blankAfter : ∀ point ∈ after, CodePoint.isBlank point = true) :
    Text.trimBlanks
        (before ++ (mark ++ (major ++ '.'.toNat :: (minor ++ '.'.toNat :: patch))) ++ after) =
      mark ++ (major ++ '.'.toNat :: (minor ++ '.'.toNat :: patch)) := by
  have visible {run : Text} {number : Nat} (decimal : IsDecimal run number) :
      ∀ point ∈ run, CodePoint.isBlank point = false := by
    intro point inside
    by_contra blank
    have digit := decimal.isDigit inside
    rw [CodePoint.not_isDigit_of_isBlank (Bool.eq_true_of_not_eq_false blank)] at digit
    cases digit
  refine Text.trim_between blankBefore blankAfter ?_ ?_ (by simp)
  · obtain ⟨point, rest, rfl⟩ := List.exists_cons_of_ne_nil first.1
    have here := visible first point List.mem_cons_self
    rcases marked with rfl | rfl
    · simpa using here
    · rintro _ ⟨⟩
      decide
  · obtain ⟨front, point, rfl⟩ := (List.eq_nil_or_concat patch).resolve_left third.1
    have here := visible third point (by simp)
    have shape : mark ++ (major ++ '.'.toNat :: (minor ++ '.'.toNat :: front.concat point)) =
        (mark ++ (major ++ '.'.toNat :: (minor ++ '.'.toNat :: front))).concat point := by simp
    rw [shape, List.concat_eq_append, List.getLast?_concat]
    rintro _ ⟨⟩
    exact here

end Core

theorem Spelled.ofText? (spelled : Spelled text version) : ofText? text = some version := by
  obtain ⟨blankBefore, marked, first, second, third, blankAfter⟩ := spelled
  rw [FormatVersion.ofText?, trim_numbers first third marked blankBefore blankAfter,
    withoutMark_append first marked, split_numbers first second third]
  simp only [number?_eq_some_iff.mpr first, number?_eq_some_iff.mpr second,
    number?_eq_some_iff.mpr third]
  rfl

theorem exists_mark (text : Text) :
    ∃ mark, (mark = [] ∨ mark = ['v'.toNat]) ∧ text = mark ++ withoutMark text := by
  cases text with
  | nil => exact ⟨[], .inl rfl, rfl⟩
  | cons point rest =>
      by_cases same : point = 'v'.toNat
      · exact ⟨['v'.toNat], .inr rfl, by rw [withoutMark, if_pos same, same]; rfl⟩
      · exact ⟨[], .inl rfl, by rw [withoutMark, if_neg same]; rfl⟩

theorem spelled_of_ofText? (read : FormatVersion.ofText? text = some version) :
    Spelled text version := by
  obtain ⟨before, after, blankBefore, blankAfter, trimmed⟩ :=
    Text.exists_trimmed CodePoint.isBlank text
  obtain ⟨mark, marked, unmarked⟩ := exists_mark (Text.trimBlanks text)
  unfold FormatVersion.ofText? at read
  split at read
  · rename_i major minor patch pieces
    simp only [Option.bind_eq_bind, Option.bind_eq_some_iff, number?_eq_some_iff] at read
    obtain ⟨one, first, two, second, three, third, made⟩ := read
    cases made
    have joined := @Text.join_split '.'.toNat (withoutMark (Text.trimBlanks text))
    rw [pieces, Text.join_cons_cons, Text.join_cons_cons, Text.join,
      List.intercalate_singleton] at joined
    rw [trimmed, ← Text.trimBlanks, unmarked, ← joined]
    exact .intro blankBefore marked first second third blankAfter
  · cases read

theorem ofText?_eq_some_iff : FormatVersion.ofText? text = some version ↔ Spelled text version :=
  ⟨spelled_of_ofText?, Spelled.ofText?⟩

theorem read_eq_ok_iff {given : Value} : read given = .ok version ↔
    ∃ text, given.text? = some text ∧ Spelled text version := by
  simp only [← ofText?_eq_some_iff]
  unfold read
  cases given.text? with
  | none => simp
  | some text => cases found : FormatVersion.ofText? text <;> simp [found]

theorem read_toText (version : FormatVersion) : read (.text version.toText) = .ok version :=
  read_eq_ok_iff.mpr ⟨_, rfl, spelled_of_ofText? (ofText?_toText version)⟩

theorem read_eq_error_iff {given : Value} {error : VersionError} : read given = .error error ↔
    (¬ ∃ text version, given.text? = some text ∧ Spelled text version) ∧
      error = if given.isText then .malformed given else .notText given := by
  simp only [← ofText?_eq_some_iff]
  unfold read Value.isText
  cases given.text? with
  | none => simp [eq_comm]
  | some text => cases found : FormatVersion.ofText? text <;> simp [found, eq_comm]

/-- A value is read as a version just when it is a text that spells it, and is refused otherwise.
Reading the text of what was read changes nothing. -/
theorem read_iff_spelled (given : Value) (version : FormatVersion) :
    (read given = .ok version ↔ ∃ text, given.text? = some text ∧ Spelled text version) ∧
    (∀ error, read given = .error error ↔
      (¬ ∃ text other, given.text? = some text ∧ Spelled text other) ∧
        error = if given.isText then .malformed given else .notText given) ∧
    read (.text version.toText) = .ok version ∧
    (do read (.text (← read given).toText)) = read given := by
  refine ⟨read_eq_ok_iff, fun error => read_eq_error_iff, read_toText version, ?_⟩
  cases read given with
  | error error => rfl
  | ok other => simp only [bind, Except.bind, read_toText]

example : ofText? "\tv1.٢.003\n" = some ⟨1, 2, 3⟩ := by decide

end FormatVersion

end QueryOptions
