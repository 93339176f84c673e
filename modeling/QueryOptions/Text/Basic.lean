/-!
Text as a list of code points. A surrogate may stand alone in it, so that every text a document
can hold has a place here. Literals are written as strings and characters and are coerced.
-/

namespace QueryOptions

/-- A position of the Unicode code space. -/
abbrev CodePoint := Nat

abbrev Text := List CodePoint

instance : Coe Char CodePoint := ⟨Char.toNat⟩

namespace CodePoint

/-- Half of a pair in sixteen-bit text; alone it has no encoding in bytes. -/
def isSurrogate (point : CodePoint) : Bool := 0xD800 ≤ point && point ≤ 0xDFFF

def isAsciiLower (point : CodePoint) : Bool := 'a'.toNat ≤ point && point ≤ 'z'.toNat

def isAsciiUpper (point : CodePoint) : Bool := 'A'.toNat ≤ point && point ≤ 'Z'.toNat

def isAsciiLetter (point : CodePoint) : Bool := isAsciiLower point || isAsciiUpper point

def isAsciiDigit (point : CodePoint) : Bool := '0'.toNat ≤ point && point ≤ '9'.toNat

def isAsciiAlphanumeric (point : CodePoint) : Bool := isAsciiLetter point || isAsciiDigit point

def isHexDigit (point : CodePoint) : Bool :=
  isAsciiDigit point || ('a'.toNat ≤ point && point ≤ 'f'.toNat) ||
    ('A'.toNat ≤ point && point ≤ 'F'.toNat)

def asciiLower (point : CodePoint) : CodePoint := if isAsciiUpper point then point + 32 else point

def asciiUpper (point : CodePoint) : CodePoint := if isAsciiLower point then point - 32 else point

end CodePoint

namespace Text

def ofString (literal : String) : Text := literal.toList.map Char.toNat

instance : Coe String Text := ⟨ofString⟩

/-- The pieces between the occurrences of `separator`; there is always at least one. -/
def split (separator : CodePoint) : Text → List Text
  | [] => [[]]
  | point :: rest =>
      if point = separator then [] :: split separator rest
      else
        match split separator rest with
        | [] => [[point]]
        | piece :: pieces => (point :: piece) :: pieces

theorem split_ne_nil (separator : CodePoint) (text : Text) : split separator text ≠ [] := by
  cases text with
  | nil => simp [split]
  | cons point rest =>
      unfold split
      split
      · simp
      · split <;> simp

theorem split_of_notMem {separator : CodePoint} {text : Text} (absent : separator ∉ text) :
    split separator text = [text] := by
  induction text with
  | nil => rfl
  | cons point rest ih =>
      obtain ⟨here, later⟩ := not_or.mp (mt List.mem_cons.mpr absent)
      rw [split, if_neg (Ne.symm here), ih later]

theorem split_append {separator : CodePoint} {piece rest : Text} (absent : separator ∉ piece) :
    split separator (piece ++ separator :: rest) = piece :: split separator rest := by
  induction piece with
  | nil => simp [split]
  | cons point piece ih =>
      obtain ⟨here, later⟩ := not_or.mp (mt List.mem_cons.mpr absent)
      rw [List.cons_append, split, if_neg (Ne.symm here), ih later]

theorem notMem_of_mem_split {separator : CodePoint} {text piece : Text}
    (inside : piece ∈ split separator text) : separator ∉ piece := by
  induction text generalizing piece with
  | nil => simp_all [split]
  | cons point rest ih =>
      unfold split at inside
      split at inside
      · rcases List.mem_cons.mp inside with rfl | later
        · exact List.not_mem_nil
        · exact ih later
      · rename_i other
        split at inside
        · rw [List.mem_singleton.mp inside]
          simpa using Ne.symm other
        · rename_i first pieces read
          rw [read] at ih
          rcases List.mem_cons.mp inside with rfl | later
          · exact not_or.mpr ⟨Ne.symm other, ih List.mem_cons_self⟩ ∘ List.mem_cons.mp
          · exact ih (List.mem_cons_of_mem _ later)

theorem split_append_separator {separator : CodePoint} (before after : Text) :
    split separator (before ++ separator :: after) =
      split separator before ++ split separator after := by
  induction before with
  | nil => simp [split]
  | cons point rest ih =>
      rw [List.cons_append, split, split, ih]
      split
      · rfl
      · cases pieces : split separator rest with
        | nil => exact absurd pieces (split_ne_nil _ _)
        | cons piece others => rfl

def join (separator : Text) (pieces : List Text) : Text := separator.intercalate pieces

/-- The text before and after the last occurrence of `separator`, if it occurs. -/
def splitLast? (separator : CodePoint) : Text → Option (Text × Text)
  | [] => none
  | point :: rest =>
      match splitLast? separator rest with
      | some (before, after) => some (point :: before, after)
      | none => if point = separator then some ([], rest) else none

theorem splitLast?_eq_none {separator : CodePoint} {text : Text} (absent : separator ∉ text) :
    splitLast? separator text = none := by
  induction text with
  | nil => rfl
  | cons point rest ih =>
      obtain ⟨here, later⟩ := not_or.mp (mt List.mem_cons.mpr absent)
      rw [splitLast?, ih later, if_neg (Ne.symm here)]

theorem splitLast?_append {separator : CodePoint} {after : Text} (last : separator ∉ after)
    (before : Text) : splitLast? separator (before ++ separator :: after) = some (before, after) := by
  induction before with
  | nil => simp [splitLast?, splitLast?_eq_none last]
  | cons point before ih => rw [List.cons_append, splitLast?, ih]

theorem exists_last {separator : CodePoint} {text : Text} (occurs : separator ∈ text) :
    ∃ before after, text = before ++ separator :: after ∧ separator ∉ after := by
  obtain ⟨after, before, parts, fresh⟩ :=
    List.eq_append_cons_of_mem (List.mem_reverse.mpr occurs)
  refine ⟨before.reverse, after.reverse, ?_, mt List.mem_reverse.mp fresh⟩
  simpa using congrArg List.reverse parts

/-- What stands before `ending`, if the text ends with it. -/
def beforeEnding? (ending text : Text) : Option Text :=
  if ending.isSuffixOf text then some (text.take (text.length - ending.length)) else none

def asciiLower (text : Text) : Text := text.map CodePoint.asciiLower

section Join

variable {separator point : CodePoint} {word : Text} {words : List Text}

theorem join_cons_cons (next : Text) :
    join [separator] (word :: next :: words) = word ++ separator :: join [separator] (next :: words) := by
  simp [join, List.intercalate_cons_cons]

theorem join_cons_point :
    join [separator] ((point :: word) :: words) = point :: join [separator] (word :: words) := by
  cases words with
  | nil => simp [join]
  | cons next rest => rw [join_cons_cons, join_cons_cons, List.cons_append]

theorem join_append {left right : List Text} (leftFilled : left ≠ []) (rightFilled : right ≠ []) :
    join [separator] (left ++ right) =
      join [separator] left ++ separator :: join [separator] right := by
  induction left with
  | nil => contradiction
  | cons word rest ih =>
      cases rest with
      | nil =>
          obtain ⟨next, others, rfl⟩ := List.exists_cons_of_ne_nil rightFilled
          rw [List.singleton_append, join_cons_cons, join, join, List.intercalate_singleton]
      | cons next rest =>
          have later := ih (List.cons_ne_nil _ _)
          rw [List.cons_append] at later
          rw [List.cons_append, List.cons_append, join_cons_cons, later, join_cons_cons,
            List.append_assoc, List.cons_append]

theorem join_flatMap {read : Text → List Text} (filled : ∀ word ∈ words, read word ≠ []) :
    join [separator] (words.flatMap read) =
      join [separator] (words.map fun word => join [separator] (read word)) := by
  induction words with
  | nil => rfl
  | cons word rest ih =>
      obtain ⟨here, others⟩ := List.forall_mem_cons.mp filled
      cases rest with
      | nil => simp [join]
      | cons next rest =>
          have later : (next :: rest).flatMap read ≠ [] :=
            mt List.flatMap_eq_nil_iff.mp fun none => others next List.mem_cons_self
              (none next List.mem_cons_self)
          rw [List.flatMap_cons, join_append here later, ih others]
          exact (join_cons_cons _).symm

theorem asciiLower_join (kept : CodePoint.asciiLower separator = separator) :
    asciiLower (join [separator] words) = join [separator] (words.map asciiLower) := by
  induction words with
  | nil => rfl
  | cons word rest ih =>
      cases rest with
      | nil => simp [join]
      | cons next rest =>
          rw [List.map_cons, List.map_cons, join_cons_cons, join_cons_cons, ← List.map_cons, ← ih]
          simp [asciiLower, kept]

theorem filter_join (absent : ∀ word ∈ words, separator ∉ word) :
    (join [separator] words).filter (· ≠ separator) = words.flatten := by
  induction words with
  | nil => rfl
  | cons word rest ih =>
      obtain ⟨here, later⟩ := List.forall_mem_cons.mp absent
      have whole : word.filter (· ≠ separator) = word :=
        List.filter_eq_self.mpr fun point inside =>
          decide_eq_true fun same => here (same ▸ inside)
      cases rest with
      | nil => simpa [join] using whole
      | cons next rest =>
          rw [join_cons_cons, List.filter_append, whole, List.filter_cons_of_neg (by simp),
            ih later, List.flatten_cons (l := word)]

theorem mem_flatten_of_mem_join (absent : ∀ word ∈ words, separator ∉ word)
    (inside : point ∈ join [separator] words) : point ∈ words.flatten ∨ point = separator := by
  by_cases same : point = separator
  · exact .inr same
  · rw [← filter_join absent]
    exact .inl (List.mem_filter.mpr ⟨inside, decide_eq_true same⟩)

theorem join_split (text : Text) : join [separator] (split separator text) = text := by
  induction text with
  | nil => rfl
  | cons point rest ih =>
      unfold split
      cases pieces : split separator rest with
      | nil => exact absurd pieces (split_ne_nil _ _)
      | cons piece others =>
          rw [pieces] at ih
          split
          · rename_i same
            rw [same, join_cons_cons, ih, List.nil_append]
          · rw [join_cons_point, ih]

end Join

/-- Comparison by code points from the left; a proper beginning comes first. -/
def le : Text → Text → Bool
  | [], _ => true
  | _ :: _, [] => false
  | left :: lefts, right :: rights => left < right || (left == right && le lefts rights)

/-- Comparison of lists of texts from the first text on; a proper beginning comes first. -/
def listLe : List Text → List Text → Bool
  | [], _ => true
  | _ :: _, [] => false
  | left :: lefts, right :: rights => if left = right then listLe lefts rights else left.le right

/-- Drops the characters of a class from both ends. -/
def trim (inClass : CodePoint → Bool) (text : Text) : Text :=
  ((text.dropWhile inClass).reverse.dropWhile inClass).reverse

theorem trim_of_forall_not {inClass : CodePoint → Bool} {text : Text}
    (outside : ∀ point ∈ text, inClass point = false) : trim inClass text = text := by
  have kept : ∀ other : Text, (∀ point ∈ other, inClass point = false) →
      other.dropWhile inClass = other := by
    intro other none
    cases other with
    | nil => rfl
    | cons point rest => rw [List.dropWhile_cons_of_neg]; simp [none point]
  rw [trim, kept text outside, kept text.reverse fun point member =>
    outside point (List.mem_reverse.mp member), List.reverse_reverse]

end Text

end QueryOptions
