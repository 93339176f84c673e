import QueryOptions.Descriptor.Basic

namespace QueryOptions

/-! The tokens that name a descriptor. Joining makes a text into a name just when the text writes
each letter of the name, a capital perhaps in either case after a hyphen or an underscore. Of the
tokens in ASCII this leaves few for each kind. -/

namespace CodePoint

variable {point capital : CodePoint}

theorem asciiUpper_eq_iff (upper : capital.isAsciiUpper = true) :
    point.asciiUpper = capital ↔ point = capital ∨ point = capital.asciiLower := by
  simp only [isAsciiUpper, Bool.and_eq_true, decide_eq_true_eq] at upper
  simp only [asciiUpper, asciiLower, isAsciiLower, isAsciiUpper, Bool.and_eq_true,
    decide_eq_true_eq]
  grind

theorem isAsciiUpper_asciiUpper (letter : point.isAsciiLetter = true) :
    point.asciiUpper.isAsciiUpper = true := by
  simp only [isAsciiLetter, Bool.or_eq_true] at letter
  unfold asciiUpper
  split
  · rename_i lower
    have shifted : ∀ number : Nat, 97 ≤ number ∧ number ≤ 122 →
        65 ≤ number - 32 ∧ number - 32 ≤ 90 := by omega
    simp only [isAsciiLower, Bool.and_eq_true, decide_eq_true_eq] at lower
    simp only [isAsciiUpper, Bool.and_eq_true, decide_eq_true_eq]
    exact shifted point lower
  · rename_i other
    exact letter.resolve_left other

theorem isAsciiLetter_of_asciiUpper (letter : point.asciiUpper.isAsciiLetter = true) :
    point.isAsciiLetter = true := by
  by_cases lower : point.isAsciiLower = true
  · simp [isAsciiLetter, lower]
  · rwa [asciiUpper, if_neg lower] at letter

end CodePoint

namespace Naming

variable {text name rest : Text} {point letter separator : CodePoint}

/-- The ways to write a letter inside a name. -/
def letterForms (letter : CodePoint) : List Text :=
  [letter] :: if letter.isAsciiUpper then
      ['-'.toNat, '_'.toNat].flatMap fun separator =>
        [[separator, letter.asciiLower], [separator, letter]]
    else []

/-- The texts that are joined to a name. -/
def joinedForms : Text → List Text
  | [] => [[]]
  | letter :: rest => (letterForms letter).flatMap fun form => (joinedForms rest).map (form ++ ·)

theorem mem_joinedForms_cons : text ∈ joinedForms (letter :: rest) ↔
    ∃ form ∈ letterForms letter, ∃ later ∈ joinedForms rest, form ++ later = text := by
  simp only [joinedForms, List.mem_flatMap, List.mem_map]

theorem mem_letterForms_iff (upper : letter.isAsciiUpper = true) {form : Text} :
    form ∈ letterForms letter ↔ form = [letter] ∨ ∃ separator point,
      isSeparator separator = true ∧ point.asciiUpper = letter ∧ form = [separator, point] := by
  simp only [letterForms, upper, if_true, CodePoint.asciiUpper_eq_iff upper, isSeparator,
    Bool.or_eq_true, decide_eq_true_eq, List.mem_cons, List.flatMap_cons, List.flatMap_nil,
    List.mem_append, List.not_mem_nil, or_false]
  constructor
  · rintro (rfl | (rfl | rfl) | rfl | rfl)
    · exact .inl rfl
    · exact .inr ⟨_, _, .inl rfl, .inr rfl, rfl⟩
    · exact .inr ⟨_, _, .inl rfl, .inl rfl, rfl⟩
    · exact .inr ⟨_, _, .inr rfl, .inr rfl, rfl⟩
    · exact .inr ⟨_, _, .inr rfl, .inl rfl, rfl⟩
  · rintro (rfl | ⟨separator, point, rfl | rfl, rfl | rfl, rfl⟩) <;> simp

theorem joinCapitalized_separated (known : isSeparator separator = true)
    (letter : point.isAsciiLetter = true) :
    joinCapitalized (separator :: point :: rest) = point.asciiUpper :: joinCapitalized rest := by
  simp [joinCapitalized, known, letter]

theorem joinCapitalized_plain (plain : isSeparator point = false) :
    joinCapitalized (point :: rest) = point :: joinCapitalized rest := by
  cases rest with
  | nil => rfl
  | cons next rest => simp [joinCapitalized, plain]

theorem isSeparator_of_isAsciiLetter (letter : point.isAsciiLetter = true) :
    isSeparator point = false := by
  rw [isSeparator, Bool.or_eq_false_iff]
  constructor <;> refine decide_eq_false ?_ <;> rintro rfl <;> exact absurd letter (by decide)

theorem mem_joinedForms_joinCapitalized (text : Text) :
    text ∈ joinedForms (joinCapitalized text) := by
  fun_induction joinCapitalized text with
  | case1 => simp [joinedForms]
  | case2 point =>
      exact mem_joinedForms_cons.mpr ⟨[point], List.mem_cons_self, [], List.mem_cons_self, rfl⟩
  | case3 point next rest joined ih =>
      obtain ⟨known, letter⟩ := Bool.and_eq_true_iff.mp joined
      refine mem_joinedForms_cons.mpr ⟨[point, next], ?_, rest, ih, rfl⟩
      rw [mem_letterForms_iff (CodePoint.isAsciiUpper_asciiUpper letter)]
      exact .inr ⟨point, next, known, rfl, rfl⟩
  | case4 point next rest kept ih =>
      exact mem_joinedForms_cons.mpr ⟨[point], List.mem_cons_self, next :: rest, ih, rfl⟩

theorem joinCapitalized_of_mem (letters : ∀ letter ∈ name, letter.isAsciiLetter = true)
    (written : text ∈ joinedForms name) : joinCapitalized text = name := by
  induction name generalizing text with
  | nil => rw [List.mem_singleton.mp written]; rfl
  | cons letter rest ih =>
      obtain ⟨here, others⟩ := List.forall_mem_cons.mp letters
      obtain ⟨form, known, later, laterWritten, rfl⟩ := mem_joinedForms_cons.mp written
      have joined := ih others laterWritten
      have plain : joinCapitalized (letter :: later) = letter :: rest := by
        rw [joinCapitalized_plain (isSeparator_of_isAsciiLetter here), joined]
      by_cases upper : letter.isAsciiUpper = true
      · obtain rfl | ⟨separator, point, separates, rfl, rfl⟩ := (mem_letterForms_iff upper).mp known
        · exact plain
        · have letter := CodePoint.isAsciiLetter_of_asciiUpper here
          rw [List.cons_append, List.singleton_append, joinCapitalized_separated separates letter,
            joined]
      · rw [letterForms, if_neg upper, List.mem_singleton] at known
        rw [known]
        exact plain

theorem joinCapitalized_eq_iff (letters : ∀ letter ∈ name, letter.isAsciiLetter = true) :
    joinCapitalized text = name ↔ text ∈ joinedForms name :=
  ⟨fun same => same ▸ mem_joinedForms_joinCapitalized text, joinCapitalized_of_mem letters⟩

/-- What may stand before the first letter of a name. -/
def leads : List Text := [[], ['-'.toNat], ['_'.toNat]]

theorem mem_leads_iff {lead : Text} : lead ∈ leads ↔
    lead = [] ∨ ∃ separator, isSeparator separator = true ∧ lead = [separator] := by
  simp [leads, isSeparator, or_and_right, exists_or]

/-- No letter becomes a separator in upper case. -/
theorem isSeparator_asciiUpper (separates : isSeparator point.asciiUpper = true) :
    point.asciiUpper = point := by
  have other : ¬ point.isAsciiLower = true := by
    intro lower
    have letter : point.isAsciiLetter = true := by simp [CodePoint.isAsciiLetter, lower]
    have upper := CodePoint.isAsciiUpper_asciiUpper letter
    rw [isSeparator_of_isAsciiLetter (by simp [CodePoint.isAsciiLetter, upper])] at separates
    cases separates
  rw [CodePoint.asciiUpper, if_neg other]

/-- The tokens with one key, of those that begin in ASCII: the first letter is in either case, and
one separator may stand before it. -/
theorem descriptorKey_eq_iff {token tail : Text} {capital : CodePoint}
    (ascii : ∀ point ∈ token.head?, point < 0x80) (upper : capital.isAsciiUpper = true)
    (letters : ∀ letter ∈ tail, letter.isAsciiLetter = true) :
    descriptorKey token = capital :: tail ↔
      ∃ lead ∈ leads, ∃ initial ∈ [capital, capital.asciiLower], ∃ ending ∈ joinedForms tail,
        lead ++ initial :: ending = token := by
  have all : ∀ letter ∈ capital :: tail, letter.isAsciiLetter = true :=
    List.forall_mem_cons.mpr ⟨by simp [CodePoint.isAsciiLetter, upper], letters⟩
  cases token with
  | nil => simp [descriptorKey]
  | cons point rest =>
      have key : descriptorKey (point :: rest) = joinCapitalized (point.asciiUpper :: rest) := by
        simp [descriptorKey, CodePoint.upperCase, ascii point rfl]
      rw [key, joinCapitalized_eq_iff all, mem_joinedForms_cons]
      simp only [mem_letterForms_iff upper, mem_leads_iff, List.mem_cons, List.not_mem_nil,
        or_false, ← CodePoint.asciiUpper_eq_iff upper]
      constructor
      · rintro ⟨_, rfl | ⟨separator, letter, separates, raised, rfl⟩, ending, written, made⟩
        · obtain ⟨same, rfl⟩ := List.cons.inj made
          exact ⟨[], .inl rfl, point, same.symm, ending, written, rfl⟩
        · obtain ⟨rfl, rfl⟩ := List.cons.inj made
          exact ⟨[point], .inr ⟨_, separates, by rw [isSeparator_asciiUpper separates]⟩, letter,
            raised, ending, written, rfl⟩
      · rintro ⟨_, rfl | ⟨separator, separates, rfl⟩, initial, raised, ending, written, made⟩
        · obtain ⟨rfl, rfl⟩ := List.cons.inj made
          exact ⟨[capital], .inl rfl, ending, written, by rw [raised]; rfl⟩
        · obtain ⟨rfl, rfl⟩ := List.cons.inj made
          have kept : separator.asciiUpper = separator := by
            simp only [isSeparator, Bool.or_eq_true, decide_eq_true_eq] at separates
            rcases separates with rfl | rfl <;> rfl
          exact ⟨[separator, initial], .inr ⟨_, _, separates, raised, rfl⟩, ending, written,
            by rw [kept]; rfl⟩

end Naming

namespace DescriptorKind

/-- How the name of a kind goes on after its first letter. The capital inside a name may be in
either case after a hyphen or an underscore. -/
def endings : DescriptorKind → List Text
  | .list .membered =>
      ["emberedList", "embered-list", "embered-List", "embered_list", "embered_List"]
  | kind => [kind.name.tail]

/-- The ways to write the name of a kind: the first letter in either case, perhaps after a hyphen or
an underscore. -/
def writtenForms (kind : DescriptorKind) : List Text :=
  Naming.leads.flatMap fun lead =>
    [kind.name.take 1, Text.asciiLower (kind.name.take 1)].flatMap fun initial =>
      kind.endings.map fun ending => lead ++ initial ++ ending

theorem exists_initial (kind : DescriptorKind) : ∃ capital tail, kind.name = capital :: tail ∧
    capital.isAsciiUpper = true ∧ (∀ letter ∈ tail, letter.isAsciiLetter = true) ∧
    Naming.joinedForms tail = kind.endings := by
  cases kind with
  | leaf type => cases type <;> exact ⟨_, _, rfl, by decide, by decide, by decide⟩
  | list join => cases join <;> exact ⟨_, _, rfl, by decide, by decide, by decide⟩
  | _ => exact ⟨_, _, rfl, by decide, by decide, by decide⟩

theorem descriptorKey_eq_name_iff {token : Text} (ascii : ∀ point ∈ token.head?, point < 0x80)
    (kind : DescriptorKind) :
    Naming.descriptorKey token = kind.name ↔ token ∈ kind.writtenForms := by
  obtain ⟨capital, tail, named, upper, letters, forms⟩ := kind.exists_initial
  rw [named, Naming.descriptorKey_eq_iff ascii upper letters, forms]
  simp only [writtenForms, named, List.mem_flatMap, List.mem_map]
  refine exists_congr fun lead => and_congr_right fun _ => ?_
  simp [Text.asciiLower]

theorem ofName?_name (kind : DescriptorKind) : ofName? kind.name = some kind := by
  cases kind with
  | leaf type => cases type <;> decide
  | list join => cases join <;> decide
  | _ => decide

theorem ofName?_eq_some_iff {name : Text} {kind : DescriptorKind} :
    ofName? name = some kind ↔ name = kind.name := by
  constructor
  · intro found
    have same := List.find?_some found
    exact (eq_of_beq same).symm
  · rintro rfl
    exact ofName?_name kind

theorem descriptorKey_name (kind : DescriptorKind) :
    Naming.descriptorKey kind.name = kind.name := by
  cases kind with
  | leaf type => cases type <;> decide
  | list join => cases join <;> decide
  | _ => decide

variable {given : Value} {token : Text}

/-- A kind that is given as itself is resolved as its name would be. -/
theorem resolve_eq (read : given.text? = some token) : resolve given =
    match ofName? (Naming.descriptorKey token) with
    | some kind => .ok kind
    | none => .error (if token = [] then .descriptorName given else .unknownDescriptor token) := by
  cases given with
  | text content =>
      obtain rfl : content = token := Option.some.inj read
      cases content with
      | nil => rfl
      | cons point rest => cases found : ofName? (Naming.descriptorKey (point :: rest)) <;>
          simp [resolve, found]
  | kind named =>
      obtain rfl : named.name = token := Option.some.inj read
      rw [descriptorKey_name, ofName?_name, resolve]
  | _ => cases read

/-- A token that begins in ASCII is resolved to the kind whose name it writes, and is refused if it
writes none. -/
theorem resolve_iff_written (read : given.text? = some token)
    (ascii : ∀ point ∈ token.head?, point < 0x80) :
    (∀ kind, resolve given = .ok kind ↔ token ∈ kind.writtenForms) ∧
    ∀ error, resolve given = .error error ↔ (∀ kind : DescriptorKind, token ∉ kind.writtenForms) ∧
      error = if token = [] then .descriptorName given else .unknownDescriptor token := by
  have forms (kind : DescriptorKind) : token ∈ kind.writtenForms ↔
      ofName? (Naming.descriptorKey token) = some kind := by
    rw [← descriptorKey_eq_name_iff ascii kind, ofName?_eq_some_iff]
  simp only [forms, resolve_eq read]
  cases ofName? (Naming.descriptorKey token) <;> simp [eq_comm]

theorem memberedList_resolved :
    (∀ point ∈ (Text.ofString "-membered_List").head?, point < 0x80) ∧
    resolve (.text "-membered_List") = .ok (.list .membered) ∧
    resolve (.text "memberedlist") = .error (.unknownDescriptor "memberedlist") := by
  have separated : ∀ point ∈ (Text.ofString "-membered_List").head?, point < 0x80 := by decide
  have running : ∀ point ∈ (Text.ofString "memberedlist").head?, point < 0x80 := by decide
  have unwritten (kind : DescriptorKind) : Text.ofString "memberedlist" ∉ kind.writtenForms := by
    cases kind with
    | leaf type => cases type <;> decide
    | list join => cases join <;> decide
    | _ => decide
  have accepted := (@resolve_iff_written (.text "-membered_List") _ rfl separated).1
  have refused := (@resolve_iff_written (.text "memberedlist") _ rfl running).2
  exact ⟨separated, (accepted _).mpr (by decide), (refused _).mpr ⟨unwritten, rfl⟩⟩

end DescriptorKind

end QueryOptions
