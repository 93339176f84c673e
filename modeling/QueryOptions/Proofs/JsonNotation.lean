import Mathlib.Tactic.SplitIfs
import QueryOptions.Text.Json

namespace QueryOptions

/-! The JSON notation as a grammar of its own, which says of each text what value it stands for. All
that is rendered is in the notation, and stands for what was to be said. -/

/-- The 16-bit units of a character; above the 16-bit range there are two. -/
def CodePoint.units (point : CodePoint) : List Nat :=
  if point < 0x10000 then [point]
  else [0xD800 + (point - 0x10000) / 0x400, 0xDC00 + (point - 0x10000) % 0x400]

def Text.isUnicode (text : Text) : Bool := text.all (· < 0x110000)

/-- What a text in the notation can stand for. The texts in it are told by their 16-bit units. -/
inductive JsonValue where
  | null
  | bool (value : Bool)
  | number (value : Rat)
  | text (units : List Nat)
  | list (items : List JsonValue)
  | object (fields : List (List Nat × JsonValue))

namespace JsonValue

def blanks : List CodePoint := [' '.toNat, '\t'.toNat, '\n'.toNat, '\r'.toNat]

/-- What may stand around values and marks. -/
def IsGap (text : Text) : Prop := ∀ point ∈ text, point ∈ blanks

def IsDigits (text : Text) : Prop := text ≠ [] ∧ ∀ point ∈ text, point.isAsciiDigit = true

/-- Digits of which a zero comes first only where it is alone. -/
def IsWhole (text : Text) : Prop :=
  IsDigits text ∧ (text.head? = some '0'.toNat → text = ['0'.toNat])

/-- The notation of a number without its sign and its exponent. -/
inductive SpellsMagnitude : Rat → Text → Prop
  | whole {digits : Text} (sound : IsWhole digits) :
      SpellsMagnitude (Text.decimalValue digits) digits
  | fraction {digits part : Text} (sound : IsWhole digits) (further : IsDigits part) :
      SpellsMagnitude (Text.decimalValue digits + Text.decimalValue part / 10 ^ part.length)
        (digits ++ '.'.toNat :: part)

def exponentLetters : List CodePoint := ['e'.toNat, 'E'.toNat]

/-- The notation of an exponent, which may be left out. -/
inductive SpellsExponent : Int → Text → Prop
  | none : SpellsExponent 0 []
  | unsigned {letter : CodePoint} {digits : Text} (known : letter ∈ exponentLetters)
      (sound : IsDigits digits) : SpellsExponent (Text.decimalValue digits) (letter :: digits)
  | positive {letter : CodePoint} {digits : Text} (known : letter ∈ exponentLetters)
      (sound : IsDigits digits) :
      SpellsExponent (Text.decimalValue digits) (letter :: '+'.toNat :: digits)
  | negative {letter : CodePoint} {digits : Text} (known : letter ∈ exponentLetters)
      (sound : IsDigits digits) :
      SpellsExponent (-Text.decimalValue digits) (letter :: '-'.toNat :: digits)

inductive SpellsNumber : Rat → Text → Prop
  | positive {magnitude : Rat} {exponent : Int} {digits scale : Text}
      (spelled : SpellsMagnitude magnitude digits) (scaled : SpellsExponent exponent scale) :
      SpellsNumber (magnitude * 10 ^ exponent) (digits ++ scale)
  | negative {magnitude : Rat} {exponent : Int} {digits scale : Text}
      (spelled : SpellsMagnitude magnitude digits) (scaled : SpellsExponent exponent scale) :
      SpellsNumber (-(magnitude * 10 ^ exponent)) ('-'.toNat :: (digits ++ scale))

def shortEscapes : List (CodePoint × Nat) :=
  [('"'.toNat, 0x22), ('\\'.toNat, 0x5C), ('/'.toNat, 0x2F), ('b'.toNat, 0x08), ('f'.toNat, 0x0C),
    ('n'.toNat, 0x0A), ('r'.toNat, 0x0D), ('t'.toNat, 0x09)]

/-- The units that stand between two quotes. -/
inductive SpellsUnits : List Nat → Text → Prop
  | nil : SpellsUnits [] []
  | plain {point : CodePoint} {units : List Nat} {text : Text} (printed : 0x20 ≤ point)
      (inRange : point < 0x110000) (unquoted : point ≠ '"'.toNat) (bare : point ≠ '\\'.toNat)
      (rest : SpellsUnits units text) : SpellsUnits (point.units ++ units) (point :: text)
  | short {letter : CodePoint} {unit : Nat} {units : List Nat} {text : Text}
      (known : (letter, unit) ∈ shortEscapes) (rest : SpellsUnits units text) :
      SpellsUnits (unit :: units) ('\\'.toNat :: letter :: text)
  | numbered {digits : Text} {units : List Nat} {text : Text} (four : digits.length = 4)
      (hexadecimal : ∀ digit ∈ digits, digit.isHexDigit = true) (rest : SpellsUnits units text) :
      SpellsUnits (Text.numeral 16 (digits.map CodePoint.hexValue) :: units)
        ('\\'.toNat :: 'u'.toNat :: (digits ++ text))

mutual

/-- The value that a text stands for. -/
inductive Spells : JsonValue → Text → Prop
  | null : Spells .null "null"
  | true : Spells (.bool true) "true"
  | false : Spells (.bool false) "false"
  | number {value : Rat} {text : Text} (spelled : SpellsNumber value text) :
      Spells (.number value) text
  | text {units : List Nat} {body : Text} (spelled : SpellsUnits units body) :
      Spells (.text units) ("\"" ++ body ++ "\"")
  | noItems {gap : Text} (blank : IsGap gap) : Spells (.list []) ("[" ++ gap ++ "]")
  | list {items : List JsonValue} {body : Text} (spelled : SpellsItems items body) :
      Spells (.list items) ("[" ++ body ++ "]")
  | noFields {gap : Text} (blank : IsGap gap) : Spells (.object []) ("\x7b" ++ gap ++ "\x7d")
  | object {fields : List (List Nat × JsonValue)} {body : Text}
      (spelled : SpellsFields fields body) : Spells (.object fields) ("\x7b" ++ body ++ "\x7d")

/-- The value that a text stands for which may have gaps around it. -/
inductive SpellsLoosely : JsonValue → Text → Prop
  | between {value : JsonValue} {before text after : Text} (gapBefore : IsGap before)
      (spelled : Spells value text) (gapAfter : IsGap after) :
      SpellsLoosely value (before ++ text ++ after)

inductive SpellsItems : List JsonValue → Text → Prop
  | last {value : JsonValue} {text : Text} (spelled : SpellsLoosely value text) :
      SpellsItems [value] text
  | cons {value : JsonValue} {values : List JsonValue} {text others : Text}
      (spelled : SpellsLoosely value text) (rest : SpellsItems values others) :
      SpellsItems (value :: values) (text ++ "," ++ others)

/-- The names of fields are texts as others. -/
inductive SpellsFields : List (List Nat × JsonValue) → Text → Prop
  | last {name : List Nat} {value : JsonValue} {key text : Text}
      (named : SpellsLoosely (.text name) key) (spelled : SpellsLoosely value text) :
      SpellsFields [(name, value)] (key ++ ":" ++ text)
  | cons {name : List Nat} {value : JsonValue} {fields : List (List Nat × JsonValue)}
      {key text others : Text} (named : SpellsLoosely (.text name) key)
      (spelled : SpellsLoosely value text) (rest : SpellsFields fields others) :
      SpellsFields ((name, value) :: fields) (key ++ ":" ++ text ++ "," ++ others)

end

end JsonValue

/-- A text that as a whole is one value in the notation. -/
def Text.IsJson (text : Text) : Prop := ∃ value, JsonValue.SpellsLoosely value text

namespace Json

mutual

/-- What a value says. -/
def denotes : Json → JsonValue
  | .number value => .number value
  | .text content => .text (content.flatMap CodePoint.units)
  | .list items => .list (itemsDenote items)
  | .object fields => .object (fieldsDenote fields)

def itemsDenote : List Json → List JsonValue
  | [] => []
  | item :: rest => item.denotes :: itemsDenote rest

def fieldsDenote : List (Text × Json) → List (List Nat × JsonValue)
  | [] => []
  | (name, value) :: rest => (name.flatMap CodePoint.units, value.denotes) :: fieldsDenote rest

end

mutual

def isUnicode : Json → Bool
  | .number _ => true
  | .text content => content.isUnicode
  | .list items => itemsAreUnicode items
  | .object fields => fieldsAreUnicode fields

def itemsAreUnicode : List Json → Bool
  | [] => true
  | item :: rest => item.isUnicode && itemsAreUnicode rest

def fieldsAreUnicode : List (Text × Json) → Bool
  | [] => true
  | (name, value) :: rest => name.isUnicode && value.isUnicode && fieldsAreUnicode rest

end

end Json

namespace JsonValue

variable {units : List Nat} {text : Text}

/-! Characters within quotes. -/

theorem plain_of_isHexDigit {point : Nat} (hexadecimal : CodePoint.isHexDigit point = true) :
    0x20 ≤ point ∧ point < 0x110000 ∧ point ≠ '"'.toNat ∧ point ≠ '\\'.toNat := by
  have ranges : (48 ≤ point ∧ point ≤ 57) ∨ (97 ≤ point ∧ point ≤ 102) ∨
      (65 ≤ point ∧ point ≤ 70) := by
    simpa [CodePoint.isHexDigit, CodePoint.isAsciiDigit, or_assoc] using hexadecimal
  have quote : '"'.toNat = 34 := rfl
  have backslash : '\\'.toNat = 92 := rfl
  omega

theorem spellsUnits_hexDigits {digits : Text}
    (hexadecimal : ∀ digit ∈ digits, digit.isHexDigit = true) (rest : SpellsUnits units text) :
    ∃ more, SpellsUnits more (digits ++ text) := by
  induction digits with
  | nil => exact ⟨units, rest⟩
  | cons digit digits ih =>
      obtain ⟨first, others⟩ := List.forall_mem_cons.mp hexadecimal
      obtain ⟨printed, inRange, unquoted, bare⟩ := plain_of_isHexDigit first
      obtain ⟨more, spelled⟩ := ih others
      exact ⟨_, .plain printed inRange unquoted bare spelled⟩

/-- A number that is no unit has more than four digits, which are then read as characters. -/
theorem spellsUnits_unitEscape (number : Nat) (rest : SpellsUnits units text) :
    ∃ more, SpellsUnits more (Json.unitEscape number ++ text) ∧
      (number < 0x10000 → more = number :: units) := by
  have written : Json.unitEscape number ++ text =
      '\\'.toNat :: 'u'.toNat :: (Text.hexadecimal 4 number ++ text) := rfl
  have hexadecimal : ∀ digit ∈ Text.hexadecimal 4 number, digit.isHexDigit = true :=
    fun _ member => Text.isHexDigit_of_mem_hexadecimal member
  rw [written]
  by_cases isUnit : number < 0x10000
  · have four : (Text.hexadecimal 4 number).length = 4 := Text.length_hexadecimal isUnit
    have spelled := SpellsUnits.numbered four hexadecimal rest
    rw [Text.numeral_hexadecimal] at spelled
    exact ⟨_, spelled, fun _ => rfl⟩
  · obtain ⟨further, spelled⟩ := spellsUnits_hexDigits
      (fun digit member => hexadecimal digit (List.mem_of_mem_drop member)) rest
    have four : ((Text.hexadecimal 4 number).take 4).length = 4 :=
      List.length_take_of_le (Text.le_length_hexadecimal 4 number)
    have whole := SpellsUnits.numbered four
      (fun digit member => hexadecimal digit (List.mem_of_mem_take member)) spelled
    rw [← List.append_assoc, List.take_append_drop] at whole
    exact ⟨_, whole, fun small => absurd small isUnit⟩

theorem spellsUnits_short {point unit : Nat} (letter : CodePoint) (same : point = unit)
    (known : (letter, unit) ∈ shortEscapes) (rest : SpellsUnits units text) :
    ∃ more, SpellsUnits more (['\\'.toNat, letter] ++ text) ∧
      (point < 0x110000 → more = CodePoint.units point ++ units) := by
  have single : ∀ entry ∈ shortEscapes, CodePoint.units entry.2 = [entry.2] := by decide
  refine ⟨unit :: units, .short known rest, fun _ => ?_⟩
  rw [same, single _ known]
  rfl

theorem spellsUnits_escape (point : Nat) (rest : SpellsUnits units text) :
    ∃ more, SpellsUnits more (Json.escape point ++ text) ∧
      (point < 0x110000 → more = CodePoint.units point ++ units) := by
  unfold Json.escape
  split_ifs with quote backslash feed carriage tab back form printed single
  · exact spellsUnits_short '"' quote (by decide) rest
  · exact spellsUnits_short '\\' backslash (by decide) rest
  · exact spellsUnits_short 'n' feed (by decide) rest
  · exact spellsUnits_short 'r' carriage (by decide) rest
  · exact spellsUnits_short 't' tab (by decide) rest
  · exact spellsUnits_short 'b' back (by decide) rest
  · exact spellsUnits_short 'f' form (by decide) rest
  · simp only [Bool.and_eq_true, decide_eq_true_eq] at printed
    have inRange : point < 0x110000 := Nat.lt_trans printed.2 (by decide)
    exact ⟨_, .plain printed.1 inRange quote backslash rest, fun _ => rfl⟩
  · obtain ⟨more, spelled, same⟩ := spellsUnits_unitEscape point rest
    refine ⟨more, spelled, fun _ => ?_⟩
    rw [same single, CodePoint.units, if_pos single]
    rfl
  · -- The second half of the pair stands first in the derivation, since units are read from the end.
    obtain ⟨low, spelledLow, sameLow⟩ :=
      spellsUnits_unitEscape (0xDC00 + (point - 0x10000) % 0x400) rest
    obtain ⟨both, spelled, same⟩ :=
      spellsUnits_unitEscape (0xD800 + (point - 0x10000) / 0x400) spelledLow
    refine ⟨both, ?_, fun inRange => ?_⟩
    · rw [List.append_assoc]
      exact spelled
    · rw [same (by omega), sameLow (by omega), CodePoint.units, if_neg single]
      rfl

theorem spellsUnits_content (content : Text) :
    ∃ units, SpellsUnits units (content.flatMap Json.escape) ∧
      (content.isUnicode = true → units = content.flatMap CodePoint.units) := by
  induction content with
  | nil => exact ⟨[], .nil, fun _ => rfl⟩
  | cons point rest ih =>
      obtain ⟨units, spelled, same⟩ := ih
      obtain ⟨more, escaped, sameFirst⟩ := spellsUnits_escape point spelled
      refine ⟨more, escaped, fun unicode => ?_⟩
      obtain ⟨inRange, others⟩ := Bool.and_eq_true_iff.mp unicode
      rw [sameFirst (of_decide_eq_true inRange), same others]
      rfl

theorem spells_quote (content : Text) :
    ∃ units, Spells (.text units) (Json.quote content) ∧
      (content.isUnicode = true → units = content.flatMap CodePoint.units) := by
  obtain ⟨units, spelled, same⟩ := spellsUnits_content content
  exact ⟨units, .text spelled, same⟩

/-! Numbers. -/

theorem isWhole_ofNat (number : Nat) : IsWhole (Text.ofNat number) := by
  refine ⟨⟨Text.ofNat_ne_nil number, fun _ => Text.isAsciiDigit_of_mem_ofNat⟩, fun zero => ?_⟩
  rw [Text.eq_zero_of_head?_ofNat zero]
  decide

theorem spellsNumber_ofInt (value : Int) : SpellsNumber value (Text.ofInt value) := by
  have magnitude : ∀ number : Nat, SpellsMagnitude number (Text.ofNat number) := by
    intro number
    have spelled := SpellsMagnitude.whole (isWhole_ofNat number)
    rwa [Text.decimalValue_ofNat] at spelled
  cases value with
  | ofNat number =>
      have spelled := SpellsNumber.positive (magnitude number) .none
      rwa [Rat.zpow_zero, Rat.mul_one, List.append_nil] at spelled
  | negSucc number =>
      have spelled := SpellsNumber.negative (magnitude (number + 1)) .none
      rwa [Rat.zpow_zero, Rat.mul_one, List.append_nil] at spelled

/-! Rendered values. What is not of Unicode is still in the notation, but stands for something else. -/

theorem isGap_nil : IsGap [] := List.forall_mem_nil _

theorem isGap_lineBreak (level : Nat) : IsGap (Json.lineBreak level) := by
  intro point member
  rcases List.mem_append.mp member with feed | indent
  · rw [List.mem_singleton.mp feed]
    decide
  · rw [List.eq_of_mem_replicate indent]
    decide

theorem spellsLoosely_lineBreak {value : JsonValue} (level : Nat) (spelled : Spells value text) :
    SpellsLoosely value (Json.lineBreak level ++ text) := by
  have loose := SpellsLoosely.between (isGap_lineBreak level) spelled isGap_nil
  rwa [List.append_nil] at loose

theorem colon : Text.ofString ": " = Text.ofString ":" ++ Text.ofString " " := rfl

theorem spellsLoosely_blank {value : JsonValue} {gap : Text} (spelled : Spells value text)
    (blank : IsGap gap) : SpellsLoosely value (" " ++ text ++ gap) :=
  .between (List.forall_mem_singleton.mpr (by decide)) spelled blank

mutual

theorem spells_render (level : Nat) : ∀ json : Json,
    ∃ value, Spells value (json.render level) ∧ (json.isUnicode = true → value = json.denotes)
  | .number value => ⟨.number value, .number (spellsNumber_ofInt value), fun _ => rfl⟩
  | .text content => by
      obtain ⟨units, spelled, same⟩ := spells_quote content
      exact ⟨.text units, spelled, fun unicode => congrArg JsonValue.text (same unicode)⟩
  | .list [] => ⟨.list [], .noItems isGap_nil, fun _ => rfl⟩
  | .list (item :: rest) => by
      obtain ⟨values, spelled, same⟩ :=
        spells_renderItems (level + 1) (isGap_lineBreak level) (item :: rest) (List.cons_ne_nil _ _)
      refine ⟨.list values, ?_, fun unicode => congrArg JsonValue.list (same unicode)⟩
      rw [Json.render, List.append_assoc (Text.ofString "[")]
      exact .list spelled
  | .object [] => ⟨.object [], .noFields isGap_nil, fun _ => rfl⟩
  | .object (field :: rest) => by
      obtain ⟨fields, spelled, same⟩ :=
        spells_renderFields (level + 1) (isGap_lineBreak level) (field :: rest)
          (List.cons_ne_nil _ _)
      refine ⟨.object fields, ?_, fun unicode => congrArg JsonValue.object (same unicode)⟩
      rw [Json.render, List.append_assoc (Text.ofString "\x7b")]
      exact .object spelled

theorem spells_renderItems (level : Nat) {gap : Text} (blank : IsGap gap) : ∀ items ≠ [],
    ∃ values, SpellsItems values (Json.renderItems level items ++ gap) ∧
      (Json.itemsAreUnicode items = true → values = Json.itemsDenote items)
  | [], given => absurd rfl given
  | [item], _ => by
      obtain ⟨value, spelled, same⟩ := spells_render level item
      refine ⟨[value], .last (.between (isGap_lineBreak level) spelled blank), fun unicode => ?_⟩
      rw [same (Bool.and_eq_true_iff.mp unicode).1]
      rfl
  | item :: next :: rest, _ => by
      obtain ⟨value, spelled, same⟩ := spells_render level item
      obtain ⟨values, spelledRest, sameRest⟩ :=
        spells_renderItems level blank (next :: rest) (List.cons_ne_nil _ _)
      refine ⟨value :: values, ?_, fun unicode => ?_⟩
      · rw [Json.renderItems, List.append_assoc _ _ gap]
        · exact .cons (spellsLoosely_lineBreak level spelled) spelledRest
        · exact List.cons_ne_nil _ _
      · obtain ⟨here, later⟩ := Bool.and_eq_true_iff.mp unicode
        rw [same here, sameRest later]
        rfl

theorem spells_renderFields (level : Nat) {gap : Text} (blank : IsGap gap) : ∀ fields ≠ [],
    ∃ values, SpellsFields values (Json.renderFields level fields ++ gap) ∧
      (Json.fieldsAreUnicode fields = true → values = Json.fieldsDenote fields)
  | [], given => absurd rfl given
  | [(name, json)], _ => by
      obtain ⟨units, named, sameName⟩ := spells_quote name
      obtain ⟨value, spelled, same⟩ := spells_render level json
      refine ⟨[(units, value)], ?_, fun unicode => ?_⟩
      · have field := SpellsFields.last (spellsLoosely_lineBreak level named)
          (spellsLoosely_blank spelled blank)
        simpa [Json.renderFields, colon] using field
      · obtain ⟨ofName, ofValue⟩ := Bool.and_eq_true_iff.mp (Bool.and_eq_true_iff.mp unicode).1
        rw [sameName ofName, same ofValue]
        rfl
  | (name, json) :: next :: rest, _ => by
      obtain ⟨units, named, sameName⟩ := spells_quote name
      obtain ⟨value, spelled, same⟩ := spells_render level json
      obtain ⟨fields, spelledRest, sameRest⟩ :=
        spells_renderFields level blank (next :: rest) (List.cons_ne_nil _ _)
      refine ⟨(units, value) :: fields, ?_, fun unicode => ?_⟩
      · have field := SpellsFields.cons (spellsLoosely_lineBreak level named)
          (spellsLoosely_blank spelled isGap_nil) spelledRest
        simpa [Json.renderFields, colon] using field
      · obtain ⟨here, later⟩ := Bool.and_eq_true_iff.mp unicode
        obtain ⟨ofName, ofValue⟩ := Bool.and_eq_true_iff.mp here
        rw [sameName ofName, same ofValue, sameRest later]
        rfl

end

end JsonValue

open JsonValue

/-- All that is written is in the notation, also with gaps behind it. -/
theorem Json.spells_toText (json : Json) {gap : Text} (blank : IsGap gap) :
    ∃ value, SpellsLoosely value (json.toText ++ gap) ∧
      (json.isUnicode = true → value = json.denotes) := by
  obtain ⟨value, spelled, same⟩ := spells_render 0 json
  exact ⟨value, .between isGap_nil spelled blank, same⟩

namespace JsonValue

def starts : Text := "-0123456789\"[\x7bntf"

theorem mem_starts_of_digit {point : CodePoint} (digit : point.isAsciiDigit = true) :
    point ∈ starts := by
  have all : ∀ point < 0x80, CodePoint.isAsciiDigit point = true → point ∈ starts := by
    decide +kernel
  exact all point (CodePoint.lt_of_isAsciiDigit digit) digit

theorem exists_start_of_digits {digits : Text} (sound : IsDigits digits) (after : Text) :
    ∃ first ∈ starts, ∃ rest, digits ++ after = first :: rest := by
  obtain ⟨nonempty, all⟩ := sound
  obtain ⟨first, rest, rfl⟩ := List.exists_cons_of_ne_nil nonempty
  exact ⟨first, mem_starts_of_digit (all first List.mem_cons_self), rest ++ after, rfl⟩

theorem exists_start {value : JsonValue} {text : Text} (spelled : Spells value text) :
    ∃ first ∈ starts, ∃ rest, text = first :: rest := by
  cases spelled with
  | null | true | false => exact ⟨_, by decide, _, rfl⟩
  | number spelled =>
      cases spelled with
      | positive magnitude =>
          cases magnitude with
          | whole sound => exact exists_start_of_digits sound.1 _
          | fraction sound =>
              rw [List.append_assoc]
              exact exists_start_of_digits sound.1 _
      | negative => exact ⟨'-', by decide, _, rfl⟩
  | text => exact ⟨'"', by decide, _, rfl⟩
  | noItems | list => exact ⟨'[', by decide, _, rfl⟩
  | noFields | object => exact ⟨'\x7b', by decide, _, rfl⟩

end JsonValue

theorem Text.IsJson.exists_start {text : Text} (json : text.IsJson) :
    ∃ first, (first ∈ blanks ∨ first ∈ starts) ∧ ∃ rest, text = first :: rest := by
  obtain ⟨value, ⟨gapBefore, spelled, -⟩⟩ := json
  rename_i before text after
  cases before with
  | nil =>
      obtain ⟨first, known, rest, rfl⟩ := JsonValue.exists_start spelled
      exact ⟨first, .inr known, rest ++ after, rfl⟩
  | cons first rest =>
      exact ⟨first, .inl (gapBefore first List.mem_cons_self), rest ++ text ++ after, rfl⟩

end QueryOptions
