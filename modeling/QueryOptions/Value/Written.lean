import QueryOptions.Number.Shortest
import QueryOptions.Value.Basic

/-!
The written form of values, in which messages cite them: texts stand quoted, collections with the
brackets of their type. `Value.shown` is the plain form, in which a text stands for itself.
-/

namespace QueryOptions.Value

/-- Items with commas between them. -/
def commaSeparated (items : List Text) : Text := Text.join ", " items

private def enclosed (opening : Text) (items : List Text) (closing : Text) : Text :=
  opening ++ commaSeparated items ++ closing

private def numbers (values : List Nat) : List Text := values.map Text.ofNat

/-- An offset from universal time in days and seconds. -/
private def writtenOffset (minutes : Int) : Text :=
  if minutes = 0 then "datetime.timezone.utc"
  else
    let days := minutes.fdiv 1440
    let seconds := minutes.fmod 1440 * 60
    let dayPart : List Text := if days = 0 then [] else ["days=" ++ Text.ofInt days]
    let secondPart : List Text := if seconds = 0 then [] else ["seconds=" ++ Text.ofInt seconds]
    "datetime.timezone(datetime.timedelta(" ++ commaSeparated (dayPart ++ secondPart) ++ "))"

private def writtenMoment (moment : Moment) : Text :=
  let date := moment.date
  let whole := numbers [date.year, date.month, date.day, moment.hour, moment.minute]
  let rest :=
    if moment.microsecond ≠ 0 then numbers [moment.second, moment.microsecond]
    else if moment.second ≠ 0 then numbers [moment.second]
    else []
  let zone : List Text :=
    match moment.offset with
    | none => []
    | some minutes => ["tzinfo=" ++ writtenOffset minutes]
  enclosed "datetime.datetime(" (whole ++ rest ++ zone) ")"

mutual

def written : Value → Text
  | .null => "None"
  | .bool true => "True"
  | .bool false => "False"
  | .int number => Text.ofInt number
  | .float number => number.toText
  | .decimal digits => "Decimal('" ++ digits ++ "')"
  | .fraction numerator denominator =>
      enclosed "Fraction(" [Text.ofInt numerator, Text.ofNat denominator] ")"
  | .text content => content.quoted
  | .kind named => "<" ++ named.symbol ++ ": " ++ named.name.quoted ++ ">"
  | .bytes .fixed data => Bytes.quoted data
  | .bytes .growable data => "bytearray(" ++ Bytes.quotedGrowable data ++ ")"
  | .bytes .view _ => "<memory>"
  | .list items => enclosed "[" (writtenItems items) "]"
  | .tuple [item] => "(" ++ item.written ++ ",)"
  | .tuple items => enclosed "(" (writtenItems items) ")"
  | .set false [] => "set()"
  | .set false items => enclosed "\x7b" (writtenItems items) "\x7d"
  | .set true [] => "frozenset()"
  | .set true items => enclosed "frozenset(\x7b" (writtenItems items) "\x7d)"
  | .map entries => enclosed "\x7b" (writtenEntries entries) "\x7d"
  | .range start stop step =>
      let ends := [Text.ofInt start, Text.ofInt stop]
      enclosed "range(" (if step = 1 then ends else ends ++ [Text.ofInt step]) ")"
  | .once _ => "<list_iterator object>"
  | .date day => enclosed "datetime.date(" (numbers [day.year, day.month, day.day]) ")"
  | .moment time => writtenMoment time

def writtenItems : List Value → List Text
  | [] => []
  | item :: rest => item.written :: writtenItems rest

def writtenEntries : List (Value × Value) → List Text
  | [] => []
  | (key, value) :: rest => (key.written ++ ": " ++ value.written) :: writtenEntries rest

end

def shown : Value → Text
  | .text content => content
  | .kind named => named.symbol
  | .decimal digits => digits
  | .fraction numerator denominator =>
      if denominator = 1 then Text.ofInt numerator
      else Text.ofInt numerator ++ "/" ++ Text.ofNat denominator
  | .date day => day.toText
  | .moment time => time.toText
  | value => value.written

/-! Values are written on one line, as long as no text in them that is not quoted has a second
one. -/

mutual

/-- The texts in a value, keys included, at any depth. The digits of a decimal count as one. -/
def texts : Value → List Text
  | .text content => [content]
  | .decimal digits => [digits]
  | .list items => textsOfAll items
  | .tuple items => textsOfAll items
  | .set _ items => textsOfAll items
  | .once items => textsOfAll items
  | .map entries => textsOfEntries entries
  | _ => []

def textsOfAll : List Value → List Text
  | [] => []
  | item :: rest => item.texts ++ textsOfAll rest

def textsOfEntries : List (Value × Value) → List Text
  | [] => []
  | (key, value) :: rest => key.texts ++ value.texts ++ textsOfEntries rest

end

/-- Every text in the value stands on one line. -/
def Lined (value : Value) : Prop := ∀ text ∈ value.texts, Text.IsLine text

instance (value : Value) : Decidable value.Lined :=
  inferInstanceAs (Decidable (∀ text ∈ value.texts, Text.IsLine text))

theorem mem_textsOfAll {text : Text} {items : List Value} :
    text ∈ textsOfAll items ↔ ∃ item ∈ items, text ∈ item.texts := by
  induction items with
  | nil => simp [textsOfAll]
  | cons item rest ih => simp [textsOfAll, ih]

theorem mem_textsOfEntries {text : Text} {entries : List (Value × Value)} :
    text ∈ textsOfEntries entries ↔
      ∃ entry ∈ entries, text ∈ entry.1.texts ∨ text ∈ entry.2.texts := by
  induction entries with
  | nil => simp [textsOfEntries]
  | cons entry rest ih => simp [textsOfEntries, ih, or_assoc]

theorem linedOfAll {items : List Value} :
    (∀ text ∈ textsOfAll items, Text.IsLine text) ↔ ∀ item ∈ items, item.Lined := by
  simp only [mem_textsOfAll, Lined]
  exact ⟨fun lines item inside text known => lines text ⟨item, inside, known⟩,
    fun lines text ⟨item, inside, known⟩ => lines item inside text known⟩

@[simp] theorem lined_text {content : Text} : (text content).Lined ↔ Text.IsLine content := by
  simp [Lined, texts]

@[simp] theorem lined_list {items : List Value} :
    (list items).Lined ↔ ∀ item ∈ items, item.Lined := linedOfAll

@[simp] theorem lined_tuple {items : List Value} :
    (tuple items).Lined ↔ ∀ item ∈ items, item.Lined := linedOfAll

@[simp] theorem lined_set {frozen : Bool} {items : List Value} :
    (set frozen items).Lined ↔ ∀ item ∈ items, item.Lined := linedOfAll

@[simp] theorem lined_once {items : List Value} :
    (once items).Lined ↔ ∀ item ∈ items, item.Lined := linedOfAll

@[simp] theorem lined_map {entries : List (Value × Value)} :
    (map entries).Lined ↔ ∀ entry ∈ entries, entry.1.Lined ∧ entry.2.Lined := by
  simp only [Lined, texts, mem_textsOfEntries]
  constructor
  · exact fun lines entry inside =>
      ⟨fun text known => lines text ⟨entry, inside, .inl known⟩,
        fun text known => lines text ⟨entry, inside, .inr known⟩⟩
  · rintro lines text ⟨entry, inside, known | known⟩
    · exact (lines entry inside).1 text known
    · exact (lines entry inside).2 text known

theorem isLine_commaSeparated {items : List Text} (lines : ∀ item ∈ items, Text.IsLine item) :
    Text.IsLine (commaSeparated items) := Text.isLine_join _ (by decide) lines

private theorem isLine_enclosed {opening closing : Text} {items : List Text}
    (first : Text.IsLine opening) (last : Text.IsLine closing)
    (lines : ∀ item ∈ items, Text.IsLine item) : Text.IsLine (enclosed opening items closing) :=
  Text.isLine_append.mpr ⟨Text.isLine_append.mpr ⟨first, isLine_commaSeparated lines⟩, last⟩

private theorem isLine_numbers (values : List Nat) : ∀ item ∈ numbers values, Text.IsLine item :=
  List.forall_mem_map.mpr fun value _ => Text.isLine_ofNat value

private theorem isLine_writtenOffset (minutes : Int) : Text.IsLine (writtenOffset minutes) := by
  unfold writtenOffset
  dsimp only
  split
  · decide
  · have days : Text.IsLine "days=" := by decide
    have seconds : Text.IsLine "seconds=" := by decide
    have parts := List.forall_mem_append.mpr
      ⟨Text.isLine_of_mem_labelled days (minutes.fdiv 1440),
        Text.isLine_of_mem_labelled seconds (minutes.fmod 1440 * 60)⟩
    exact isLine_enclosed (by decide) (by decide) parts

private theorem isLine_writtenMoment (moment : Moment) : Text.IsLine (writtenMoment moment) := by
  unfold writtenMoment
  dsimp only
  refine isLine_enclosed (by decide) (by decide) (List.forall_mem_append.mpr
    ⟨List.forall_mem_append.mpr ⟨isLine_numbers _, ?_⟩, ?_⟩)
  · split
    · exact isLine_numbers _
    · split
      · exact isLine_numbers _
      · exact nofun
  · split
    · exact nofun
    · exact List.forall_mem_singleton.mpr
        (Text.isLine_append.mpr ⟨by decide, isLine_writtenOffset _⟩)

mutual

theorem isLine_written : ∀ value : Value, value.Lined → Text.IsLine value.written
  | .null, _ => by decide
  | .bool true, _ => by decide
  | .bool false, _ => by decide
  | .int number, _ => Text.isLine_ofInt number
  | .float number, _ => number.isLine_toText
  | .decimal digits, lined => by
      have line : Text.IsLine digits := lined digits (List.mem_singleton_self _)
      simp only [written, Text.isLine_append, line, and_true]
      decide
  | .fraction numerator denominator, _ =>
      isLine_enclosed (by decide) (by decide) (by simp)
  | .text content, _ => Text.isLine_quoted content
  | .kind named, _ => by
      simp only [written, Text.isLine_append, named.isLine_symbol, Text.isLine_quoted, and_true]
      decide
  | .bytes .fixed data, _ => Bytes.isLine_quoted data
  | .bytes .growable data, _ => by
      simp only [written, Text.isLine_append, Bytes.isLine_quotedGrowable, and_true]
      decide
  | .bytes .view _, _ => by
      rw [written]
      decide
  | .list items, lined => by
      rw [written]
      exact isLine_enclosed (by decide) (by decide) (isLine_writtenItems items (lined_list.mp lined))
  | .tuple [], _ => by decide
  | .tuple [item], lined => by
      have line := isLine_written item (lined_tuple.mp lined item (List.mem_singleton_self _))
      simp only [written, Text.isLine_append, line, and_true]
      decide
  | .tuple (first :: second :: rest), lined => by
      rw [written]
      · exact isLine_enclosed (by decide) (by decide)
          (isLine_writtenItems (first :: second :: rest) (lined_tuple.mp lined))
      · exact nofun
  | .set false [], _ => by decide
  | .set true [], _ => by decide
  | .set false (first :: rest), lined => by
      rw [written]
      · exact isLine_enclosed (by decide) (by decide)
          (isLine_writtenItems (first :: rest) (lined_set.mp lined))
      · exact nofun
  | .set true (first :: rest), lined => by
      rw [written]
      · exact isLine_enclosed (by decide) (by decide)
          (isLine_writtenItems (first :: rest) (lined_set.mp lined))
      · exact nofun
  | .map entries, lined => by
      rw [written]
      exact isLine_enclosed (by decide) (by decide)
        (isLine_writtenEntries entries (lined_map.mp lined))
  | .range start stop step, _ => by
      rw [written]
      refine isLine_enclosed (by decide) (by decide) ?_
      split <;> simp
  | .once _, _ => by
      rw [written]
      decide
  | .date day, _ => isLine_enclosed (by decide) (by decide) (isLine_numbers _)
  | .moment time, _ => isLine_writtenMoment time

theorem isLine_writtenItems : ∀ items : List Value, (∀ item ∈ items, item.Lined) →
    ∀ text ∈ writtenItems items, Text.IsLine text
  | [], _ => nofun
  | item :: rest, lined => by
      obtain ⟨here, later⟩ := List.forall_mem_cons.mp lined
      rw [writtenItems]
      exact List.forall_mem_cons.mpr ⟨isLine_written item here, isLine_writtenItems rest later⟩

theorem isLine_writtenEntries : ∀ entries : List (Value × Value),
    (∀ entry ∈ entries, entry.1.Lined ∧ entry.2.Lined) →
    ∀ text ∈ writtenEntries entries, Text.IsLine text
  | [], _ => nofun
  | (key, value) :: rest, lined => by
      obtain ⟨⟨keyed, valued⟩, later⟩ := List.forall_mem_cons.mp lined
      rw [writtenEntries]
      refine List.forall_mem_cons.mpr ⟨?_, isLine_writtenEntries rest later⟩
      simp only [Text.isLine_append, isLine_written key keyed, isLine_written value valued, and_true,
        true_and]
      decide

end

theorem isLine_shown (value : Value) (lined : value.Lined) : Text.IsLine value.shown := by
  cases value with
  | text content => exact lined_text.mp lined
  | kind named => exact named.isLine_symbol
  | decimal digits => exact lined digits (List.mem_singleton_self _)
  | fraction numerator denominator =>
      unfold shown
      dsimp only
      split
      · exact Text.isLine_ofInt _
      · simp only [Text.isLine_append, Text.isLine_ofInt, Text.isLine_ofNat, and_true, true_and]
        decide
  | date day => exact day.isLine_toText
  | moment time => exact time.isLine_toText
  | _ => exact isLine_written _ lined

theorem isLine_typeName (value : Value) : Text.IsLine value.typeName := by
  unfold typeName
  split <;> decide

theorem isLine_qualifiedTypeName (value : Value) : Text.IsLine value.qualifiedTypeName := by
  unfold qualifiedTypeName
  split
  · decide
  · decide
  · decide
  · exact isLine_typeName _

end QueryOptions.Value
