import QueryOptions.Calendar
import QueryOptions.Descriptor.Kind
import QueryOptions.Number.Binary64
import QueryOptions.Text.Quoted

/-!
Values as callers and documents supply them: scalars, collections and mappings that keep the order
of their entries. `==` on values says whether they count as the same key of a mapping: numbers
compare by amount, a descriptor kind is the text of its name, and moments compare by the instant.
-/

namespace QueryOptions

/-- Whether a byte string is fixed, can grow, or looks into another one. -/
inductive ByteForm where
  | fixed
  | growable
  | view
deriving DecidableEq, Repr

inductive Value where
  | null
  | bool (flag : Bool)
  | int (number : Int)
  | float (number : Binary64)
  /-- An arbitrary-precision decimal, held as its text. -/
  | decimal (digits : Text)
  /-- A fraction in lowest terms. -/
  | fraction (numerator : Int) (denominator : Nat)
  | text (content : Text)
  | kind (named : DescriptorKind)
  | bytes (form : ByteForm) (data : Bytes)
  | list (items : List Value)
  | tuple (items : List Value)
  | set (frozen : Bool) (items : List Value)
  | map (entries : List (Value × Value))
  | range (start stop step : Int)
  /-- Items that can be gone through once only. -/
  | once (items : List Value)
  | date (day : Date)
  | moment (time : Moment)

namespace Value

mutual

/-- The value with everything that counts as the same key brought to one form. -/
def keyForm : Value → Value
  | .bool flag => .int (if flag then 1 else 0)
  | .float number =>
      match number.int? with
      | some whole => .int whole
      | none => .float number
  | .fraction numerator 1 => .int numerator
  | .kind named => .text named.name
  | .tuple items => .tuple (keyForms items)
  | .set _ items => .set true (keyForms items)
  | value => value

def keyForms : List Value → List Value
  | [] => []
  | item :: rest => item.keyForm :: keyForms rest

end

mutual

/-- Equality of form, with no number or text taken for another; moments need only coincide. -/
def sameForm : Value → Value → Bool
  | .null, .null => true
  | .bool left, .bool right => left == right
  | .int left, .int right => left == right
  | .float left, .float right => left == right
  | .decimal left, .decimal right => left == right
  | .fraction leftAbove leftBelow, .fraction rightAbove rightBelow =>
      leftAbove == rightAbove && leftBelow == rightBelow
  | .text left, .text right => left == right
  | .kind left, .kind right => left == right
  | .bytes leftForm left, .bytes rightForm right => leftForm == rightForm && left == right
  | .list left, .list right => sameForms left right
  | .tuple left, .tuple right => sameForms left right
  | .set leftFrozen left, .set rightFrozen right =>
      leftFrozen == rightFrozen && sameForms left right
  | .map left, .map right => sameEntries left right
  | .range leftStart leftStop leftStep, .range rightStart rightStop rightStep =>
      leftStart == rightStart && leftStop == rightStop && leftStep == rightStep
  | .once left, .once right => sameForms left right
  | .date left, .date right => left == right
  | .moment left, .moment right => left.coincides right
  | _, _ => false

def sameForms : List Value → List Value → Bool
  | [], [] => true
  | left :: lefts, right :: rights => left.sameForm right && sameForms lefts rights
  | _, _ => false

def sameEntries : List (Value × Value) → List (Value × Value) → Bool
  | [], [] => true
  | (leftKey, left) :: lefts, (rightKey, right) :: rights =>
      leftKey.sameForm rightKey && left.sameForm right && sameEntries lefts rights
  | _, _ => false

end

instance : BEq Value := ⟨fun left right => left.keyForm.sameForm right.keyForm⟩

instance : Inhabited Value := ⟨.null⟩

/-- The name of a value's type in messages about the value. -/
def typeName : Value → Text
  | .null => "NoneType"
  | .bool _ => "bool"
  | .int _ => "int"
  | .float _ => "float"
  | .decimal _ => "Decimal"
  | .fraction _ _ => "Fraction"
  | .text _ => "str"
  | .kind _ => "DescriptorKind"
  | .bytes .fixed _ => "bytes"
  | .bytes .growable _ => "bytearray"
  | .bytes .view _ => "memoryview"
  | .list _ => "list"
  | .tuple _ => "tuple"
  | .set false _ => "set"
  | .set true _ => "frozenset"
  | .map _ => "dict"
  | .range _ _ _ => "range"
  | .once _ => "list_iterator"
  | .date _ => "date"
  | .moment _ => "datetime"

/-- The type's name where an operation on the value is refused; calendar and decimal types stand
there with their family. -/
def qualifiedTypeName : Value → Text
  | .decimal _ => "decimal.Decimal"
  | .date _ => "datetime.date"
  | .moment _ => "datetime.datetime"
  | value => value.typeName

/-- The text of a text or of a descriptor kind, which is a text too. -/
def text? : Value → Option Text
  | .text content => some content
  | .kind named => some named.name
  | _ => none

def isText (value : Value) : Bool := value.text?.isSome

/-- The number of items of a range. -/
def rangeLength (start stop step : Int) : Nat :=
  if 0 < step then ((stop - start + step - 1) / step).toNat
  else if step < 0 then ((start - stop - step - 1) / -step).toNat
  else 0

def rangeItems (start stop step : Int) : List Value :=
  (List.range (rangeLength start stop step)).map fun (index : Nat) => .int (start + index * step)

/-- The elements of a collection that can be gone through again and again; texts, byte strings and
mappings are not taken for one. -/
def elements? : Value → Option (List Value)
  | .list items => some items
  | .tuple items => some items
  | .set _ items => some items
  | .range start stop step => some (rangeItems start stop step)
  | _ => none

def isEnumerable (value : Value) : Bool := value.elements?.isSome

/-- The items met when a value is gone through once, whatever its type: characters of a text, bytes
of a byte string, keys of a mapping. Scalars cannot be gone through. -/
def items? : Value → Option (List Value)
  | .text content => some (content.map fun point => .text [point])
  | .kind named => some (named.name.map fun point => .text [point])
  | .bytes _ data => some (data.map fun byte => .int byte.toNat)
  | .map entries => some (entries.map (·.1))
  | .once items => some items
  | value => value.elements?

mutual

/-- The first part of a value, the value itself included, that cannot be a key. -/
def unhashablePart? : Value → Option Value
  | .list items => some (.list items)
  | .map entries => some (.map entries)
  | .set false items => some (.set false items)
  | .bytes .growable data => some (.bytes .growable data)
  | .tuple items => unhashableItem? items
  | _ => none

def unhashableItem? : List Value → Option Value
  | [] => none
  | item :: rest =>
      match item.unhashablePart? with
      | some part => some part
      | none => unhashableItem? rest

end

end Value

end QueryOptions
