import QueryOptions.Text.Base64
import QueryOptions.Text.LowerCase
import QueryOptions.Value.Written
import QueryOptions.Yaml.Node.Compose

/-!
The value of a document. Scalars become values by their tags, sequences become lists, mappings keep
the order of their entries, with the entries that they merge in before their own.

Of several faults the one in the shallowest collection counts, and among equally deep ones the first
in the document: collections are filled level by level.
-/

namespace QueryOptions.Yaml

/-! ## Scalars -/

private def withoutUnderscores (text : Text) : Text := text.filter (· ≠ '_'.toNat)

/-- Sign and rest of a number. -/
private def splitSign : Text → Bool × Text
  | [] => (false, [])
  | point :: rest =>
      if point = '-'.toNat then (true, rest)
      else if point = '+'.toNat then (false, rest)
      else (false, point :: rest)

/-- A digit of any script as the ASCII digit of its value. -/
private def withAsciiDigit (point : CodePoint) : CodePoint :=
  match point.digitValue? with
  | some value => value + '0'.toNat
  | none => point

private def digitOf? (base : Nat) (point : CodePoint) : Option Nat :=
  let value? :=
    if point.isAsciiDigit || point.isAsciiLetter then some (CodePoint.hexValue point.asciiLower)
    else none
  value?.filter (· < base)

/-- The letter that may stand before the digits of a base, after a zero. -/
private def baseLetter? (base : Nat) : Option CodePoint :=
  if base = 2 then some 'b' else if base = 8 then some 'o' else if base = 16 then some 'x' else none

private def withoutBaseLetter (base : Nat) (text : Text) : Text :=
  match baseLetter? base, text with
  | some letter, first :: mark :: rest =>
      if first = '0'.toNat && mark.asciiLower = letter then rest else text
  | _, _ => text

/-- A whole number in a base: blanks around it, a sign, the mark of the base, digits. -/
private def wholeNumber (base : Nat) (text : Text) : Except Error Int :=
  let (negative, body) := splitSign (text.trimNumberBlanks.map withAsciiDigit)
  let digits := withoutBaseLetter base body
  match digits.mapM (digitOf? base) with
  | some values =>
      if values.isEmpty then .error (.integer base text)
      else
        let size : Int := Text.numeral base values
        .ok (if negative then -size else size)
  | none => .error (.integer base text)

/-- The number that places to the base sixty make, the first one the highest. -/
private def fromSixtieths (places : List Int) : Int :=
  places.foldl (fun number place => number * 60 + place) 0

/-- Whole numbers in the notations that documents know. -/
def readInt (text : Text) : Except Error Int := do
  let plain := withoutUnderscores text
  if plain.isEmpty then throw .emptyNumber
  let (negative, body) := splitSign plain
  let signed (size : Int) : Int := if negative then -size else size
  if body = Text.ofString "0" then return 0
  else if (Text.ofString "0b").isPrefixOf body then return signed (← wholeNumber 2 (body.drop 2))
  else if (Text.ofString "0x").isPrefixOf body then return signed (← wholeNumber 16 (body.drop 2))
  else if body.isEmpty then throw .emptyNumber
  else if body.head? = some '0'.toNat then return signed (← wholeNumber 8 body)
  else if body.elem ':'.toNat then
    return signed (fromSixtieths (← (Text.split ':' body).mapM (wholeNumber 10)))
  else return signed (← wholeNumber 10 body)

private def decimalFraction (text : Text) : Except Error Binary64 :=
  match Binary64.ofText? text with
  | some number => .ok number
  | none => .error (.float text)

/-- The sum of places to the base sixty, from the lowest one up, each step rounded. -/
private def sumSixtieths : List Binary64 → Nat → Binary64 → Except Error Binary64
  | [], _, sum => .ok sum
  | place :: higher, base, sum =>
      match Binary64.ofNat? base with
      | some factor => sumSixtieths higher (base * 60) (sum.add (place.scale factor))
      | none => .error .overflow

def readFloat (text : Text) : Except Error Binary64 := do
  let plain := (withoutUnderscores text).lowerCase
  if plain.isEmpty then throw .emptyNumber
  let (negative, body) := splitSign plain
  let signed (size : Binary64) : Binary64 := if negative then size.negate else size
  if body = Text.ofString ".inf" then return signed (.infinite false)
  else if body = Text.ofString ".nan" then return .nan
  else if body.elem ':'.toNat then
    let places ← (Text.split ':' body).mapM decimalFraction
    return signed (← sumSixtieths places.reverse 1 .zero)
  else return signed (← decimalFraction body)

def readBool (text : Text) : Except Error Bool :=
  match boolWords.lookup text.lowerCase with
  | some flag => .ok flag
  | none => .error (.bool text.lowerCase)

def readTimestamp (text : Text) : Except Error Value :=
  match Timestamp.ofText? (Naming.withoutFinalLineFeed text) with
  | none => .error .timestamp
  | some parts =>
      match parts.read with
      | .ok (.inl date) => .ok (.date date)
      | .ok (.inr moment) => .ok (.moment moment)
      | .error error => .error (.calendar error)

def readBinary (text : Text) : Except Error Value :=
  if text.all (· < 128) then
    match Base64.decode? text with
    | some data => .ok (.bytes .fixed data)
    | none => .error .malformed
  else .error .malformed

/-- The value of a scalar by its tag; a tag that is not known for scalars has none. -/
def readScalar (tag text : Text) : Except Error Value :=
  if tag = Tag.string then .ok (.text text)
  else if tag = Tag.null then .ok .null
  else if tag = Tag.bool then (readBool text).map .bool
  else if tag = Tag.int then (readInt text).map .int
  else if tag = Tag.float then (readFloat text).map .float
  else if tag = Tag.timestamp then readTimestamp text
  else if tag = Tag.binary then readBinary text
  else .error .malformed

def collectionTags : List Text :=
  [Tag.sequence, Tag.mapping, Tag.set, Tag.orderedMap, Tag.pairs]

/-! ## Collections -/

/-- What is wrong in a document, and how deep. -/
structure Fault where
  depth : Nat
  error : Error

/-- A value, or the fault that counts. -/
abbrev Filled (α : Type) := Except Fault α

namespace Filled

/-- Both parts; of two faults the shallower one, else the first. -/
def both (left : Filled α) (right : Filled β) : Filled (α × β) :=
  match left, right with
  | .ok left, .ok right => .ok (left, right)
  | .error leftFault, .error rightFault =>
      .error (if rightFault.depth < leftFault.depth then rightFault else leftFault)
  | .error fault, .ok _ => .error fault
  | .ok _, .error fault => .error fault

def cons (first : Filled α) (rest : Filled (List α)) : Filled (List α) :=
  (both first rest).map fun (first, rest) => first :: rest

def append (left right : Filled (List α)) : Filled (List α) :=
  (both left right).map fun (left, right) => left ++ right

def malformed (depth : Nat) : Filled α := .error ⟨depth, .malformed⟩

def at_ (depth : Nat) (result : Except Error α) : Filled α :=
  result.mapError fun error => ⟨depth, error⟩

end Filled

def isMergeKey (key : Node) : Bool := key.tag = Tag.merge

mutual

/-- Whether the value of a merge key can be merged: a mapping or a list of mappings, as far down as
they merge in others. -/
def isMergeable : Node → Bool
  | .mapping _ entries _ => mergesSoundly entries
  | .sequence _ items _ => areMergeable items
  | .scalar _ _ _ => false

def areMergeable : List Node → Bool
  | [] => true
  | .mapping _ entries _ :: rest => mergesSoundly entries && areMergeable rest
  | _ :: _ => false

/-- Whether all that the entries of a mapping merge in can be merged. -/
def mergesSoundly : List (Node × Node) → Bool
  | [] => true
  | (key, value) :: rest => (!isMergeKey key || isMergeable value) && mergesSoundly rest

end

/-- The pairs that a mapping merges in, then its own. All merges are looked at before any value is
made. -/
def joinMerged (depth : Nat) (entries : List (Node × Node))
    (merged own : Filled (List (Value × Value))) : Filled (List (Value × Value)) :=
  if mergesSoundly entries then Filled.append merged own else Filled.malformed depth

/-- The text of a scalar, or of the default value of a mapping. -/
def scalarText? : Node → Option Text
  | .scalar _ text _ => some text
  | .sequence _ _ _ => none
  | .mapping _ entries _ => defaultText? entries
where
  defaultText? : List (Node × Node) → Option Text
    | [] => none
    | (key, value) :: rest => if key.tag = Tag.value then scalarText? value else defaultText? rest

/-- The value of a mapping that is tagged as a scalar: the one of its default. A point in time is
looked for in the mapping itself, which is no text. -/
def readDefault (tag : Text) (entries : List (Node × Node)) : Except Error Value :=
  match scalarText?.defaultText? entries with
  | some text => if tag = Tag.timestamp then .error .untextual else readScalar tag text
  | none => .error .malformed

/-- The tag by which a key is read. The default key is a string here. -/
def keyTag (key : Node) : Text := if key.tag = Tag.value then Tag.string else key.tag

/-- The key that a node makes; a collection that is not tagged as a scalar makes none. -/
def nodeKey (depth : Nat) (key : Node) : Filled Value :=
  Filled.at_ depth <|
    match key with
    | .scalar _ text _ => readScalar (keyTag key) text
    | .sequence _ _ _ => .error .malformed
    | .mapping _ entries _ => readDefault (keyTag key) entries

mutual

/-- The value of a node at a depth. -/
def Node.fill (depth : Nat) : Node → Filled Value
  | .scalar tag text _ =>
      if collectionTags.elem tag then Filled.malformed (depth + 1)
      else Filled.at_ depth (readScalar tag text)
  | .sequence tag items _ =>
      if tag = Tag.sequence then (fillItems (depth + 1) items).map .list
      else if tag = Tag.orderedMap || tag = Tag.pairs then
        (fillPairs (depth + 1) items).map .list
      else Filled.malformed (if collectionTags.elem tag then depth + 1 else depth)
  | .mapping tag entries _ =>
      if tag = Tag.mapping then
        let pairs := joinMerged (depth + 1) entries (fillMerged (depth + 1) entries)
          (fillOwn (depth + 1) entries)
        pairs.map fun pairs => .map (Entries.ofPairs pairs)
      else if tag = Tag.set then
        let pairs := joinMerged (depth + 1) entries (fillMerged (depth + 1) entries)
          (fillOwn (depth + 1) entries)
        pairs.map fun pairs => .set false ((Entries.ofPairs pairs).map (·.1))
      else if collectionTags.elem tag then Filled.malformed (depth + 1)
      else Filled.at_ depth (readDefault tag entries)

def fillItems (depth : Nat) : List Node → Filled (List Value)
  | [] => .ok []
  | item :: rest => Filled.cons (item.fill depth) (fillItems depth rest)

/-- The pairs of mappings of one entry each. -/
def fillPairs (depth : Nat) : List Node → Filled (List Value)
  | [] => .ok []
  | .mapping _ [(key, value)] _ :: rest =>
      let pair := (Filled.both (key.fill depth) (value.fill depth)).map fun (key, value) =>
        Value.tuple [key, value]
      Filled.cons pair (fillPairs depth rest)
  | _ :: _ => Filled.malformed depth

/-- The pairs of the entries that are no merges. -/
def fillOwn (depth : Nat) : List (Node × Node) → Filled (List (Value × Value))
  | [] => .ok []
  | (key, value) :: rest =>
      if isMergeKey key then fillOwn depth rest
      else Filled.cons (Filled.both (nodeKey depth key) (value.fill depth)) (fillOwn depth rest)

/-- The pairs that the merges of a mapping bring in. -/
def fillMerged (depth : Nat) : List (Node × Node) → Filled (List (Value × Value))
  | [] => .ok []
  | (key, value) :: rest =>
      if isMergeKey key then Filled.append (value.fillMerge depth) (fillMerged depth rest)
      else fillMerged depth rest

/-- The pairs of a merged mapping, or of several, the later ones first. -/
def Node.fillMerge (depth : Nat) : Node → Filled (List (Value × Value))
  | .mapping _ entries _ => Filled.append (fillMerged depth entries) (fillOwn depth entries)
  | .sequence _ items _ => fillMergeItems depth items
  | .scalar _ _ _ => Filled.malformed depth

def fillMergeItems (depth : Nat) : List Node → Filled (List (Value × Value))
  | [] => .ok []
  | item :: rest => Filled.append (fillMergeItems depth rest) (item.fillMerge depth)

end

/-- The value of a node. -/
def Node.value (node : Node) : Except Error Value :=
  (node.fill 0).mapError (·.error)

/-! ## Documents -/

/-- What a text holds: its value and where the parts of it stand. -/
structure Document where
  value : Value
  sources : SourceMap

namespace Document

/-- An empty document, or one whose value is null, counts as an empty mapping. -/
def ofText (text : Text) : Except Error Document := do
  match ← Node.ofText? text with
  | none => return ⟨.map [], []⟩
  | some root =>
      match ← root.value with
      | .null => return ⟨.map [], root.sourceMap⟩
      | value => return ⟨value, root.sourceMap⟩

/-- The source map of a text, empty if it has no node tree. -/
def sourcesOfText (text : Text) : SourceMap :=
  match Node.ofText? text with
  | .ok (some root) => root.sourceMap
  | _ => []

end Document

end QueryOptions.Yaml
