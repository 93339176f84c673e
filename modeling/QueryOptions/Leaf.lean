import QueryOptions.Text.Base64
import QueryOptions.Text.Utf8
import QueryOptions.Value.Written

/-!
Scalar options: which values a leaf type accepts, and the wire text of a value.
-/

namespace QueryOptions

/-- Writes the bytes of a blob as text. -/
abbrev BlobCodec := Bytes → Text

namespace LeafType

def name : LeafType → Text
  | .string => "string"
  | .integer => "integer"
  | .boolean => "boolean"
  | .blob => "blob"
  | .timestamp => "timestamp"

end LeafType

namespace Value

/-- The bytes that a blob stands for: byte strings themselves, and texts in UTF-8. -/
def blob? : Value → Option Bytes
  | .bytes _ data => some data
  | value => value.text?.bind Text.utf8?

/-- Numbers of every kind count as integers, truth values do not. -/
def isInteger : Value → Bool
  | .int _ => true
  | .float _ => true
  | .decimal _ => true
  | .fraction _ _ => true
  | _ => false

end Value

namespace LeafType

/-- Timestamps are not checked: any value is accepted. -/
def accepts : LeafType → Value → Bool
  | .string, value => value.isText
  | .integer, value => value.isInteger
  | .boolean, .bool _ => true
  | .boolean, _ => false
  | .blob, value => value.blob?.isSome
  | .timestamp, _ => true

/-- The wire text of a value; a value that the leaf does not accept may have none. -/
def encode? (codec : BlobCodec) : LeafType → Value → Option Text
  | .boolean, .bool flag => some (if flag then "true" else "false")
  | .boolean, _ => none
  | .blob, value => value.blob?.map codec
  | _, value => some value.shown

end LeafType

end QueryOptions
