import QueryOptions.Text.Line
import QueryOptions.Text.Visible

/-!
Quoted texts and byte strings. A text stands between apostrophes, or between quotation marks when
it holds an apostrophe and no quotation mark. The quote in use, the backslash and everything
without a visible form are escaped.
-/

namespace QueryOptions

abbrev Bytes := List UInt8

namespace Text

def hexDigit (value : Nat) : CodePoint :=
  if value < 10 then value + '0'.toNat else value - 10 + 'a'.toNat

/-- Lower-case hexadecimal notation of at least `width` digits. -/
def hexadecimal (width number : Nat) : Text :=
  let plain := (digits 16 number).map hexDigit
  List.replicate (width - plain.length) '0'.toNat ++ plain

theorem isHexDigit_hexDigit {value : Nat} (small : value < 16) :
    CodePoint.isHexDigit (hexDigit value) = true := by
  have all : ∀ value < 16, CodePoint.isHexDigit (hexDigit value) = true := by decide
  exact all value small

theorem hexValue_hexDigit {value : Nat} (small : value < 16) :
    CodePoint.hexValue (hexDigit value) = value := by
  have all : ∀ value < 16, CodePoint.hexValue (hexDigit value) = value := by decide
  exact all value small

theorem hexadecimal_eq_map (width number : Nat) : ∃ zeros, hexadecimal width number =
    (List.replicate zeros 0 ++ digits 16 number).map hexDigit := by
  refine ⟨width - ((digits 16 number).map hexDigit).length, ?_⟩
  rw [List.map_append, List.map_replicate]
  rfl

theorem isHexDigit_of_mem_hexadecimal {width number : Nat} {point : CodePoint}
    (member : point ∈ hexadecimal width number) : point.isHexDigit = true := by
  obtain ⟨zeros, padded⟩ := hexadecimal_eq_map width number
  rw [padded] at member
  obtain ⟨digit, inside, rfl⟩ := List.mem_map.mp member
  refine isHexDigit_hexDigit ?_
  rcases List.mem_append.mp inside with zero | plain
  · rw [List.eq_of_mem_replicate zero]
    decide
  · exact lt_of_mem_digits (by decide) plain

theorem numeral_hexadecimal (width number : Nat) :
    numeral 16 ((hexadecimal width number).map CodePoint.hexValue) = number := by
  obtain ⟨zeros, padded⟩ := hexadecimal_eq_map width number
  have values : (List.replicate zeros 0 ++ digits 16 number).map
      (CodePoint.hexValue ∘ hexDigit) = List.replicate zeros 0 ++ digits 16 number := by
    refine (List.map_congr_left fun digit inside => ?_).trans (List.map_id _)
    rcases List.mem_append.mp inside with zero | plain
    · rw [List.eq_of_mem_replicate zero]
      rfl
    · exact hexValue_hexDigit (lt_of_mem_digits (by decide) plain)
  rw [padded, List.map_map, values, numeral_replicate_zero_append]
  exact numeral_digits (by decide) number

theorem le_length_hexadecimal (width number : Nat) : width ≤ (hexadecimal width number).length := by
  unfold hexadecimal
  rw [List.length_append, List.length_replicate]
  omega

theorem length_hexadecimal {width number : Nat} (bounded : number < Nat.pow 16 (width + 1)) :
    (hexadecimal (width + 1) number).length = width + 1 := by
  have short := length_digits_le bounded
  unfold hexadecimal
  rw [List.length_append, List.length_replicate, List.length_map]
  exact Nat.sub_add_cancel short

/-- The quote that needs fewer escapes; the apostrophe where both would need some. -/
def quoteFor (text : Text) : CodePoint :=
  if text.contains '\''.toNat && !text.contains '"'.toNat then '"' else '\''

private def escape (quote point : CodePoint) : Text :=
  if point = quote || point = '\\'.toNat then ['\\', point]
  else if point = '\t'.toNat then "\\t"
  else if point = '\n'.toNat then "\\n"
  else if point = '\r'.toNat then "\\r"
  else if point.isVisible then [point]
  else if point < 0x100 then "\\x" ++ hexadecimal 2 point
  else if point < 0x10000 then "\\u" ++ hexadecimal 4 point
  else "\\U" ++ hexadecimal 8 point

def quoted (text : Text) : Text :=
  let quote := quoteFor text
  quote :: text.flatMap (escape quote) ++ [quote]

theorem isLine_hexadecimal (width number : Nat) : IsLine (hexadecimal width number) :=
  fun inside => absurd (isHexDigit_of_mem_hexadecimal inside) (by decide)

private theorem quoteFor_ne (text : Text) : quoteFor text ≠ '\n'.toNat := by
  unfold quoteFor
  split <;> decide

private theorem isLine_escape {quote : CodePoint} (line : quote ≠ '\n'.toNat) (point : CodePoint) :
    IsLine (escape quote point) := by
  have escaped (letter : Text) (plain : IsLine letter) (width : Nat) :
      IsLine (letter ++ hexadecimal width point) :=
    isLine_append.mpr ⟨plain, isLine_hexadecimal _ _⟩
  unfold escape
  split
  · rename_i marked
    rcases Bool.or_eq_true_iff.mp marked with same | same <;>
      obtain rfl := of_decide_eq_true same
    · simpa using line
    · decide
  · split
    · decide
    · split
      · decide
      · rename_i other
        split
        · decide
        · split
          · simpa using other
          · split
            · exact escaped _ (by decide) 2
            · split
              · exact escaped _ (by decide) 4
              · exact escaped _ (by decide) 8

/-- Whatever a text holds, it is quoted on one line. -/
theorem isLine_quoted (text : Text) : IsLine (quoted text) := by
  have quote := quoteFor_ne text
  simp only [quoted, isLine_append, isLine_cons, isLine_flatMap, isLine_nil, and_true]
  exact ⟨⟨quote, fun point _ => isLine_escape quote point⟩, quote⟩

end Text

namespace Bytes

/-- A byte of a text in quotes; only ASCII is visible. `escaped` is the quote that is not to stand
there as it is. -/
private def escape (escaped byte : CodePoint) : Text :=
  if 128 ≤ byte then "\\x" ++ Text.hexadecimal 2 byte else Text.escape escaped byte

private def enclosed (escaped : CodePoint → CodePoint) (bytes : Bytes) : Text :=
  let text : Text := bytes.map UInt8.toNat
  let quote := Text.quoteFor text
  "b" ++ quote :: text.flatMap (escape (escaped quote)) ++ [quote]

/-- A byte string is quoted as the text of its bytes. -/
def quoted (bytes : Bytes) : Text := enclosed id bytes

/-- A byte string that can grow is quoted with apostrophes escaped in either quote. -/
def quotedGrowable (bytes : Bytes) : Text := enclosed (fun _ => '\'') bytes

private theorem isLine_enclosed {escaped : CodePoint → CodePoint}
    (plain : ∀ quote, quote ≠ '\n'.toNat → escaped quote ≠ '\n'.toNat) (bytes : Bytes) :
    Text.IsLine (enclosed escaped bytes) := by
  have quote := Text.quoteFor_ne (bytes.map UInt8.toNat)
  simp only [enclosed, Text.isLine_append, Text.isLine_cons, Text.isLine_flatMap,
    Text.isLine_nil, and_true]
  refine ⟨⟨by decide, quote, fun byte _ => ?_⟩, quote⟩
  unfold escape
  split
  · exact Text.isLine_append.mpr ⟨by decide, Text.isLine_hexadecimal _ _⟩
  · exact Text.isLine_escape (plain _ quote) byte

theorem isLine_quoted (bytes : Bytes) : Text.IsLine bytes.quoted := isLine_enclosed (fun _ => id) bytes

theorem isLine_quotedGrowable (bytes : Bytes) : Text.IsLine bytes.quotedGrowable :=
  isLine_enclosed (fun _ _ => by decide) bytes

/-- Two lower-case hexadecimal digits a byte. -/
def hex (bytes : Bytes) : Text := bytes.flatMap fun byte => Text.hexadecimal 2 byte.toNat

end Bytes

end QueryOptions
