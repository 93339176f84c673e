import QueryOptions.Text.Basic

/-!
Decimal digits of every script of Unicode 14. Each script has its ten digits side by side, zero
first, so that the places of the zeros say all.
-/

namespace QueryOptions.CodePoint

/-- The zeros of the scripts from 128 on. -/
private def zeros : List CodePoint := [
  0x660, 0x6F0, 0x7C0, 0x966, 0x9E6, 0xA66, 0xAE6, 0xB66, 0xBE6, 0xC66, 0xCE6, 0xD66, 0xDE6,
  0xE50, 0xED0, 0xF20, 0x1040, 0x1090, 0x17E0, 0x1810, 0x1946, 0x19D0, 0x1A80, 0x1A90, 0x1B50,
  0x1BB0, 0x1C40, 0x1C50, 0xA620, 0xA8D0, 0xA900, 0xA9D0, 0xA9F0, 0xAA50, 0xABF0, 0xFF10,
  0x104A0, 0x10D30, 0x11066, 0x110F0, 0x11136, 0x111D0, 0x112F0, 0x11450, 0x114D0, 0x11650,
  0x116C0, 0x11730, 0x118E0, 0x11950, 0x11C50, 0x11D50, 0x11DA0, 0x16A60, 0x16AC0, 0x16B50,
  0x1D7CE, 0x1D7D8, 0x1D7E2, 0x1D7EC, 0x1D7F6, 0x1E140, 0x1E2F0, 0x1E950, 0x1FBF0]

/-- The value of a decimal digit. -/
def digitValue? (point : CodePoint) : Option Nat :=
  if point < 128 then
    if isAsciiDigit point then some (point - '0'.toNat) else none
  else (zeros.find? fun start => start ≤ point && point < start + 10).map (point - ·)

def isDigit (point : CodePoint) : Bool := (digitValue? point).isSome

theorem lt_of_isAsciiDigit {point : CodePoint} (ascii : point.isAsciiDigit = true) :
    point < 0x80 := by
  obtain ⟨-, upper⟩ := Bool.and_eq_true_iff.mp ascii
  have nine : '9'.toNat < 0x80 := by decide
  exact Nat.lt_of_le_of_lt (of_decide_eq_true upper) nine

theorem pos_of_isAsciiDigit {point : CodePoint} (ascii : point.isAsciiDigit = true) : 0 < point := by
  obtain ⟨lower, -⟩ := Bool.and_eq_true_iff.mp ascii
  have zero : 0 < '0'.toNat := by decide
  exact Nat.lt_of_lt_of_le zero (of_decide_eq_true lower)

theorem isDigit_of_isAsciiDigit {point : CodePoint} (ascii : point.isAsciiDigit = true) :
    point.isDigit = true := by
  simp [isDigit, digitValue?, lt_of_isAsciiDigit ascii, ascii]

/-- The value of a hexadecimal digit, and zero for every other character. -/
def hexValue (point : CodePoint) : Nat :=
  if isAsciiDigit point then point - '0'.toNat
  else if isAsciiLower point then point - 'a'.toNat + 10
  else point - 'A'.toNat + 10

end QueryOptions.CodePoint

namespace QueryOptions.Text

/-- The number that digits stand for in a base, the most significant digit first. -/
def numeral (base : Nat) (digits : List Nat) : Nat :=
  digits.foldl (fun number digit => number * base + digit) 0

/-- Digits of a number, least significant first; `fuel` bounds their count. -/
private def digitsFrom (base : Nat) : Nat → Nat → List Nat
  | 0, _ => []
  | fuel + 1, number =>
      if number < base then [number]
      else number % base :: digitsFrom base fuel (number / base)

/-- The digits of a number in a base of at least two, most significant first, without leading
zeros. -/
def digits (base number : Nat) : List Nat := (digitsFrom base (number + 1) number).reverse

private theorem foldr_digitsFrom {base fuel number : Nat} (two : 2 ≤ base) (enough : number < fuel) :
    (digitsFrom base fuel number).foldr (fun digit value => value * base + digit) 0 = number := by
  induction fuel generalizing number with
  | zero => omega
  | succ fuel ih =>
      unfold digitsFrom
      split
      · simp
      · have smaller : number / base < number := Nat.div_lt_self (by omega) (by omega)
        rw [List.foldr_cons, ih (by omega), Nat.div_add_mod']

theorem numeral_digits {base : Nat} (two : 2 ≤ base) (number : Nat) :
    numeral base (digits base number) = number := by
  rw [numeral, digits, List.foldl_reverse]
  exact foldr_digitsFrom two (Nat.lt_succ_self number)

private theorem lt_of_mem_digitsFrom {base fuel number digit : Nat} (positive : 0 < base)
    (member : digit ∈ digitsFrom base fuel number) : digit < base := by
  induction fuel generalizing number with
  | zero => simp [digitsFrom] at member
  | succ fuel ih =>
      unfold digitsFrom at member
      split at member
      · rw [List.mem_singleton] at member
        omega
      · rcases List.mem_cons.mp member with rfl | later
        · exact Nat.mod_lt number positive
        · exact ih later

theorem lt_of_mem_digits {base number digit : Nat} (positive : 0 < base)
    (member : digit ∈ digits base number) : digit < base :=
  lt_of_mem_digitsFrom positive (List.mem_reverse.mp member)

theorem digits_ne_nil (base number : Nat) : digits base number ≠ [] := by
  rw [digits, Ne, List.reverse_eq_nil_iff, digitsFrom]
  split <;> exact List.cons_ne_nil _ _

private theorem length_digitsFrom_le {base fuel number width : Nat}
    (bounded : number < Nat.pow base (width + 1)) :
    (digitsFrom base fuel number).length ≤ width + 1 := by
  induction fuel generalizing number width with
  | zero => exact Nat.zero_le _
  | succ fuel ih =>
      unfold digitsFrom
      split
      · exact Nat.le_add_left 1 width
      · rename_i large
        cases width with
        | zero => exact absurd (Nat.one_mul base ▸ bounded) large
        | succ width =>
            have product : number < base * Nat.pow base (width + 1) := Nat.mul_comm _ _ ▸ bounded
            exact Nat.succ_le_succ (ih (Nat.div_lt_of_lt_mul product))

theorem length_digits_le {base number width : Nat} (bounded : number < Nat.pow base (width + 1)) :
    (digits base number).length ≤ width + 1 := by
  rw [digits, List.length_reverse]
  exact length_digitsFrom_le bounded

private theorem getLast?_digitsFrom {base fuel number : Nat} (two : 2 ≤ base)
    (enough : number < fuel) (zero : (digitsFrom base fuel number).getLast? = some 0) :
    number = 0 := by
  induction fuel generalizing number with
  | zero => omega
  | succ fuel ih =>
      unfold digitsFrom at zero
      split at zero
      · exact Option.some.inj zero
      · have smaller : number / base < number := Nat.div_lt_self (by omega) (by omega)
        have quotient : 0 < number / base := Nat.div_pos (by omega) (by omega)
        have nonempty : digitsFrom base fuel (number / base) ≠ [] := by
          obtain ⟨fuel, rfl⟩ : ∃ rest, fuel = rest + 1 := ⟨fuel - 1, by omega⟩
          rw [digitsFrom]
          split <;> exact List.cons_ne_nil _ _
        rw [List.getLast?_cons_of_ne_nil nonempty] at zero
        have none : number / base = 0 := ih (by omega) zero
        omega

/-- Only zero has a zero in front. -/
theorem eq_zero_of_head?_digits {base number : Nat} (two : 2 ≤ base)
    (zero : (digits base number).head? = some 0) : number = 0 := by
  rw [digits, List.head?_reverse] at zero
  exact getLast?_digitsFrom two (Nat.lt_succ_self number) zero

theorem numeral_replicate_zero_append (base count : Nat) (digits : List Nat) :
    numeral base (List.replicate count 0 ++ digits) = numeral base digits := by
  induction count with
  | zero => rfl
  | succ count ih =>
      rw [List.replicate_succ, List.cons_append, ← ih]
      simp [numeral]

/-- Decimal notation with the digits 0 to 9. -/
def ofNat (number : Nat) : Text := (digits 10 number).map (· + '0'.toNat)

theorem ofNat_inj {left right : Nat} : ofNat left = ofNat right ↔ left = right := by
  constructor
  · intro same
    have digitsSame : digits 10 left = digits 10 right :=
      (List.map_inj_right fun _ _ => Nat.add_right_cancel).mp same
    have ten : 2 ≤ 10 := by decide
    rw [← numeral_digits ten left, digitsSame, numeral_digits ten]
  · rintro rfl
    rfl

theorem dot_notMem_ofNat (number : Nat) : '.'.toNat ∉ ofNat number := by
  intro member
  obtain ⟨digit, -, same⟩ := List.mem_map.mp member
  have zero : '.'.toNat < '0'.toNat := by decide
  omega

theorem ofNat_ne_nil (number : Nat) : ofNat number ≠ [] :=
  mt List.map_eq_nil_iff.mp (digits_ne_nil 10 number)

theorem eq_zero_of_head?_ofNat {number : Nat}
    (zero : (ofNat number).head? = some '0'.toNat) : number = 0 := by
  rw [ofNat, List.head?_map, Option.map_eq_some_iff] at zero
  obtain ⟨digit, first, same⟩ := zero
  have none : digit = 0 := Nat.add_right_cancel (same.trans (Nat.zero_add _).symm)
  exact eq_zero_of_head?_digits (by decide) (none ▸ first)

theorem isAsciiDigit_of_mem_ofNat {number : Nat} {point : CodePoint}
    (member : point ∈ ofNat number) : point.isAsciiDigit = true := by
  obtain ⟨digit, inside, rfl⟩ := List.mem_map.mp member
  have small : digit < 10 := lt_of_mem_digits (by decide) inside
  have shifted : ∀ digit < 10, CodePoint.isAsciiDigit (digit + '0'.toNat) = true := by decide
  exact shifted digit small

def ofInt : Int → Text
  | .ofNat number => ofNat number
  | .negSucc number => '-' :: ofNat (number + 1)

/-- Decimal notation filled with zeros on the left up to `width`. -/
def ofNatPadded (width number : Nat) : Text :=
  let plain := ofNat number
  List.replicate (width - plain.length) '0'.toNat ++ plain

/-- Reads a run of decimal digits of any script; other characters count as nothing. -/
def decimalValue (text : Text) : Nat := numeral 10 (text.filterMap CodePoint.digitValue?)

private theorem digitValues_shifted {values : List Nat} (small : ∀ digit ∈ values, digit < 10) :
    (values.map (· + '0'.toNat)).filterMap CodePoint.digitValue? = values := by
  have shifted : ∀ digit < 10, CodePoint.digitValue? (digit + '0'.toNat) = some digit := by decide
  induction values with
  | nil => rfl
  | cons digit rest ih =>
      obtain ⟨first, others⟩ := List.forall_mem_cons.mp small
      rw [List.map_cons, List.filterMap_cons_some (shifted digit first), ih others]

theorem decimalValue_ofNat (number : Nat) : decimalValue (ofNat number) = number := by
  have small : ∀ digit ∈ digits 10 number, digit < 10 :=
    fun digit inside => lt_of_mem_digits (by decide) inside
  rw [decimalValue, ofNat, digitValues_shifted small]
  exact numeral_digits (by decide) number

end QueryOptions.Text
