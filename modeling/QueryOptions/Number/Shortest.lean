import QueryOptions.Number.Binary64
import QueryOptions.Text.Line

/-!
The shortest decimal text of a binary number. Among the decimals that read back as the number the
ones with fewest digits count, and of those the nearest; of two equally near the even one is taken.
-/

namespace QueryOptions.Binary64

/-- The reals that round to a finite number, all in units of `2 ^ (exponent - 2)`. -/
structure RoundingInterval where
  low : Nat
  value : Nat
  high : Nat
  closed : Bool
  exponent : Int

/-- The lower half of the interval is shorter at a power of two, where the grid below is finer. -/
def roundingInterval (mantissa : Nat) (exponent : Int) : RoundingInterval :=
  { low := if mantissa = Nat.pow 2 52 && leastExponent < exponent then 4 * mantissa - 1
      else 4 * mantissa - 2
    value := 4 * mantissa
    high := 4 * mantissa + 2
    closed := mantissa % 2 = 0
    exponent := exponent - 2 }

/-- `numerator / denominator` for `count * 2 ^ exponent / 10 ^ power`. -/
private def overPowerOfTen (exponent power : Int) : Nat × Nat :=
  let (above, below) : Nat × Nat :=
    match exponent with
    | .ofNat size => (Nat.pow 2 size, 1)
    | .negSucc size => (1, Nat.pow 2 (size + 1))
  match power with
  | .ofNat size => (above, below * Nat.pow 10 size)
  | .negSucc size => (above * Nat.pow 10 (size + 1), below)

/-- The point of the grid of multiples of `10 ^ power` nearest to the number, if one of its two
neighbours on that grid reads back as the number. -/
def RoundingInterval.nearest? (interval : RoundingInterval) (power : Int) : Option Nat :=
  let (above, below) := overPowerOfTen interval.exponent power
  let value := interval.value * above
  let down := value / below
  let readsBack (candidate : Nat) : Bool :=
    let scaled := candidate * below
    if interval.closed then interval.low * above ≤ scaled && scaled ≤ interval.high * above
    else interval.low * above < scaled && scaled < interval.high * above
  let nearer : Bool :=
    let lower := value - down * below
    let upper := (down + 1) * below - value
    lower < upper || (lower == upper && down % 2 == 0)
  match readsBack down, readsBack (down + 1) with
  | true, true => some (if nearer then down else down + 1)
  | true, false => some down
  | false, true => some (down + 1)
  | false, false => none

/-- The power of ten next above a positive number: `10 ^ (k - 1) ≤ number < 10 ^ k`. -/
def decimalPoint (mantissa : Nat) (exponent : Int) : Int :=
  let size : Int := (mantissa.log2 : Int) + exponent
  let guess : Int := size * 30103 / 100000
  let reaches (power : Int) : Bool :=
    let (above, below) := overPowerOfTen exponent power
    below ≤ mantissa * above
  if reaches (guess + 1) then guess + 2 else if reaches guess then guess + 1 else guess

/-- The first grid, from coarse to fine, on which a neighbour reads back: its point and its power.
Seventeen digits always suffice. -/
private def search (interval : RoundingInterval) (point : Int) : Nat → Nat → Nat × Int
  | 0, _ => (interval.value, 0)
  | steps + 1, count =>
      match interval.nearest? (point - count) with
      | some digits => (digits, point - count)
      | none => search interval point steps (count + 1)

private def dropZeros : List Nat → List Nat
  | digits => (digits.reverse.dropWhile (· == 0)).reverse

/-- The significant digits of a positive number and the place of the decimal point counted from
the first digit. -/
def shortestDigits (mantissa : Nat) (exponent : Int) : List Nat × Int :=
  let (decimal, power) :=
    search (roundingInterval mantissa exponent) (decimalPoint mantissa exponent) 17 1
  let digits := Text.digits 10 decimal
  (dropZeros digits, power + digits.length)

/-- Positional notation is used while the point stands at most this far right or left. -/
structure Layout where
  mostLeft : Int
  mostRight : Int

/-- Numbers from 0.0001 up to below ten quadrillion are written positionally. -/
def standardLayout : Layout := ⟨-3, 16⟩

private def digitText (digits : List Nat) : Text := digits.map (· + '0'.toNat)

/-- A number always shows a point or an exponent, and an exponent has a sign and two digits. -/
def layOut (layout : Layout) (digits : List Nat) (point : Int) : Text :=
  if layout.mostLeft ≤ point && point ≤ layout.mostRight then
    if point ≤ 0 then "0." ++ List.replicate (-point).toNat '0'.toNat ++ digitText digits
    else
      let whole := digits.take point.toNat
      let padding := List.replicate (point.toNat - digits.length) '0'.toNat
      let fraction := digits.drop point.toNat
      let shown : Text := if fraction.isEmpty then "0" else digitText fraction
      digitText whole ++ padding ++ "." ++ shown
  else
    let exponent := point - 1
    let sign : Text := if exponent < 0 then "-" else "+"
    let fraction := digits.drop 1
    let shown : Text := if fraction.isEmpty then [] else "." ++ digitText fraction
    digitText (digits.take 1) ++ shown ++ "e" ++ sign ++ Text.ofNatPadded 2 exponent.natAbs

private theorem isLine_digitText (digits : List Nat) : Text.IsLine (digitText digits) :=
  Text.isLine_of_digits

theorem isLine_layOut (layout : Layout) (digits : List Nat) (point : Int) :
    Text.IsLine (layOut layout digits point) := by
  have zeros (count : Nat) : Text.IsLine (List.replicate count '0'.toNat) :=
    Text.isLine_replicate (by decide) count
  unfold layOut
  dsimp only
  split
  · split
    · simp only [Text.isLine_append, isLine_digitText, zeros, and_true]
      decide
    · simp only [Text.isLine_append, isLine_digitText, zeros, true_and]
      refine ⟨by decide, ?_⟩
      split
      · decide
      · exact isLine_digitText _
  · simp only [Text.isLine_append, isLine_digitText, Text.isLine_ofNatPadded, and_true, true_and]
    refine ⟨⟨?_, by decide⟩, ?_⟩
    · split
      · exact Text.isLine_nil
      · exact Text.isLine_append.mpr ⟨by decide, isLine_digitText _⟩
    · split <;> decide

def toText : Binary64 → Text
  | .nan => "nan"
  | .infinite negative => if negative then "-inf" else "inf"
  | .finite negative mantissa exponent =>
      let sign : Text := if negative then "-" else ""
      if mantissa = 0 then sign ++ "0.0"
      else
        let (digits, point) := shortestDigits mantissa exponent
        sign ++ layOut standardLayout digits point

theorem isLine_toText (number : Binary64) : Text.IsLine number.toText := by
  cases number with
  | nan => decide
  | infinite negative => cases negative <;> decide
  | finite negative mantissa exponent =>
      have sign : Text.IsLine (if negative then "-" else "" : Text) := by
        cases negative <;> decide
      unfold toText
      dsimp only
      split
      · exact Text.isLine_append.mpr ⟨sign, by decide⟩
      · exact Text.isLine_append.mpr ⟨sign, isLine_layOut _ _ _⟩

end QueryOptions.Binary64
