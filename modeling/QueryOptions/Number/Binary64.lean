import QueryOptions.Text.Blank
import QueryOptions.Text.Digit

/-!
Binary floating-point numbers of 64 bits, as exact data: a sign, a mantissa below 2^53 and a power
of two. Every operation is exact arithmetic followed by one rounding to the nearest number, a half
going to the even mantissa.
-/

namespace QueryOptions

/-- A finite number is `mantissa * 2 ^ exponent` with its sign. Numbers built here are normal: the
mantissa is at least 2^52, or the exponent is -1074. -/
inductive Binary64 where
  | nan
  | infinite (negative : Bool)
  | finite (negative : Bool) (mantissa : Nat) (exponent : Int)
deriving DecidableEq, Repr

namespace Binary64

def leastExponent : Int := -1074

def greatestExponent : Int := 971

def zero : Binary64 := .finite false 0 leastExponent

/-- The integer nearest to a quotient, a half going to the even one. -/
def roundedQuotient (numerator denominator : Nat) : Nat :=
  let quotient := numerator / denominator
  let remainder := numerator % denominator
  if 2 * remainder < denominator then quotient
  else if denominator < 2 * remainder then quotient + 1
  else quotient + quotient % 2

/-- A quotient divided by a power of two, as a numerator and a denominator. -/
private def scaled (numerator denominator : Nat) (exponent : Int) : Nat × Nat :=
  match exponent with
  | .ofNat power => (numerator, denominator * Nat.pow 2 power)
  | .negSucc power => (numerator * Nat.pow 2 (power + 1), denominator)

/-- The number nearest to a quotient of natural numbers, with a sign. -/
def ofRatio (negative : Bool) (numerator denominator : Nat) : Binary64 :=
  if numerator = 0 then .finite negative 0 leastExponent
  else
    let guess : Int := (numerator.log2 : Int) - (denominator.log2 : Int) - 52
    let (above, below) := scaled numerator denominator guess
    let exponent := max leastExponent (if above / below < Nat.pow 2 52 then guess - 1 else guess)
    let (above, below) := scaled numerator denominator exponent
    let mantissa := roundedQuotient above below
    let (mantissa, exponent) :=
      if mantissa = Nat.pow 2 53 then (Nat.pow 2 52, exponent + 1) else (mantissa, exponent)
    if greatestExponent < exponent then .infinite negative
    else .finite negative mantissa exponent

/-- The exact value as a signed quotient. -/
def ratio? : Binary64 → Option (Int × Nat)
  | .finite negative mantissa exponent =>
      let signed : Int := if negative then -(mantissa : Int) else mantissa
      match exponent with
      | .ofNat power => some (signed * (Nat.pow 2 power : Nat), 1)
      | .negSucc power => some (signed, Nat.pow 2 (power + 1))
  | _ => none

def ofSignedRatio (numerator : Int) (denominator : Nat) : Binary64 :=
  ofRatio (numerator < 0) numerator.natAbs denominator

/-- The integer that the number equals, if there is one. -/
def int? (number : Binary64) : Option Int := do
  let (numerator, denominator) ← number.ratio?
  if numerator % denominator = 0 then some (numerator / denominator) else none

def negate : Binary64 → Binary64
  | .nan => .nan
  | .infinite negative => .infinite (!negative)
  | .finite negative mantissa exponent => .finite (!negative) mantissa exponent

/-- The number nearest to a whole number, unless it lies beyond all finite ones. -/
def ofNat? (number : Nat) : Option Binary64 :=
  match ofRatio false number 1 with
  | .infinite _ => none
  | nearest => some nearest

/-- The product with a finite factor above zero. -/
def scale (number factor : Binary64) : Binary64 :=
  match number.ratio?, factor.ratio? with
  | some (above, below), some (factorAbove, factorBelow) =>
      ofSignedRatio (above * factorAbove) (below * factorBelow)
  | _, _ => number

def add (left right : Binary64) : Binary64 :=
  match left, right with
  | .nan, _ => .nan
  | _, .nan => .nan
  | .infinite leftNegative, .infinite rightNegative =>
      if leftNegative == rightNegative then left else .nan
  | .infinite _, _ => left
  | _, .infinite _ => right
  | _, _ =>
      match left.ratio?, right.ratio? with
      | some (leftAbove, leftBelow), some (rightAbove, rightBelow) =>
          ofSignedRatio (leftAbove * rightBelow + rightAbove * leftBelow) (leftBelow * rightBelow)
      | _, _ => .nan

/-- The number nearest to `numeral * 10 ^ exponent`. Powers far outside the range are not computed:
the answer there is known from the number of digits. -/
def ofDecimal (negative : Bool) (numeral digitCount : Nat) (exponent : Int) : Binary64 :=
  if numeral = 0 then .finite negative 0 leastExponent
  else if 400 < exponent + digitCount then .infinite negative
  else if exponent + digitCount < -400 then .finite negative 0 leastExponent
  else
    match exponent with
    | .ofNat power => ofRatio negative (numeral * Nat.pow 10 power) 1
    | .negSucc power => ofRatio negative numeral (Nat.pow 10 (power + 1))

private def exponent? (text : Text) : Option Int :=
  let (negative, digits) : Bool × Text :=
    match text with
    | point :: rest =>
        if point = '-'.toNat then (true, rest)
        else if point = '+'.toNat then (false, rest) else (false, text)
    | [] => (false, [])
  if digits.isEmpty || !digits.all CodePoint.isDigit then none
  else
    let value : Int := digits.decimalValue
    some (if negative then -value else value)

/-- A decimal fraction without sign: digits, perhaps a point and more digits, perhaps an exponent;
at least one digit stands before the exponent. -/
private def unsigned? (negative : Bool) (text : Text) : Option Binary64 :=
  let whole := text.takeWhile CodePoint.isDigit
  let rest : Text := text.dropWhile CodePoint.isDigit
  let (fraction, rest) : Text × Text :=
    match rest with
    | point :: tail =>
        if point = '.'.toNat then
          (tail.takeWhile CodePoint.isDigit, tail.dropWhile CodePoint.isDigit)
        else ([], rest)
    | [] => ([], [])
  let digits : Text := whole ++ fraction
  if digits.isEmpty then none
  else
    let shifted (exponent : Int) : Binary64 :=
      ofDecimal negative digits.decimalValue digits.length (exponent - fraction.length)
    match rest with
    | [] => some (shifted 0)
    | point :: tail =>
        if point = 'e'.toNat || point = 'E'.toNat then (exponent? tail).map shifted else none

/-- Reads a number: blanks around it, a sign, and a decimal fraction or a word for infinity or for
no number, in any case. -/
def ofText? (text : Text) : Option Binary64 :=
  let trimmed := text.trimNumberBlanks
  let (negative, body) : Bool × Text :=
    match trimmed with
    | point :: rest =>
        if point = '-'.toNat then (true, rest)
        else if point = '+'.toNat then (false, rest) else (false, trimmed)
    | [] => (false, [])
  let word := body.asciiLower
  if word = Text.ofString "inf" || word = Text.ofString "infinity" then some (.infinite negative)
  else if word = Text.ofString "nan" then some .nan
  else unsigned? negative body

end Binary64

end QueryOptions
