import QueryOptions.Text.Quoted

/-!
Standard base64. Writing groups three bytes into four characters and pads the last group with equal
signs, without line breaks. Reading is lenient in the way mail readers are: characters outside the
alphabet are skipped and a complete group that ends in padding ends the data.
-/

namespace QueryOptions.Base64

/-- The character of a six-bit value. -/
def character (value : Nat) : CodePoint :=
  if value < 26 then value + 'A'.toNat
  else if value < 52 then value - 26 + 'a'.toNat
  else if value < 62 then value - 52 + '0'.toNat
  else if value = 62 then '+'
  else '/'

def value? (point : CodePoint) : Option Nat :=
  if point.isAsciiUpper then some (point - 'A'.toNat)
  else if point.isAsciiLower then some (point - 'a'.toNat + 26)
  else if point.isAsciiDigit then some (point - '0'.toNat + 52)
  else if point = '+'.toNat then some 62
  else if point = '/'.toNat then some 63
  else none

def encode : Bytes → Text
  | [] => []
  | [first] =>
      let bits := first.toNat * 65536
      [character (bits / 262144), character (bits / 4096 % 64), '=', '=']
  | [first, second] =>
      let bits := first.toNat * 65536 + second.toNat * 256
      [character (bits / 262144), character (bits / 4096 % 64), character (bits / 64 % 64), '=']
  | first :: second :: third :: rest =>
      let bits := first.toNat * 65536 + second.toNat * 256 + third.toNat
      character (bits / 262144) :: character (bits / 4096 % 64) :: character (bits / 64 % 64) ::
        character (bits % 64) :: encode rest

/-- Reads on after `held`, the values of the group begun, with `pads` equal signs met in it. -/
private def decodeFrom (held : List Nat) (pads : Nat) : Text → Option Bytes
  | [] => if held.isEmpty then some [] else none
  | point :: rest =>
      if point = '='.toNat then
        match held with
        | [first, second] =>
            if 1 ≤ pads then some [UInt8.ofNat (first * 4 + second / 16)]
            else decodeFrom held (pads + 1) rest
        | [first, second, third] =>
            some [UInt8.ofNat (first * 4 + second / 16), UInt8.ofNat (second * 16 + third / 4)]
        | _ => decodeFrom held pads rest
      else
        match value? point with
        | none => decodeFrom held pads rest
        | some value =>
            match held with
            | [first, second, third] =>
                (decodeFrom [] 0 rest).map fun bytes =>
                  UInt8.ofNat (first * 4 + second / 16) :: UInt8.ofNat (second * 16 + third / 4) ::
                    UInt8.ofNat (third * 64 + value) :: bytes
            | _ => decodeFrom (held ++ [value]) 0 rest

/-- The bytes a text stands for, unless its last group is cut short. -/
def decode? (text : Text) : Option Bytes := decodeFrom [] 0 text

theorem value?_character {value : Nat} (small : value < 64) :
    value? (character value) = some value := by
  have all : ∀ value < 64, value? (character value) = some value := by decide
  exact all value small

theorem character_ne_pad {value : Nat} (small : value < 64) : character value ≠ '='.toNat := by
  have all : ∀ value < 64, character value ≠ '='.toNat := by decide
  exact all value small

private theorem decodeFrom_character {value pads : Nat} {held : List Nat} (small : value < 64)
    (short : held.length < 3) (rest : Text) :
    decodeFrom held pads (character value :: rest) = decodeFrom (held ++ [value]) 0 rest := by
  match held with
  | [] | [_] | [_, _] =>
      rw [decodeFrom, if_neg (character_ne_pad small), value?_character small] <;> simp
  | _ :: _ :: _ :: _ => simp at short; omega

section Group

variable {first second third fourth : Nat} (one : first < 64) (two : second < 64)
  (three : third < 64) (four : fourth < 64)

include one two in
private theorem decodeFrom_two (rest : Text) :
    decodeFrom [] 0 (character first :: character second :: rest) =
      decodeFrom [first, second] 0 rest := by
  rw [decodeFrom_character one (by simp), decodeFrom_character two (by simp)]
  rfl

include one two three in
private theorem decodeFrom_three (rest : Text) :
    decodeFrom [] 0 (character first :: character second :: character third :: rest) =
      decodeFrom [first, second, third] 0 rest := by
  rw [decodeFrom_two one two, decodeFrom_character three (by simp)]
  rfl

include one two three four in
private theorem decodeFrom_four (rest : Text) :
    decodeFrom [] 0 (character first :: character second :: character third ::
        character fourth :: rest) =
      (decodeFrom [] 0 rest).map fun bytes =>
        UInt8.ofNat (first * 4 + second / 16) :: UInt8.ofNat (second * 16 + third / 4) ::
          UInt8.ofNat (third * 64 + fourth) :: bytes := by
  rw [decodeFrom_three one two three, decodeFrom, if_neg (character_ne_pad four),
    value?_character four]

end Group

private theorem decodeFrom_pads (first second : Nat) :
    decodeFrom [first, second] 0 ['='.toNat, '='.toNat] =
      some [UInt8.ofNat (first * 4 + second / 16)] := rfl

private theorem decodeFrom_pad (first second third : Nat) :
    decodeFrom [first, second, third] 0 ['='.toNat] =
      some [UInt8.ofNat (first * 4 + second / 16), UInt8.ofNat (second * 16 + third / 4)] := rfl

/-- The bytes of a group from its sextets; only the lowest eight bits of each number count. -/
private theorem bytes_of_sextets (first second third : UInt8) :
    let bits := first.toNat * 65536 + second.toNat * 256 + third.toNat
    UInt8.ofNat (bits / 262144 * 4 + bits / 4096 % 64 / 16) = first ∧
      UInt8.ofNat (bits / 4096 % 64 * 16 + bits / 64 % 64 / 4) = second ∧
      UInt8.ofNat (bits / 64 % 64 * 64 + bits % 64) = third := by
  have firstSmall := first.toNat_lt
  have secondSmall := second.toNat_lt
  have thirdSmall := third.toNat_lt
  simp only [← UInt8.toNat_inj, UInt8.toNat_ofNat']
  omega

theorem decode?_encode (bytes : Bytes) : decode? (encode bytes) = some bytes := by
  unfold decode?
  fun_induction encode bytes with
  | case1 => rfl
  | case2 first bits =>
      have small := first.toNat_lt
      have byte := (bytes_of_sextets first 0 0).1
      simp only [UInt8.toNat_zero, Nat.zero_mul, Nat.add_zero] at byte
      rw [decodeFrom_two (by omega) (by omega), decodeFrom_pads, byte]
  | case3 first second bits =>
      have firstSmall := first.toNat_lt
      have secondSmall := second.toNat_lt
      obtain ⟨byte, next, -⟩ := bytes_of_sextets first second 0
      simp only [UInt8.toNat_zero, Nat.add_zero] at byte next
      rw [decodeFrom_three (by omega) (by omega) (by omega), decodeFrom_pad, byte, next]
  | case4 first second third rest bits ih =>
      have firstSmall := first.toNat_lt
      have secondSmall := second.toNat_lt
      have thirdSmall := third.toNat_lt
      obtain ⟨byte, next, last⟩ := bytes_of_sextets first second third
      rw [decodeFrom_four (by omega) (by omega) (by omega) (by omega), ih, byte, next, last]
      rfl

end QueryOptions.Base64
