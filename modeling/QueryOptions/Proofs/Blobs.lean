import Mathlib.Algebra.Group.Nat.Defs
import Mathlib.Data.List.Forall2
import QueryOptions.Leaf
import QueryOptions.Proofs.Loops

namespace QueryOptions

/-! Blobs. A byte string stands for its bytes, a text for its bytes in UTF-8. In base64 and in
hexadecimal notation two blobs have one text just when they stand for the same bytes. -/

/-! UTF-8, compared with the encoding of characters. -/

namespace CodePoint

theorem utf8?_toNat (char : Char) : utf8? char.toNat = some (String.utf8EncodeChar char) := by
  have valid : char.val.toNat < 0xD800 ∨ 0xDFFF < char.val.toNat ∧ char.val.toNat < 0x110000 :=
    char.valid
  have number : char.toNat = char.val.toNat := rfl
  unfold utf8? String.utf8EncodeChar
  rw [number]
  generalize char.val.toNat = point at valid
  by_cases one : point < 0x80
  · have first : point ≤ 127 := by omega
    simp [one, first]
  · have first : ¬ point ≤ 127 := by omega
    by_cases two : point < 0x800
    · have second : point ≤ 2047 := by omega
      simp only [one, two, first, second, if_true, if_false, Option.some.injEq, List.cons.injEq,
        ← UInt8.toNat_inj, UInt8.toNat_ofNat', and_true]
      omega
    · have second : ¬ point ≤ 2047 := by omega
      have scalar : isSurrogate point = false := by
        simp only [isSurrogate, Bool.and_eq_false_iff, decide_eq_false_iff_not]
        exact valid.imp Nat.not_le.mpr fun above => Nat.not_le.mpr above.1
      by_cases three : point < 0x10000
      · have third : point ≤ 65535 := by omega
        simp only [one, two, three, first, second, third, scalar, Bool.false_eq_true, if_true,
          if_false, Option.some.injEq, List.cons.injEq, ← UInt8.toNat_inj, UInt8.toNat_ofNat',
          and_true]
        omega
      · have third : ¬ point ≤ 65535 := by omega
        have four : point < 0x110000 := by omega
        simp only [one, two, three, four, first, second, third, scalar, Bool.false_eq_true, if_true,
          if_false, Option.some.injEq, List.cons.injEq, ← UInt8.toNat_inj, UInt8.toNat_ofNat',
          and_true]
        omega

theorem exists_char_of_utf8? {point : CodePoint} {bytes : Bytes}
    (encoded : point.utf8? = some bytes) : ∃ char : Char, char.toNat = point := by
  have valid : point.isValidChar := by
    unfold utf8? isSurrogate at encoded
    simp only [Nat.isValidChar]
    grind
  refine ⟨Char.ofNat point, ?_⟩
  rw [Char.ofNat, dif_pos valid]
  rfl

end CodePoint

theorem Text.utf8?_eq_some_iff {text : Text} {bytes : Bytes} : text.utf8? = some bytes ↔
    ∃ chars : List Char, text = chars.map Char.toNat ∧
      bytes = chars.flatMap String.utf8EncodeChar := by
  constructor
  · intro encoded
    induction text generalizing bytes with
    | nil => exact ⟨[], rfl, (Option.some.inj encoded).symm⟩
    | cons point rest ih =>
        obtain ⟨first, firstEncoded, others⟩ := Option.bind_eq_some_iff.mp encoded
        obtain ⟨later, laterEncoded, joined⟩ := Option.bind_eq_some_iff.mp others
        obtain ⟨char, rfl⟩ := CodePoint.exists_char_of_utf8? firstEncoded
        obtain ⟨chars, rfl, rfl⟩ := ih laterEncoded
        rw [CodePoint.utf8?_toNat] at firstEncoded
        refine ⟨char :: chars, rfl, ?_⟩
        rw [← Option.some.inj joined, ← Option.some.inj firstEncoded, List.flatMap_cons]
  · rintro ⟨chars, rfl, rfl⟩
    induction chars with
    | nil => rfl
    | cons char rest ih =>
        rw [List.map_cons, Text.utf8?, CodePoint.utf8?_toNat, ih]
        rfl

namespace Value

variable {value : Value} {bytes : Bytes}

/-- The bytes that a value stands for as a blob; a text stands for its encoding in UTF-8. -/
inductive StandsFor : Value → Bytes → Prop
  | bytes (form : ByteForm) (data : Bytes) : StandsFor (.bytes form data) data
  | text {value : Value} {chars : List Char} (read : value.text? = some (chars.map Char.toNat)) :
      StandsFor value (chars.flatMap String.utf8EncodeChar)

theorem blob?_eq_some_iff : value.blob? = some bytes ↔ value.StandsFor bytes := by
  constructor
  · intro held
    unfold blob? at held
    split at held
    · exact Option.some.inj held ▸ .bytes _ _
    · obtain ⟨text, read, encoded⟩ := Option.bind_eq_some_iff.mp held
      obtain ⟨chars, rfl, rfl⟩ := Text.utf8?_eq_some_iff.mp encoded
      exact .text read
  · intro stands
    cases stands with
    | bytes form data => rfl
    | @text _ chars read =>
        have encoded : value.text?.bind Text.utf8? =
            some (chars.flatMap String.utf8EncodeChar) := by
          rw [read]
          exact Text.utf8?_eq_some_iff.mpr ⟨chars, rfl, rfl⟩
        cases value with
        | bytes form data => cases read
        | _ => exact encoded

theorem accepts_blob_iff : LeafType.blob.accepts value = true ↔ ∃ bytes, value.StandsFor bytes := by
  simp only [LeafType.accepts, Option.isSome_iff_exists, blob?_eq_some_iff]

theorem StandsFor.unique {other : Bytes} (stands : value.StandsFor bytes)
    (also : value.StandsFor other) : bytes = other :=
  Option.some.inj ((blob?_eq_some_iff.mpr stands).symm.trans (blob?_eq_some_iff.mpr also))

theorem StandsFor.encode? (stands : value.StandsFor bytes) (codec : BlobCodec) :
    LeafType.blob.encode? codec value = some (codec bytes) := by
  rw [LeafType.encode?, blob?_eq_some_iff.mpr stands]
  rfl

end Value

/-! Base64, compared with the bits of the bytes. -/

/-- The lowest `width` bits of a number, the highest of them first. -/
def lowestBits : Nat → Nat → List Bool
  | 0, _ => []
  | width + 1, number => number.testBit width :: lowestBits width number

theorem lowestBits_add (high low number : Nat) :
    lowestBits (high + low) number =
      lowestBits high (number / 2 ^ low) ++ lowestBits low number := by
  induction high with
  | zero => rw [Nat.zero_add, lowestBits, List.nil_append]
  | succ high ih =>
      rw [Nat.add_right_comm, lowestBits, lowestBits, ih, Nat.testBit_div_two_pow, List.cons_append]

theorem lowestBits_mod {width modulus : Nat} (narrow : width ≤ modulus) (number : Nat) :
    lowestBits width (number % 2 ^ modulus) = lowestBits width number := by
  induction width with
  | zero => rfl
  | succ width ih =>
      have inside : width < modulus := narrow
      simp [lowestBits, ih (by omega), Nat.testBit_mod_two_pow, inside]

theorem lowestBits_zero (width : Nat) : lowestBits width 0 = List.replicate width false := by
  induction width with
  | zero => rfl
  | succ width ih => rw [lowestBits, ih, Nat.zero_testBit, List.replicate_succ]

theorem lowestBits_mul_add (high low above : Nat) {below : Nat} (small : below < 2 ^ low) :
    lowestBits (high + low) (above * 2 ^ low + below) =
      lowestBits high above ++ lowestBits low below := by
  have positive : 0 < 2 ^ low := Nat.two_pow_pos low
  have upper : (above * 2 ^ low + below) / 2 ^ low = above := by
    rw [Nat.mul_comm, Nat.mul_add_div positive, Nat.div_eq_of_lt small, Nat.add_zero]
  have lower : (above * 2 ^ low + below) % 2 ^ low = below := by
    rw [Nat.mul_comm, Nat.mul_add_mod, Nat.mod_eq_of_lt small]
  rw [lowestBits_add, upper, ← lowestBits_mod (Nat.le_refl low), lower]

namespace Base64

variable {bytes : Bytes} {text : Text} {point : CodePoint}

/-- The characters of the notation, each at the place of its value. -/
def alphabet : Text := "ABCDEFGHIJKLMNOPQRSTUVWXYZabcdefghijklmnopqrstuvwxyz0123456789+/"

theorem alphabet_eq : alphabet = (List.range 64).map character := by decide +kernel

theorem alphabet_getElem? {value : Nat} (small : value < 64) :
    alphabet[value]? = some (character value) := by
  rw [alphabet_eq, List.getElem?_map, List.getElem?_range small]
  rfl

/-- The text says the bytes: their bits, six by six, are the values of its characters. Where the
bits run out there are zeros, and a pad for every two of them; pads complete the last group of four
characters. -/
inductive Spells : Bytes → Text → Prop
  | intro {bytes : Bytes} {values : List Nat} {body : Text} {pads : Nat}
      (characters : List.Forall₂ (fun value point => alphabet[value]? = some point) values body)
      (sextets : values.flatMap (lowestBits 6) =
        bytes.flatMap (fun byte => lowestBits 8 byte.toNat) ++ List.replicate (2 * pads) false)
      (grouped : (body.length + pads) % 4 = 0) (few : pads < 3) :
      Spells bytes (body ++ List.replicate pads '='.toNat)

/-- The last `count` sextets of a number, the highest of them first. -/
def sextets : Nat → Nat → List Nat
  | 0, _ => []
  | count + 1, number => number / 2 ^ (6 * count) % 64 :: sextets count number

theorem lt_of_mem_sextets {count number value : Nat} (inside : value ∈ sextets count number) :
    value < 64 := by
  induction count with
  | zero => contradiction
  | succ count ih =>
      rcases List.mem_cons.mp inside with rfl | later
      · exact Nat.mod_lt _ (by decide)
      · exact ih later

theorem flatMap_sextets (count number : Nat) :
    (sextets count number).flatMap (lowestBits 6) = lowestBits (6 * count) number := by
  induction count with
  | zero => rfl
  | succ count ih =>
      have width : 6 * (count + 1) = 6 + 6 * count := by omega
      rw [sextets, List.flatMap_cons, ih, width, lowestBits_add]
      exact congrArg (· ++ _) (lowestBits_mod (Nat.le_refl 6) _)

theorem characters_sextets (count number : Nat) :
    List.Forall₂ (fun value point => alphabet[value]? = some point) (sextets count number)
      ((sextets count number).map character) := by
  rw [List.forall₂_map_right_iff, List.forall₂_same]
  exact fun value inside => alphabet_getElem? (lt_of_mem_sextets inside)

theorem encode_one (first : UInt8) :
    encode [first] =
      (sextets 2 (first.toNat * 16)).map character ++ List.replicate 2 '='.toNat := by
  have small := first.toNat_lt
  have high : first.toNat * 65536 / 262144 = first.toNat * 16 / 64 % 64 := by omega
  have low : first.toNat * 65536 / 4096 % 64 = first.toNat * 16 % 64 := by omega
  simp [encode, sextets, high, low, List.replicate_succ]

theorem encode_two (first second : UInt8) :
    encode [first, second] =
      (sextets 3 (first.toNat * 1024 + second.toNat * 4)).map character ++
        List.replicate 1 '='.toNat := by
  have firstSmall := first.toNat_lt
  have secondSmall := second.toNat_lt
  have high : (first.toNat * 65536 + second.toNat * 256) / 262144 =
      (first.toNat * 1024 + second.toNat * 4) / 4096 % 64 := by omega
  have middle : (first.toNat * 65536 + second.toNat * 256) / 4096 % 64 =
      (first.toNat * 1024 + second.toNat * 4) / 64 % 64 := by omega
  have low : (first.toNat * 65536 + second.toNat * 256) / 64 % 64 =
      (first.toNat * 1024 + second.toNat * 4) % 64 := by omega
  simp [encode, sextets, high, middle, low, List.replicate_succ]

theorem encode_three (first second third : UInt8) (rest : Bytes) :
    encode (first :: second :: third :: rest) =
      (sextets 4 (first.toNat * 65536 + (second.toNat * 256 + third.toNat))).map character ++
        encode rest := by
  have firstSmall := first.toNat_lt
  have secondSmall := second.toNat_lt
  have thirdSmall := third.toNat_lt
  have high : (first.toNat * 65536 + (second.toNat * 256 + third.toNat)) / 262144 % 64 =
      (first.toNat * 65536 + (second.toNat * 256 + third.toNat)) / 262144 := by omega
  simp [encode, sextets, high, Nat.add_assoc]

theorem spells_one (first : UInt8) : Spells [first] (encode [first]) := by
  rw [encode_one]
  refine .intro (characters_sextets _ _) ?_ (by simp [sextets]) (by decide)
  have joined := lowestBits_mul_add 8 4 first.toNat (show 0 < 2 ^ 4 by decide)
  simp only [Nat.reduceAdd, Nat.reducePow, Nat.add_zero] at joined
  rw [flatMap_sextets, List.flatMap_singleton, ← lowestBits_zero, ← joined]

theorem spells_two (first second : UInt8) : Spells [first, second] (encode [first, second]) := by
  have small := second.toNat_lt
  rw [encode_two]
  refine .intro (characters_sextets _ _) ?_ (by simp [sextets]) (by decide)
  have joined := lowestBits_mul_add 8 10 first.toNat (show second.toNat * 4 < 2 ^ 10 by omega)
  have later := lowestBits_mul_add 8 2 second.toNat (show 0 < 2 ^ 2 by decide)
  simp only [Nat.reduceAdd, Nat.reducePow, Nat.add_zero] at joined later
  rw [flatMap_sextets, List.flatMap_cons, List.flatMap_singleton, ← lowestBits_zero,
    List.append_assoc, ← later, ← joined]

theorem Spells.cons {rest : Bytes} {text : Text} (spelled : Spells rest text)
    (first second third : UInt8) :
    Spells (first :: second :: third :: rest)
      ((sextets 4 (first.toNat * 65536 + (second.toNat * 256 + third.toNat))).map character ++
        text) := by
  obtain ⟨characters, values, grouped, few⟩ := spelled
  have secondSmall := second.toNat_lt
  have thirdSmall := third.toNat_lt
  have joined := lowestBits_mul_add 8 16 first.toNat
    (show second.toNat * 256 + third.toNat < 2 ^ 16 by omega)
  have later := lowestBits_mul_add 8 8 second.toNat thirdSmall
  rw [← List.append_assoc]
  refine .intro (List.rel_append (characters_sextets _ _) characters) ?_ ?_ few
  · rw [List.flatMap_append, flatMap_sextets, values]
    simp only [List.flatMap_cons, List.append_assoc]
    rw [← List.append_assoc (lowestBits 8 second.toNat), ← later, ← List.append_assoc]
    exact congrArg (· ++ _) joined
  · simp [sextets]
    omega

theorem spells_encode (bytes : Bytes) : Spells bytes (encode bytes) := by
  fun_induction encode bytes with
  | case1 => exact @Spells.intro [] [] [] 0 .nil rfl rfl (by decide)
  | case2 first bits => exact spells_one first
  | case3 first second bits => exact spells_two first second
  | case4 first second third rest bits ih =>
      have spelled := ih.cons first second third
      rw [← encode_three] at spelled
      exact spelled

theorem Spells.characters (spelled : Spells bytes text) (inside : point ∈ text) :
    point ∈ alphabet ∨ point = '='.toNat := by
  obtain ⟨characters, -, -, -⟩ := spelled
  rcases List.mem_append.mp inside with character | pad
  · obtain ⟨value, -, found⟩ := exists_of_forall₂ characters.flip character
    exact .inl (List.mem_of_getElem? found)
  · exact .inr (List.eq_of_mem_replicate pad)

theorem encode_injective : Function.Injective encode := by
  intro left right same
  exact Option.some.inj ((decode?_encode left).symm.trans (same ▸ decode?_encode right))

end Base64

namespace Bytes

theorem hex_cons (byte : UInt8) (rest : Bytes) :
    hex (byte :: rest) = Text.hexadecimal 2 byte.toNat ++ hex rest := List.flatMap_cons

theorem length_hex (bytes : Bytes) : bytes.hex.length = 2 * bytes.length := by
  have width (byte : UInt8) : (Text.hexadecimal 2 byte.toNat).length = 2 :=
    Text.length_hexadecimal byte.toNat_lt
  induction bytes with
  | nil => rfl
  | cons byte rest ih =>
      rw [hex_cons, List.length_append, width, ih, List.length_cons]
      omega

theorem hex_injective : Function.Injective hex := by
  intro left right same
  have lengths := congrArg List.length same
  rw [length_hex, length_hex] at lengths
  induction left generalizing right with
  | nil =>
      cases right with
      | nil => rfl
      | cons byte rest => simp at lengths
  | cons byte rest ih =>
      cases right with
      | nil => simp at lengths
      | cons other others =>
          rw [hex_cons, hex_cons] at same
          have width (byte : UInt8) : (Text.hexadecimal 2 byte.toNat).length = 2 :=
            Text.length_hexadecimal byte.toNat_lt
          obtain ⟨first, later⟩ := List.append_inj same (by rw [width, width])
          have number : byte.toNat = other.toNat := by
            rw [← Text.numeral_hexadecimal 2 byte.toNat, first, Text.numeral_hexadecimal]
          rw [UInt8.toNat_inj.mp number, ih later (by simp at lengths; omega)]

end Bytes

namespace LeafType

theorem injective_of_mem {codec : BlobCodec} (known : codec ∈ [Base64.encode, Bytes.hex]) :
    Function.Injective codec := by
  simp only [List.mem_cons, List.not_mem_nil, or_false] at known
  rcases known with rfl | rfl
  · exact Base64.encode_injective
  · exact Bytes.hex_injective

/-- Two accepted values have one text just when they stand for the same bytes. In base64, the codec
that is used when none is given, the text is characters of the alphabet and pads, which say those
bytes and are read back as them. -/
theorem blobTexts_eq_iff {left right : Value} (leftAccepted : blob.accepts left = true)
    (rightAccepted : blob.accepts right = true) :
    (∀ codec ∈ [Base64.encode, Bytes.hex], ∃ leftText rightText,
      blob.encode? codec left = some leftText ∧ blob.encode? codec right = some rightText ∧
      (leftText = rightText ↔ ∃ bytes, left.StandsFor bytes ∧ right.StandsFor bytes)) ∧
    ∃ bytes text, (∀ other, left.StandsFor other ↔ other = bytes) ∧
      blob.encode? Base64.encode left = some text ∧
      (∀ point ∈ text, point ∈ Base64.alphabet ∨ point = '='.toNat) ∧
      '\n'.toNat ∉ text ∧ '\r'.toNat ∉ text ∧
      Base64.Spells bytes text ∧ Base64.decode? text = some bytes := by
  obtain ⟨bytes, stands⟩ := Value.accepts_blob_iff.mp leftAccepted
  obtain ⟨others, otherStands⟩ := Value.accepts_blob_iff.mp rightAccepted
  constructor
  · intro codec known
    refine ⟨codec bytes, codec others, stands.encode? codec, otherStands.encode? codec, ?_⟩
    rw [(injective_of_mem known).eq_iff]
    constructor
    · intro same
      exact ⟨bytes, stands, same ▸ otherStands⟩
    · intro ⟨common, leftStands, rightStands⟩
      rw [stands.unique leftStands, otherStands.unique rightStands]
  · have spelled := Base64.spells_encode bytes
    have outside : ∀ point ∈ ['\n'.toNat, '\r'.toNat],
        ¬ (point ∈ Base64.alphabet ∨ point = '='.toNat) := by decide +kernel
    refine ⟨bytes, Base64.encode bytes, ?_, stands.encode? _, fun point => spelled.characters, ?_,
      ?_, spelled, Base64.decode?_encode bytes⟩
    · intro other
      constructor
      · exact fun also => also.unique stands
      · rintro rfl
        exact stands
    · exact fun inside => outside _ (by simp) (spelled.characters inside)
    · exact fun inside => outside _ (by simp) (spelled.characters inside)

/-- One character for each length of UTF-8. -/
def smileText : Value := .text [0x68, 0xE9, 0x20AC, 0x1F600]

def smileBytes : Value :=
  .bytes .view [0x68, 0xC3, 0xA9, 0xE2, 0x82, 0xAC, 0xF0, 0x9F, 0x98, 0x80]

theorem smile_blobTexts_eq :
    blob.accepts smileText = true ∧ blob.accepts smileBytes = true ∧
    blob.encode? Base64.encode smileText = some "aMOp4oKs8J+YgA==" ∧
    blob.encode? Bytes.hex smileBytes = some "68c3a9e282acf09f9880" ∧
    ∃ bytes, smileText.StandsFor bytes ∧ smileBytes.StandsFor bytes := by
  have leftAccepted : blob.accepts smileText = true := by decide
  have rightAccepted : blob.accepts smileBytes = true := by decide
  have left : blob.encode? Base64.encode smileText = some "aMOp4oKs8J+YgA==" := by decide
  have right : blob.encode? Base64.encode smileBytes = some "aMOp4oKs8J+YgA==" := by decide
  obtain ⟨leftText, rightText, leftEncoded, rightEncoded, same⟩ :=
    (blobTexts_eq_iff leftAccepted rightAccepted).1 Base64.encode List.mem_cons_self
  refine ⟨leftAccepted, rightAccepted, left, by decide, same.mp ?_⟩
  exact Option.some.inj (leftEncoded.symm.trans (left.trans (right.symm.trans rightEncoded)))

end LeafType

end QueryOptions
