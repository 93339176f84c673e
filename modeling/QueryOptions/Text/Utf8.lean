import QueryOptions.Text.Quoted

/-!
UTF-8. A text has an encoding unless it holds a surrogate; reading accepts the shortest forms only,
so that each text has one encoding.
-/

namespace QueryOptions

/-- The bytes of one code point. -/
def CodePoint.utf8? (point : CodePoint) : Option Bytes :=
  let continuation (shift : Nat) : UInt8 := UInt8.ofNat (0x80 + point / shift % 64)
  if point < 0x80 then some [UInt8.ofNat point]
  else if point < 0x800 then some [UInt8.ofNat (0xC0 + point / 64), continuation 1]
  else if point.isSurrogate then none
  else if point < 0x10000 then
    some [UInt8.ofNat (0xE0 + point / 4096), continuation 64, continuation 1]
  else if point < 0x110000 then
    some [UInt8.ofNat (0xF0 + point / 262144), continuation 4096, continuation 64, continuation 1]
  else none

def Text.utf8? : Text → Option Bytes
  | [] => some []
  | point :: rest => do return (← point.utf8?) ++ (← Text.utf8? rest)

namespace Bytes

private def isContinuation (byte : UInt8) : Bool := 0x80 ≤ byte && byte < 0xC0

private def payload (byte : UInt8) : Nat := byte.toNat % 64

/-- The text whose encoding the bytes are, if there is one. -/
def utf8Text? : Bytes → Option Text
  | [] => some []
  | first :: rest =>
      let lead := first.toNat
      if lead < 0x80 then (utf8Text? rest).map (lead :: ·)
      else
        match rest with
        | second :: rest =>
            if 0xC2 ≤ lead && lead < 0xE0 && isContinuation second then
              (utf8Text? rest).map ((lead % 32 * 64 + payload second) :: ·)
            else
              match rest with
              | third :: rest =>
                  let point := lead % 16 * 4096 + payload second * 64 + payload third
                  if 0xE0 ≤ lead && lead < 0xF0 && isContinuation second && isContinuation third
                      && 0x800 ≤ point && !CodePoint.isSurrogate point then
                    (utf8Text? rest).map (point :: ·)
                  else
                    match rest with
                    | fourth :: rest =>
                        let point := lead % 8 * 262144 + payload second * 4096
                          + payload third * 64 + payload fourth
                        if 0xF0 ≤ lead && lead < 0xF5 && isContinuation second
                            && isContinuation third && isContinuation fourth
                            && 0x10000 ≤ point && point < 0x110000 then
                          (utf8Text? rest).map (point :: ·)
                        else none
                    | [] => none
              | [] => none
        | [] => none

end Bytes

end QueryOptions
