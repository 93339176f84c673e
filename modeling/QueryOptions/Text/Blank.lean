import QueryOptions.Text.Basic

/-!
Blanks: the characters that are dropped from the ends of a text before it is read. They are the
spaces and line separators of Unicode together with the four information separators.
-/

namespace QueryOptions.CodePoint

def isBlank (point : CodePoint) : Bool :=
  (9 ≤ point && point ≤ 13) || (28 ≤ point && point ≤ 32) || point == 0x85 || point == 0xA0 ||
    point == 0x1680 || (0x2000 ≤ point && point ≤ 0x200A) || point == 0x2028 || point == 0x2029 ||
    point == 0x202F || point == 0x205F || point == 0x3000

/-- Around a number the four information separators do not count as blanks. -/
def isNumberBlank (point : CodePoint) : Bool := isBlank point && !(28 ≤ point && point ≤ 31)

end QueryOptions.CodePoint

namespace QueryOptions.Text

def trimBlanks (text : Text) : Text := text.trim CodePoint.isBlank

def trimNumberBlanks (text : Text) : Text := text.trim CodePoint.isNumberBlank

end QueryOptions.Text
