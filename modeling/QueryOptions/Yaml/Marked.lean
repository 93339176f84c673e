import QueryOptions.Text.Basic

/-!
The characters of a document with their marks. A marked text always ends in the character NUL,
which no document may hold, so that reading needs no end test of its own.
-/

namespace QueryOptions.Yaml

/-- A place in a document, counted from 0. A byte order mark takes no column. -/
structure Mark where
  line : Nat
  column : Nat
  index : Nat
deriving DecidableEq, Repr

structure Marked where
  point : CodePoint
  mark : Mark
deriving Repr

abbrev Chars := List Marked

def endOfText : CodePoint := 0

def byteOrderMark : CodePoint := 0xFEFF

/-- Characters that end a line. -/
def isBreak (point : CodePoint) : Bool :=
  point = '\n'.toNat || point = '\r'.toNat || point = 0x85 || point = 0x2028 || point = 0x2029

def isBreakOrEnd (point : CodePoint) : Bool := point = endOfText || isBreak point

def isSpaceOrTab (point : CodePoint) : Bool := point = ' '.toNat || point = '\t'.toNat

/-- Characters that end a word: blanks, line breaks and the end of the text. -/
def isGap (point : CodePoint) : Bool := isSpaceOrTab point || isBreakOrEnd point

def isSpaceBreakOrEnd (point : CodePoint) : Bool := point = ' '.toNat || isBreakOrEnd point

/-- Characters that a document may hold. -/
def isAllowed (point : CodePoint) : Bool :=
  point = 0x09 || point = 0x0A || point = 0x0D || (0x20 ≤ point && point ≤ 0x7E) || point = 0x85 ||
    (0xA0 ≤ point && point ≤ 0xD7FF) || (0xE000 ≤ point && point ≤ 0xFFFD) ||
    (0x10000 ≤ point && point ≤ 0x10FFFF)

namespace Mark

def start : Mark := ⟨0, 0, 0⟩

/-- The mark after a character; a carriage return before a line feed does not end the line yet. -/
def after (mark : Mark) (point : CodePoint) (rest : Text) : Mark :=
  let endsLine := isBreak point && !(point = '\r'.toNat && rest.head? = some '\n'.toNat)
  if endsLine then ⟨mark.line + 1, 0, mark.index + 1⟩
  else if point = byteOrderMark then { mark with index := mark.index + 1 }
  else ⟨mark.line, mark.column + 1, mark.index + 1⟩

end Mark

namespace Chars

def ofTextFrom (mark : Mark) : Text → Chars
  | [] => [⟨endOfText, mark⟩]
  | point :: rest => ⟨point, mark⟩ :: ofTextFrom (mark.after point rest) rest

def ofText (text : Text) : Chars := ofTextFrom .start text

/-- The character at a distance from the front. -/
def peek (chars : Chars) (distance : Nat) : CodePoint :=
  match chars[distance]? with
  | some marked => marked.point
  | none => endOfText

def first (chars : Chars) : CodePoint :=
  match chars with
  | marked :: _ => marked.point
  | [] => endOfText

def skip (count : Nat) (chars : Chars) : Chars := chars.drop count

def mark (chars : Chars) : Mark :=
  match chars with
  | marked :: _ => marked.mark
  | [] => .start

def column (chars : Chars) : Nat := chars.mark.column

/-- The characters at the front that belong to a class, and what follows them. -/
def takeRun (inClass : CodePoint → Bool) : Chars → Text × Chars
  | [] => ([], [])
  | marked :: rest =>
      if inClass marked.point then
        let (run, after) := takeRun inClass rest
        (marked.point :: run, after)
      else ([], marked :: rest)

def dropRun (inClass : CodePoint → Bool) (chars : Chars) : Chars :=
  chars.dropWhile fun marked => inClass marked.point

def dropSpaces (chars : Chars) : Chars := chars.dropRun (· = ' '.toNat)

/-- Whether the characters begin with a text. -/
def startsWith (text : Text) (chars : Chars) : Bool :=
  (chars.take text.length).map (·.point) == text

/-- Drops a comment that begins here. -/
def dropComment (chars : Chars) : Chars :=
  if chars.first = '#'.toNat then chars.dropRun fun point => !isBreakOrEnd point else chars

/-- A line break at the front as data keeps it, and what follows it. Nothing is taken where there is
no break. -/
def takeBreak (chars : Chars) : Text × Chars :=
  let point := chars.first
  if point = '\r'.toNat && chars.peek 1 = '\n'.toNat then (['\n'], chars.skip 2)
  else if point = '\r'.toNat || point = '\n'.toNat || point = 0x85 then (['\n'], chars.skip 1)
  else if point = 0x2028 || point = 0x2029 then ([point], chars.skip 1)
  else ([], chars)

/-- Three hyphens or dots and a gap: the mark of a new or an ended document. -/
def atSeparator (chars : Chars) : Bool :=
  (chars.startsWith "---" || chars.startsWith "...") && isGap (chars.peek 3)

end Chars

end QueryOptions.Yaml
