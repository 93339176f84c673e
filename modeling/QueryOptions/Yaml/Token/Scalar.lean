import QueryOptions.Text.Digit
import QueryOptions.Text.Utf8
import QueryOptions.Yaml.Error
import QueryOptions.Yaml.Token

/-!
Reading the single tokens that hold text: scalars of all styles, anchors, tags and directives.
Each reader starts at the first character of its token and answers what it read and the characters
after it. The number of characters left bounds every loop.
-/

namespace QueryOptions.Yaml.Token

/-! ## Plain scalars -/

private def isFlowIndicator (point : CodePoint) : Bool :=
  point = ','.toNat || point = '['.toNat || point = ']'.toNat || point = '\x7b'.toNat ||
    point = '\x7d'.toNat

/-- Whether a plain scalar ends before a character, given the character after it. -/
private def endsPlain (flow : Bool) (point next : CodePoint) : Bool :=
  isGap point || (point = ':'.toNat && (isGap next || (flow && isFlowIndicator next))) ||
    (flow && (isFlowIndicator point || point = '?'.toNat))

private def plainRun (flow : Bool) : Chars → Text × Chars
  | [] => ([], [])
  | marked :: rest =>
      if endsPlain flow marked.point (Chars.first rest) then ([], marked :: rest)
      else
        let (run, after) := plainRun flow rest
        (marked.point :: run, after)

/-- Further line breaks of a plain scalar with the blanks before them; none when a document ends
there. -/
private def plainBreaks : Nat → Chars → Option (Text × Chars)
  | 0, chars => some ([], chars)
  | fuel + 1, chars =>
      if chars.atSeparator then none
      else
        let chars := chars.dropSpaces
        if isBreak chars.first then
          let (lineBreak, rest) := chars.takeBreak
          (plainBreaks fuel rest).map fun (breaks, rest) => (lineBreak ++ breaks, rest)
        else some ([], chars)

/-- A single line feed becomes a blank; before others it is dropped. -/
private def foldBreaks (lineBreak breaks : Text) : Text :=
  if lineBreak ≠ ['\n'.toNat] then lineBreak ++ breaks
  else if breaks.isEmpty then " "
  else breaks

/-- What may join the next run of a plain scalar to the last one, whether a line was ended, and the
characters after it. Nothing joins where the scalar ends. -/
private def plainSpaces (chars : Chars) : Text × Bool × Chars :=
  let (blanks, rest) := chars.takeRun (· = ' '.toNat)
  if isBreak rest.first then
    let (lineBreak, afterBreak) := rest.takeBreak
    match plainBreaks rest.length afterBreak with
    | none => ([], true, afterBreak.dropRun fun point => point = ' '.toNat || isBreak point)
    | some (breaks, rest) => (foldBreaks lineBreak breaks, true, rest)
  else (blanks, false, rest)

/-- The text of a plain scalar, where it ends, and whether a simple key may follow. -/
structure Plain where
  text : Text
  finish : Mark
  mayBeginKey : Bool

private def plainFrom (flow : Bool) (indent : Int) :
    Nat → Plain → (joint : Text) → Chars → Plain × Chars
  | 0, plain, _, chars => (plain, chars)
  | fuel + 1, plain, joint, chars =>
      let (run, rest) := plainRun flow chars
      if chars.first = '#'.toNat || run.isEmpty then (plain, chars)
      else
        let (spaces, brokeLine, after) := plainSpaces rest
        let plain : Plain := ⟨plain.text ++ joint ++ run, rest.mark, brokeLine⟩
        let isOutside := !flow && (after.column : Int) < indent
        if spaces.isEmpty || after.first = '#'.toNat || isOutside then
          (plain, after)
        else plainFrom flow indent fuel plain spaces after

/-- A plain scalar; outside of flow collections its lines stand deeper than the block around it. -/
def readPlain (flow : Bool) (indent : Int) (chars : Chars) : Plain × Chars :=
  plainFrom flow (indent + 1) chars.length ⟨[], chars.mark, false⟩ [] chars

/-! ## Quoted scalars -/

/-- Characters that a single letter after a backslash stands for. -/
private def escapes : List (CodePoint × CodePoint) :=
  [('0', 0), ('a', 7), ('b', 8), ('t', 9), ('\t', 9), ('n', 10), ('v', 11), ('f', 12), ('r', 13),
    ('e', 27), (' ', 32), ('"', 34), ('\\', 92), ('/', 47), ('N', 0x85), ('_', 0xA0),
    ('L', 0x2028), ('P', 0x2029)]

/-- The numbers of hexadecimal digits after the letters of numeric escapes. -/
private def escapeWidths : List (CodePoint × Nat) := [('x', 2), ('u', 4), ('U', 8)]

/-- Line breaks inside a quoted scalar with the blanks around them. -/
private def quotedBreaks : Nat → Chars → Except Error (Text × Chars)
  | 0, chars => .ok ([], chars)
  | fuel + 1, chars =>
      if chars.atSeparator then .error .malformed
      else
        let chars := chars.dropRun isSpaceOrTab
        if isBreak chars.first then do
          let (lineBreak, rest) := chars.takeBreak
          let (breaks, rest) ← quotedBreaks fuel rest
          return (lineBreak ++ breaks, rest)
        else .ok ([], chars)

/-- An escape, after its backslash. -/
private def readEscape (chars : Chars) : Except Error (Text × Chars) := do
  let point := chars.first
  match escapes.lookup point, escapeWidths.lookup point with
  | some character, _ => return ([character], chars.skip 1)
  | none, some width =>
      let digits := ((chars.skip 1).take width).map (·.point)
      if digits.length < width || !digits.all CodePoint.isHexDigit then throw .malformed
      let number := Text.numeral 16 (digits.map CodePoint.hexValue)
      if 0x110000 ≤ number then throw (.codePoint number)
      return ([number], chars.skip (width + 1))
  | none, none =>
      if isBreak point then
        quotedBreaks chars.length chars.takeBreak.2
      else throw .malformed

/-- Blanks and line breaks between the words of a quoted scalar. -/
private def quotedSpaces (chars : Chars) : Except Error (Text × Chars) := do
  let (blanks, rest) := chars.takeRun isSpaceOrTab
  if rest.first = endOfText then throw .malformed
  else if isBreak rest.first then
    let (lineBreak, afterBreak) := rest.takeBreak
    let (breaks, rest) ← quotedBreaks rest.length afterBreak
    return (foldBreaks lineBreak breaks, rest)
  else return (blanks, rest)

/-- The body of a quoted scalar, up to and with its closing quote. -/
private def quotedFrom (double : Bool) : Nat → Text → Chars → Except Error (Text × Chars)
  | 0, _, _ => .error .malformed
  | fuel + 1, text, chars =>
      let point := chars.first
      if !double && point = '\''.toNat && chars.peek 1 = '\''.toNat then
        quotedFrom double fuel (text ++ ['\''.toNat]) (chars.skip 2)
      else if point = (if double then '"'.toNat else '\''.toNat) then .ok (text, chars.skip 1)
      else if double && point = '\\'.toNat then do
        let (escaped, rest) ← readEscape (chars.skip 1)
        quotedFrom double fuel (text ++ escaped) rest
      else if isGap point then do
        let (spaces, rest) ← quotedSpaces chars
        quotedFrom double fuel (text ++ spaces) rest
      else
        let (run, rest) := chars.takeRun fun point =>
          !(isGap point || point = '\''.toNat || point = '"'.toNat || point = '\\'.toNat)
        if run.isEmpty then quotedFrom double fuel (text ++ [point]) (chars.skip 1)
        else quotedFrom double fuel (text ++ run) rest

/-- A scalar in single or double quotes. -/
def readQuoted (double : Bool) (chars : Chars) : Except Error (Text × Chars) :=
  quotedFrom double chars.length [] (chars.skip 1)

/-! ## Block scalars -/

/-- What becomes of the line breaks at the end of a block scalar. -/
inductive Chomping where
  | strip
  | clip
  | keep
deriving DecidableEq

private def chomping? (point : CodePoint) : Option Chomping :=
  if point = '+'.toNat then some .keep else if point = '-'.toNat then some .strip else none

private def increment? (point : CodePoint) : Option Nat :=
  if point.isAsciiDigit then some (point - '0'.toNat) else none

/-- The indicators of a block scalar, in either order. -/
private def readIndicators (chars : Chars) : Except Error ((Chomping × Option Nat) × Chars) := do
  let (chomping, increment, rest) :=
    match chomping? chars.first, increment? chars.first with
    | some chomping, _ =>
        match increment? (chars.peek 1) with
        | some increment => (chomping, some increment, chars.skip 2)
        | none => (chomping, none, chars.skip 1)
    | none, some increment =>
        match chomping? (chars.peek 1) with
        | some chomping => (chomping, some increment, chars.skip 2)
        | none => (Chomping.clip, some increment, chars.skip 1)
    | none, none => (Chomping.clip, none, chars)
  if increment = some 0 || !isSpaceBreakOrEnd rest.first then throw .malformed
  return ((chomping, increment), rest)

/-- Blanks and a comment up to the end of the line, and the end of the line. -/
private def readIgnoredLine (chars : Chars) : Except Error Chars :=
  let rest := chars.dropSpaces.dropComment
  if isBreakOrEnd rest.first then .ok rest.takeBreak.2 else .error .malformed

/-- Empty lines before the first line of a block scalar, and the deepest column met in them. -/
private def detectIndent : Nat → Nat → Chars → Text × Nat × Chars
  | 0, deepest, chars => ([], deepest, chars)
  | fuel + 1, deepest, chars =>
      if chars.first = ' '.toNat then
        let rest := chars.skip 1
        detectIndent fuel (max deepest rest.column) rest
      else if isBreak chars.first then
        let (lineBreak, rest) := chars.takeBreak
        let (breaks, deepest, rest) := detectIndent fuel deepest rest
        (lineBreak ++ breaks, deepest, rest)
      else ([], deepest, chars)

/-- Drops blanks as far as a column. -/
private def dropIndent (indent : Nat) : Chars → Chars
  | [] => []
  | marked :: rest =>
      if marked.mark.column < indent && marked.point = ' '.toNat then dropIndent indent rest
      else marked :: rest

/-- Empty lines of a block scalar of known indentation. -/
private def blockBreaks (indent : Nat) : Nat → Chars → Text × Chars
  | 0, chars => ([], dropIndent indent chars)
  | fuel + 1, chars =>
      let chars := dropIndent indent chars
      if isBreak chars.first then
        let (lineBreak, rest) := chars.takeBreak
        let (breaks, rest) := blockBreaks indent fuel rest
        (lineBreak ++ breaks, rest)
      else ([], chars)

/-- The lines of a block scalar. `breaks` are the line breaks met since the last line; the answer
holds the text, the break of its last line and the breaks after it. -/
private def blockLines (folded : Bool) (indent : Nat) :
    Nat → Text → Text → Chars → Text × Text × Text × Chars
  | 0, text, breaks, chars => (text, [], breaks, chars)
  | fuel + 1, text, breaks, chars =>
      let startsBlank := isSpaceOrTab chars.first
      let (line, rest) := chars.takeRun fun point => !isBreakOrEnd point
      let (lineBreak, rest) := rest.takeBreak
      let text := text ++ breaks ++ line
      let (breaks, rest) := blockBreaks indent rest.length rest
      if rest.column = indent && rest.first ≠ endOfText then
        let folds :=
          folded && lineBreak = ['\n'.toNat] && !startsBlank && !isSpaceOrTab rest.first
        let joint : Text :=
          if folds then (if breaks.isEmpty then [' '.toNat] else []) else lineBreak
        blockLines folded indent fuel (text ++ joint) breaks rest
      else (text, lineBreak, breaks, rest)

/-- A literal or folded scalar, inside a block of an indentation. -/
def readBlock (folded : Bool) (outer : Int) (chars : Chars) : Except Error (Text × Chars) := do
  let ((chomping, increment), rest) ← readIndicators (chars.skip 1)
  let rest ← readIgnoredLine rest
  let least := (max (outer + 1) 1).toNat
  let (breaks, indent, rest) :=
    match increment with
    | none =>
        let (breaks, deepest, rest) := detectIndent rest.length 0 rest
        (breaks, max least deepest, rest)
    | some increment =>
        let indent := least + increment - 1
        let (breaks, rest) := blockBreaks indent rest.length rest
        (breaks, indent, rest)
  let (text, lineBreak, breaks, rest) :=
    if rest.column = indent && rest.first ≠ endOfText then
      blockLines folded indent rest.length [] breaks rest
    else ([], [], breaks, rest)
  let ending : Text :=
    match chomping with
    | .strip => []
    | .clip => lineBreak
    | .keep => lineBreak ++ breaks
  return (text ++ ending, rest)

/-! ## Names, tags and directives -/

private def isNameCharacter (point : CodePoint) : Bool :=
  point.isAsciiAlphanumeric || point = '-'.toNat || point = '_'.toNat

/-- Characters that may follow an anchor or an alias. -/
private def endsAnchor (point : CodePoint) : Bool :=
  isGap point || (Text.ofString "?:,]\x7d%@\x60").elem point

/-- The name of an anchor or alias, after its indicator. -/
def readAnchor (chars : Chars) : Except Error (Text × Chars) :=
  let (name, rest) := (chars.skip 1).takeRun isNameCharacter
  if name.isEmpty || !endsAnchor rest.first then .error .malformed else .ok (name, rest)

private def isUriCharacter (point : CodePoint) : Bool :=
  point.isAsciiAlphanumeric || (Text.ofString "-;/?:@&=+$,_.!~*'()[]").elem point

/-- The bytes that a run of percent escapes stands for. -/
private def percentBytes : Nat → Chars → Except Error (Bytes × Chars)
  | 0, chars => .ok ([], chars)
  | fuel + 1, chars =>
      if chars.first = '%'.toNat then do
        let digits := ((chars.skip 1).take 2).map (·.point)
        if digits.length < 2 || !digits.all CodePoint.isHexDigit then throw .malformed
        let byte := UInt8.ofNat (Text.numeral 16 (digits.map CodePoint.hexValue))
        let (bytes, rest) ← percentBytes fuel (chars.skip 3)
        return (byte :: bytes, rest)
      else .ok ([], chars)

private def uriFrom : Nat → Text → Chars → Except Error (Text × Chars)
  | 0, text, chars => .ok (text, chars)
  | fuel + 1, text, chars =>
      let (run, rest) := chars.takeRun isUriCharacter
      if rest.first = '%'.toNat then do
        let (bytes, rest) ← percentBytes rest.length rest
        match Bytes.utf8Text? bytes with
        | some decoded => uriFrom fuel (text ++ run ++ decoded) rest
        | none => throw .malformed
      else .ok (text ++ run, rest)

/-- The suffix of a tag, with its percent escapes decoded; at least one character of it is there. -/
private def readUri (chars : Chars) : Except Error (Text × Chars) :=
  if isUriCharacter chars.first || chars.first = '%'.toNat then uriFrom chars.length [] chars
  else .error .malformed

/-- A handle between exclamation marks; a single one is a handle before a blank. -/
private def readHandle (chars : Chars) : Except Error (Text × Chars) :=
  if chars.first ≠ '!'.toNat then .error .malformed
  else
    let (name, rest) := (chars.skip 1).takeRun isNameCharacter
    if name.isEmpty && rest.first = ' '.toNat then .ok ("!", rest)
    else if rest.first = '!'.toNat then .ok ("!" ++ name ++ "!", rest.skip 1)
    else .error .malformed

/-- A tag: verbatim in angle brackets, a single exclamation mark, or a handle with a suffix. -/
def readTag (chars : Chars) : Except Error (Kind × Chars) := do
  let next := chars.peek 1
  let (kind, rest) ←
    if next = '<'.toNat then do
      let (suffix, rest) ← readUri (chars.skip 2)
      if rest.first ≠ '>'.toNat then throw .malformed
      pure (Kind.tag none suffix, rest.skip 1)
    else if isGap next then pure (Kind.tag none "!", chars.skip 1)
    else do
      let word := ((chars.skip 1).takeRun fun point => !isSpaceBreakOrEnd point).1
      let (handle, rest) ←
        if word.elem '!'.toNat then readHandle chars else pure (Text.ofString "!", chars.skip 1)
      let (suffix, rest) ← readUri rest
      pure (Kind.tag (some handle) suffix, rest)
  if !isSpaceBreakOrEnd rest.first then throw .malformed
  return (kind, rest)

private def readDigits (chars : Chars) : Except Error (Nat × Chars) :=
  let (digits, rest) := chars.takeRun CodePoint.isAsciiDigit
  if digits.isEmpty then .error .malformed else .ok (digits.decimalValue, rest)

private def readVersion (chars : Chars) : Except Error (Kind × Chars) := do
  let (major, rest) ← readDigits chars.dropSpaces
  if rest.first ≠ '.'.toNat then throw .malformed
  let (_, rest) ← readDigits (rest.skip 1)
  if !isSpaceBreakOrEnd rest.first then throw .malformed
  return (.version major, rest)

private def readTagHandle (chars : Chars) : Except Error (Kind × Chars) := do
  let (handle, rest) ← readHandle chars.dropSpaces
  if rest.first ≠ ' '.toNat then throw .malformed
  let (stem, rest) ← readUri rest.dropSpaces
  if !isSpaceBreakOrEnd rest.first then throw .malformed
  return (.tagHandle handle stem, rest)

/-- A directive with the rest of its line. Unknown directives are passed over. -/
def readDirective (chars : Chars) : Except Error (Kind × Chars) := do
  let (name, rest) := (chars.skip 1).takeRun isNameCharacter
  if name.isEmpty || !isSpaceBreakOrEnd rest.first then throw .malformed
  let (kind, rest) ←
    if name = Text.ofString "YAML" then readVersion rest
    else if name = Text.ofString "TAG" then readTagHandle rest
    else pure (Kind.unknownDirective, rest.dropRun fun point => !isBreakOrEnd point)
  return (kind, ← readIgnoredLine rest)

end QueryOptions.Yaml.Token
