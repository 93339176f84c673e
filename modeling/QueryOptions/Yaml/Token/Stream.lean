import QueryOptions.Entries
import QueryOptions.Yaml.Token.Scalar

/-!
The tokens of a document. A scalar or collection may turn out to be a key only when the colon after
it is met; until then it is pending at its place in the tokens read so far, and the tokens that make
it a key are put in there. Block structure comes from the columns: a deeper one opens a block
collection, a shallower one closes what stands deeper.
-/

namespace QueryOptions.Yaml

/-- A place in the tokens where a key may turn out to begin. A required one has to. -/
structure PendingKey where
  place : Nat
  required : Bool
  mark : Mark

structure Scanner where
  chars : Chars
  flowLevel : Nat
  /-- The column of the innermost block collection, -1 outside of all. -/
  indent : Int
  outerIndents : List Int
  mayBeginKey : Bool
  /-- At most one pending key for each level of flow collections. -/
  pending : List (Nat × PendingKey)
  /-- Newest first. -/
  tokens : List Token
  finished : Bool

namespace Scanner

def start (text : Text) : Scanner :=
  { chars := Chars.ofText text
    flowLevel := 0
    indent := -1
    outerIndents := []
    mayBeginKey := true
    pending := []
    tokens := []
    finished := false }

def inBlock (scanner : Scanner) : Bool := scanner.flowLevel = 0

def mark (scanner : Scanner) : Mark := scanner.chars.mark

def column (scanner : Scanner) : Int := scanner.chars.column

def emit (scanner : Scanner) (token : Token) : Scanner :=
  { scanner with tokens := token :: scanner.tokens }

/-- Puts a token in at a place counted from the first one. -/
def insertAt (scanner : Scanner) (place : Nat) (token : Token) : Scanner :=
  { scanner with tokens := scanner.tokens.insertIdx (scanner.tokens.length - place) token }

/-! ## Pending keys -/

/-- Keys stand on one line and are not longer than 1024 characters. -/
def isStale (scanner : Scanner) (key : PendingKey) : Bool :=
  key.mark.line ≠ scanner.mark.line || key.mark.index + 1024 < scanner.mark.index

def dropStale (scanner : Scanner) : Except Error Scanner :=
  if scanner.pending.any fun (_, key) => key.required && scanner.isStale key then .error .malformed
  else .ok { scanner with pending := scanner.pending.filter fun (_, key) => !scanner.isStale key }

/-- Gives up the pending key of the current level. -/
def dropPending (scanner : Scanner) : Except Error Scanner :=
  if scanner.pending.any fun (level, key) => level = scanner.flowLevel && key.required then
    .error .malformed
  else
    .ok { scanner with
          pending := scanner.pending.filter fun (level, _) => level ≠ scanner.flowLevel }

/-- Notes that a key may begin here. -/
def notePending (scanner : Scanner) : Except Error Scanner :=
  if scanner.mayBeginKey then do
    let key : PendingKey :=
      { place := scanner.tokens.length
        required := scanner.inBlock && scanner.indent = scanner.column
        mark := scanner.mark }
    let scanner ← scanner.dropPending
    return { scanner with pending := (scanner.flowLevel, key) :: scanner.pending }
  else .ok scanner

/-! ## Indentation -/

/-- Closes the block collections that stand deeper than a column. -/
private def closeBlocks (column : Int) (mark : Mark) :
    List Int → Int → List Token → Int × List Int × List Token
  | [], indent, tokens => (indent, [], tokens)
  | outer :: outers, indent, tokens =>
      if column < indent then
        closeBlocks column mark outers outer (⟨.blockEnd, mark, mark⟩ :: tokens)
      else (indent, outer :: outers, tokens)

def unwind (scanner : Scanner) (column : Int) : Scanner :=
  if scanner.inBlock then
    let (indent, outers, tokens) :=
      closeBlocks column scanner.mark scanner.outerIndents scanner.indent scanner.tokens
    { scanner with indent := indent, outerIndents := outers, tokens := tokens }
  else scanner

def deepen (scanner : Scanner) (column : Int) : Scanner :=
  { scanner with indent := column, outerIndents := scanner.indent :: scanner.outerIndents }

/-- Opens a block collection at the current column if it is deeper than the one around it. -/
def openBlock (scanner : Scanner) (kind : Token.Kind) : Scanner :=
  if scanner.indent < scanner.column then
    (scanner.deepen scanner.column).emit ⟨kind, scanner.mark, scanner.mark⟩
  else scanner

/-! ## Tokens by their first character -/

/-- Emits a token of so many characters. -/
def emitIndicator (scanner : Scanner) (kind : Token.Kind) (width : Nat) : Scanner :=
  let rest := scanner.chars.skip width
  { scanner with chars := rest }.emit ⟨kind, scanner.mark, rest.mark⟩

private def endStream (scanner : Scanner) : Except Error Scanner := do
  let scanner ← (scanner.unwind (-1)).dropPending
  return { scanner with mayBeginKey := false, pending := [], finished := true }.emitIndicator
    .streamEnd 0

private def directive (scanner : Scanner) : Except Error Scanner := do
  let scanner ← (scanner.unwind (-1)).dropPending
  let (kind, rest) ← Token.readDirective scanner.chars
  return { scanner with mayBeginKey := false, chars := rest }.emit ⟨kind, scanner.mark, rest.mark⟩

private def documentSeparator (scanner : Scanner) (kind : Token.Kind) : Except Error Scanner := do
  let scanner ← (scanner.unwind (-1)).dropPending
  return { scanner with mayBeginKey := false }.emitIndicator kind 3

private def openFlow (scanner : Scanner) (kind : Token.Kind) : Except Error Scanner := do
  let scanner ← scanner.notePending
  return { scanner with flowLevel := scanner.flowLevel + 1, mayBeginKey := true }.emitIndicator
    kind 1

private def closeFlow (scanner : Scanner) (kind : Token.Kind) : Except Error Scanner := do
  let scanner ← scanner.dropPending
  return { scanner with flowLevel := scanner.flowLevel - 1, mayBeginKey := false }.emitIndicator
    kind 1

private def flowEntry (scanner : Scanner) : Except Error Scanner := do
  let scanner ← { scanner with mayBeginKey := true }.dropPending
  return scanner.emitIndicator .flowEntry 1

private def blockEntry (scanner : Scanner) : Except Error Scanner := do
  if scanner.inBlock && !scanner.mayBeginKey then throw .malformed
  let scanner := if scanner.inBlock then scanner.openBlock .blockSequenceStart else scanner
  let scanner ← { scanner with mayBeginKey := true }.dropPending
  return scanner.emitIndicator .blockEntry 1

private def explicitKey (scanner : Scanner) : Except Error Scanner := do
  if scanner.inBlock && !scanner.mayBeginKey then throw .malformed
  let scanner := if scanner.inBlock then scanner.openBlock .blockMappingStart else scanner
  let scanner ← { scanner with mayBeginKey := scanner.inBlock }.dropPending
  return scanner.emitIndicator .key 1

/-- Makes the pending key a key, and the first key of a block mapping if it stands deeper than the
block around it. -/
private def confirmKey (scanner : Scanner) (key : PendingKey) : Scanner :=
  let pending := scanner.pending.filter fun (level, _) => level ≠ scanner.flowLevel
  let scanner := { scanner with pending := pending, mayBeginKey := false }
  let scanner := scanner.insertAt key.place ⟨.key, key.mark, key.mark⟩
  if scanner.inBlock && scanner.indent < (key.mark.column : Int) then
    (scanner.deepen key.mark.column).insertAt key.place ⟨.blockMappingStart, key.mark, key.mark⟩
  else scanner

private def valueIndicator (scanner : Scanner) : Except Error Scanner := do
  match Entries.find? scanner.flowLevel scanner.pending with
  | some key => return (scanner.confirmKey key).emitIndicator .value 1
  | none =>
      if scanner.inBlock && !scanner.mayBeginKey then throw .malformed
      let scanner := if scanner.inBlock then scanner.openBlock .blockMappingStart else scanner
      let scanner ← { scanner with mayBeginKey := scanner.inBlock }.dropPending
      return scanner.emitIndicator .value 1

/-- Emits a token with the characters that its reader took. -/
private def emitRead (scanner : Scanner) (kind : Token.Kind) (rest : Chars) : Scanner :=
  { scanner with chars := rest, mayBeginKey := false }.emit ⟨kind, scanner.mark, rest.mark⟩

private def aliasOrAnchor (scanner : Scanner) (kind : Text → Token.Kind) :
    Except Error Scanner := do
  let scanner ← scanner.notePending
  let (name, rest) ← Token.readAnchor scanner.chars
  return scanner.emitRead (kind name) rest

private def tag (scanner : Scanner) : Except Error Scanner := do
  let scanner ← scanner.notePending
  let (kind, rest) ← Token.readTag scanner.chars
  return scanner.emitRead kind rest

private def blockScalar (scanner : Scanner) (folded : Bool) : Except Error Scanner := do
  let scanner ← scanner.dropPending
  let (text, rest) ← Token.readBlock folded scanner.indent scanner.chars
  return { scanner.emitRead (.scalar text false) rest with mayBeginKey := true }

private def quotedScalar (scanner : Scanner) (double : Bool) : Except Error Scanner := do
  let scanner ← scanner.notePending
  let (text, rest) ← Token.readQuoted double scanner.chars
  return scanner.emitRead (.scalar text false) rest

private def plainScalar (scanner : Scanner) : Except Error Scanner := do
  let scanner ← scanner.notePending
  let (plain, rest) := Token.readPlain (!scanner.inBlock) scanner.indent scanner.chars
  return { scanner with chars := rest, mayBeginKey := plain.mayBeginKey }.emit
    ⟨.scalar plain.text true, scanner.mark, plain.finish⟩

/-- Characters that begin no plain scalar, or only before something that is not a gap. -/
private def indicators : Text := "-?:,[]\x7b\x7d#&*!|>'\"%@\x60"

private def beginsPlain (inBlock : Bool) (point next : CodePoint) : Bool :=
  !(isGap point || indicators.elem point) ||
    (!isGap next && (point = '-'.toNat || (inBlock && (point = '?'.toNat || point = ':'.toNat))))

/-- Passes over blanks, comments and line breaks. In a block a new line may begin a key. -/
private def toNextToken : Nat → Bool → Bool → Chars → Bool × Chars
  | 0, _, mayBeginKey, chars => (mayBeginKey, chars)
  | fuel + 1, inBlock, mayBeginKey, chars =>
      let chars := chars.dropSpaces.dropComment
      if isBreak chars.first then
        toNextToken fuel inBlock (mayBeginKey || inBlock) chars.takeBreak.2
      else (mayBeginKey, chars)

private def dropByteOrderMark (chars : Chars) : Chars :=
  if chars.mark.index = 0 && chars.first = byteOrderMark then chars.skip 1 else chars

private def isChar (point : CodePoint) (character : Char) : Bool := point = character.toNat

/-- Reads the next token, together with the block ends before it. -/
def step (scanner : Scanner) : Except Error Scanner := do
  let (mayBeginKey, chars) :=
    toNextToken scanner.chars.length scanner.inBlock scanner.mayBeginKey
      (dropByteOrderMark scanner.chars)
  let scanner ← { scanner with chars := chars, mayBeginKey := mayBeginKey }.dropStale
  let scanner := scanner.unwind scanner.column
  let is := isChar chars.first
  let next := chars.peek 1
  let indicates := !scanner.inBlock || isGap next
  let atLineStart := chars.column = 0
  if chars.first = endOfText then scanner.endStream
  else if is '%' && atLineStart then scanner.directive
  else if is '-' && atLineStart && chars.atSeparator then scanner.documentSeparator .documentStart
  else if is '.' && atLineStart && chars.atSeparator then scanner.documentSeparator .documentEnd
  else if is '[' then scanner.openFlow .flowSequenceStart
  else if is '\x7b' then scanner.openFlow .flowMappingStart
  else if is ']' then scanner.closeFlow .flowSequenceEnd
  else if is '\x7d' then scanner.closeFlow .flowMappingEnd
  else if is ',' then scanner.flowEntry
  else if is '-' && isGap next then scanner.blockEntry
  else if is '?' && indicates then scanner.explicitKey
  else if is ':' && indicates then scanner.valueIndicator
  else if is '*' then scanner.aliasOrAnchor .alias
  else if is '&' then scanner.aliasOrAnchor .anchor
  else if is '!' then scanner.tag
  else if is '|' && scanner.inBlock then scanner.blockScalar false
  else if is '>' && scanner.inBlock then scanner.blockScalar true
  else if is '\'' then scanner.quotedScalar false
  else if is '"' then scanner.quotedScalar true
  else if beginsPlain scanner.inBlock chars.first next then scanner.plainScalar
  else throw .malformed

end Scanner

/-- The tokens of a document up to the first place that cannot be read, with what is wrong there. -/
structure TokenStream where
  tokens : List Token
  failure : Error

namespace TokenStream

private def scanFrom : Nat → Scanner → TokenStream
  | 0, scanner => ⟨scanner.tokens.reverse, .malformed⟩
  | fuel + 1, scanner =>
      match scanner.step with
      | .error failure => ⟨scanner.tokens.reverse, failure⟩
      | .ok next => if next.finished then ⟨next.tokens.reverse, .malformed⟩ else scanFrom fuel next

/-- Every step but the last takes at least one character. -/
def ofText (text : Text) : TokenStream :=
  if text.all isAllowed then scanFrom (text.length + 1) (.start text) else ⟨[], .malformed⟩

end TokenStream

end QueryOptions.Yaml
