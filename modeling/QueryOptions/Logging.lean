import QueryOptions.Entries
import QueryOptions.Text.Digit

/-!
Log records and the loggers that write them. Loggers form a tree by the dots in their names; a
record goes to the handlers of its logger and of the loggers above it, up to the first one that does
not pass records on. `Loggers.configure` splits the records of one logger between two streams,
`Loggers.emit` says what a record makes written.
-/

namespace QueryOptions

/-- Where a program writes. -/
inductive OutputStream where
  | standard
  | error
deriving DecidableEq, Repr

/-- A piece of text that is written to a stream. -/
structure Printed where
  stream : OutputStream
  text : Text
deriving DecidableEq, Repr

/-- What a list of pieces leaves on one stream. -/
def Printed.onStream (stream : OutputStream) (pieces : List Printed) : Text :=
  (pieces.filter fun piece => piece.stream = stream).flatMap (·.text)

/-- The severity of a record; any integer is one. -/
abbrev LogLevel := Int

namespace LogLevel

def debug : LogLevel := 10
def info : LogLevel := 20
def warning : LogLevel := 30
def error : LogLevel := 40
def critical : LogLevel := 50

/-- A logger with this level has none of its own. -/
def unset : LogLevel := 0

def names : List (Text × LogLevel) :=
  [("CRITICAL", critical), ("ERROR", error), ("WARNING", warning), ("INFO", info),
    ("DEBUG", debug), ("NOTSET", unset)]

/-- Further names under which levels can be asked for. -/
def aliases : List (Text × LogLevel) := [("FATAL", critical), ("WARN", warning)]

def ofName? (name : Text) : Option LogLevel := Entries.find? name (names ++ aliases)

/-- The name of a level in log lines. -/
def toText (level : LogLevel) : Text :=
  match names.find? fun entry => entry.2 = level with
  | some (name, _) => name
  | none => "Level " ++ Text.ofInt level

end LogLevel

structure LogRecord where
  logger : Text
  level : LogLevel
  message : Text
deriving DecidableEq, Repr

/-- Writes records from a level on, perhaps up to another one, to a stream; without a stream it
discards them. -/
structure LogHandler where
  stream : Option OutputStream
  least : LogLevel
  most : Option LogLevel
deriving DecidableEq, Repr

structure Logger where
  level : LogLevel
  propagates : Bool
  handlers : List LogHandler
deriving DecidableEq, Repr

namespace Logger

/-- A logger of which nothing has been said. -/
def untouched : Logger := ⟨LogLevel.unset, true, []⟩

/-- The handlers that a record meets on its way up. -/
def reached : List Logger → List LogHandler
  | [] => []
  | logger :: above => logger.handlers ++ if logger.propagates then reached above else []

/-- The first level that is set on the way up. -/
def effectiveLevel : List Logger → LogLevel
  | [] => LogLevel.unset
  | logger :: above => if logger.level = LogLevel.unset then effectiveLevel above else logger.level

end Logger

/-- The root and the loggers that have been configured by name. -/
structure Loggers where
  root : Logger
  named : List (Text × Logger)
deriving DecidableEq, Repr

namespace Loggers

def rootName : Text := "root"

/-- The logger of the library; the names of all its other loggers begin with this one. -/
def libraryName : Text := "option_grammar"

/-- The loggers as they are before anything is configured. -/
def initial : Loggers := ⟨⟨LogLevel.warning, true, []⟩, []⟩

/-- Whether a name means the root. -/
def isRoot (name : Text) : Bool := name.isEmpty || name = rootName

def displayName (name : Text) : Text := if isRoot name then rootName else name

def get (loggers : Loggers) (name : Text) : Logger :=
  if isRoot name then loggers.root else (Entries.find? name loggers.named).getD .untouched

def put (loggers : Loggers) (name : Text) (logger : Logger) : Loggers :=
  if isRoot name then { loggers with root := logger }
  else { loggers with named := Entries.put name logger loggers.named }

/-- The places of the dots in a text that begins at a place, last first. -/
def dotsBackwards (place : Nat) : Text → List Nat
  | [] => []
  | point :: rest =>
      let later := dotsBackwards (place + 1) rest
      if point = '.'.toNat then later ++ [place] else later

/-- The dots that end a name above: of two dots side by side the first does not count. -/
def endingDots : List Nat → List Nat
  | [] => []
  | [dot] => [dot]
  | dot :: before :: rest =>
      dot :: if before + 1 = dot then endingDots rest else endingDots (before :: rest)

/-- A name and the names above it, nearest first, without the root. -/
def namesUpwards (name : Text) : List Text :=
  let above := (endingDots (dotsBackwards 0 name)).map fun dot => name.take dot
  name :: above.filter fun name => !name.isEmpty

/-- A logger and all the loggers above it, the root last. -/
def upwards (loggers : Loggers) (name : Text) : List Logger :=
  if isRoot name then [loggers.root]
  else
    (namesUpwards name).map (fun name => (Entries.find? name loggers.named).getD .untouched) ++
      [loggers.root]

def effectiveLevel (loggers : Loggers) (name : Text) : LogLevel :=
  Logger.effectiveLevel (loggers.upwards name)

/-- The least level that any handler writes. -/
def leastLevel : LogLevel := LogLevel.debug

/-- Sends records below `errorLevel` to the standard stream and all others to the error stream, in
place of the handlers that the logger has. A logger other than the unnamed root no longer passes
records on. -/
def configure (name : Option Text) (level errorLevel : LogLevel) (loggers : Loggers) : Loggers :=
  let name := name.getD []
  let errorLevel := max errorLevel leastLevel
  loggers.put name
    { level := level
      propagates := name.isEmpty && (loggers.get name).propagates
      handlers :=
        [⟨some .standard, leastLevel, some (errorLevel - 1)⟩, ⟨some .error, errorLevel, none⟩] }

end Loggers

namespace LogRecord

/-- The line for a record: the logger, the level and the message. -/
def line (record : LogRecord) : Text :=
  Loggers.displayName record.logger ++ " - " ++ record.level.toText ++ " - " ++ record.message ++
    "\n"

end LogRecord

/-- What a handler makes of a record. -/
def LogHandler.write? (handler : LogHandler) (record : LogRecord) : Option Printed :=
  match handler.stream with
  | some stream =>
      if handler.least ≤ record.level && handler.most.all (record.level ≤ ·) then
        some ⟨stream, record.line⟩
      else none
  | none => none

namespace Loggers

/-- What a record makes written. A record of no positive level, or one below the level of its
logger, is written nowhere; where there is no handler at all, the message of a warning or worse
goes to the error stream. -/
def emit (loggers : Loggers) (record : LogRecord) : List Printed :=
  if record.level ≤ 0 || record.level < loggers.effectiveLevel record.logger then []
  else
    match Logger.reached (loggers.upwards record.logger) with
    | [] =>
        if record.level < LogLevel.warning then [] else [⟨.error, record.message ++ "\n"⟩]
    | handlers => handlers.filterMap (·.write? record)

def emitAll (loggers : Loggers) (records : List LogRecord) : List Printed :=
  records.flatMap loggers.emit

end Loggers

end QueryOptions
