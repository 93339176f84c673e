import QueryOptions.Logging
import QueryOptions.Text.LowerCase
import QueryOptions.Text.UpperCase

/-!
Settings of the tools, as far as the environment gives them.
-/

namespace QueryOptions

/-- What the logging library keeps under names in capitals, apart from levels. -/
inductive NoLevel where
  | lineFormat
  | styles
deriving DecidableEq, Repr

namespace NoLevel

def name : NoLevel → Text
  | .lineFormat => "BASIC_FORMAT"
  | .styles => "_STYLES"

def ofName? (name : Text) : Option NoLevel :=
  [NoLevel.lineFormat, .styles].find? fun given => given.name == name

def typeName : NoLevel → Text
  | .lineFormat => "str"
  | .styles => "dict"

def quoted : NoLevel → Text
  | .lineFormat => "'%(levelname)s:%(name)s:%(message)s'"
  | .styles =>
      "\x7b'%': (<class 'logging.PercentStyle'>, '%(levelname)s:%(name)s:%(message)s'), " ++
        "'\x7b': (<class 'logging.StrFormatStyle'>, '\x7blevelname\x7d:\x7bname\x7d:\x7bmessage\x7d'), " ++
        "'$': (<class 'logging.StringTemplateStyle'>, " ++
        "'$\x7blevelname\x7d:$\x7bname\x7d:$\x7bmessage\x7d')\x7d"

end NoLevel

/-- Why loggers cannot be set up: something that is no level is set as one, or compared with one. -/
inductive SettingsError where
  | set (given : NoLevel)
  | compared (given : NoLevel)
deriving DecidableEq, Repr

namespace SettingsError

def message : SettingsError → Text
  | .set .lineFormat => "Unknown level: " ++ NoLevel.lineFormat.quoted
  | .set .styles => "Level not an integer or a valid string: " ++ NoLevel.styles.quoted
  | .compared given =>
      "'<' not supported between instances of '" ++ given.typeName ++ "' and 'int'"

def typeName : SettingsError → Text
  | .set .lineFormat => "ValueError"
  | _ => "TypeError"

end SettingsError

/-- The levels are kept as they are given; a name under which nothing is kept stands for the
default. -/
structure Settings where
  logLevel : Text
  printLevel : Text
  caching : Bool
deriving DecidableEq, Repr

namespace Settings

def standard : Settings := ⟨"INFO", "ERROR", true⟩

def logLevelVariable : Text := "OPTION_GRAMMAR_LOG_LEVEL"

def printLevelVariable : Text := "OPTION_GRAMMAR_PRINT_LEVEL"

def cachingVariable : Text := "OPTION_GRAMMAR_CACHE_ENABLED"

/-- The settings for the variables that an environment sets. Caching is off unless its variable is
missing or says `true`, in letters of either case. -/
def ofEnvironment (lookup : Text → Option Text) : Settings :=
  { logLevel := (lookup logLevelVariable).getD standard.logLevel
    printLevel := (lookup printLevelVariable).getD standard.printLevel
    caching := (lookup cachingVariable).all fun text => text.lowerCase = Text.ofString "true" }

/-- The level for a name, or what else is kept under it. -/
def level (name : Text) (default : LogLevel) : Except NoLevel LogLevel :=
  match NoLevel.ofName? name.upperCase with
  | some given => .error given
  | none => .ok ((LogLevel.ofName? name.upperCase).getD default)

/-- The least level of records that are written at all. -/
def recordLevel (settings : Settings) : Except SettingsError LogLevel :=
  (level settings.logLevel LogLevel.info).mapError .set

/-- The least level of records that go to the error stream. -/
def errorLevel (settings : Settings) : Except SettingsError LogLevel :=
  (level settings.printLevel LogLevel.error).mapError .compared

/-- Sets up the logger of the library. -/
def configureLoggers (settings : Settings) (loggers : Loggers) : Except SettingsError Loggers := do
  let recordLevel ← settings.recordLevel
  let errorLevel ← settings.errorLevel
  return loggers.configure (some Loggers.libraryName) recordLevel errorLevel

end Settings

end QueryOptions
