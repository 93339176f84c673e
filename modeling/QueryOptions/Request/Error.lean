import QueryOptions.Value.Written

/-!
Why the options of a request do not match a schema.
-/

namespace QueryOptions

/-- The shape that a value should have had. -/
inductive Expectation where
  | string
  | integer
  | boolean
  | enumerable
  | hash
deriving DecidableEq, Repr

def Expectation.text : Expectation → Text
  | .string => "string value"
  | .integer => "integer value"
  | .boolean => "boolean value"
  | .enumerable => "enumerable value"
  | .hash => "hash value"

/-- The context says where the value stands, from the inside outwards. -/
inductive OptionError where
  | format (expectation : Expectation) (context : Text)
  | unexpectedOption (name : Value)
  | unexpectedKey (name context : Text)
  | missingOption (name : Text)
  | missingKey (name context : Text)

namespace OptionError

def message : OptionError → Text
  | .format expectation context => "expected " ++ expectation.text ++ " for " ++ context
  | .unexpectedOption name => "unexpected option " ++ name.shown
  | .unexpectedKey name context => "unexpected key " ++ name ++ " for " ++ context
  | .missingOption name => "missing required option " ++ name
  | .missingKey name context => "missing required key " ++ name ++ " for " ++ context

end OptionError

end QueryOptions
