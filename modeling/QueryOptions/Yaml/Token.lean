import QueryOptions.Yaml.Marked

/-!
Tokens of a document.
-/

namespace QueryOptions.Yaml

/-- What a token is; the beginnings and ends of block collections stand where the indentation
changes. -/
inductive Token.Kind where
  | version (major : Nat)
  | tagHandle (handle stem : Text)
  | unknownDirective
  | documentStart
  | documentEnd
  | streamEnd
  | blockSequenceStart
  | blockMappingStart
  | blockEnd
  | flowSequenceStart
  | flowSequenceEnd
  | flowMappingStart
  | flowMappingEnd
  | flowEntry
  | blockEntry
  | key
  | value
  | alias (name : Text)
  | anchor (name : Text)
  /-- Without a handle the suffix is the tag itself. -/
  | tag (handle : Option Text) (suffix : Text)
  | scalar (text : Text) (plain : Bool)
deriving DecidableEq, Repr

structure Token where
  kind : Token.Kind
  start : Mark
  finish : Mark
deriving Repr

end QueryOptions.Yaml
