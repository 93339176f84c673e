import QueryOptions.Descriptor.Kind
import QueryOptions.Value.Written

/-!
Why a declaration does not make a schema.
-/

namespace QueryOptions

/-- The owner of a descriptor is the wire name of the option or member that it stands on. -/
inductive SchemaError where
  | descriptorName (given : Value)
  | unknownDescriptor (name : Text)
  | descriptorEntries (given : Value)
  | missingArgument (kind : DescriptorKind) (owner : Text)
  | unexpectedArgument (kind : DescriptorKind) (owner : Text)
  | descriptorList (owner : Text) (given : Value)
  | member (owner : Text) (given : Value)
  | members (owner : Text) (given : Value)
  | noEntry
  | manyEntries
  | description (name : Text) (given : Value)
  | declaration (given : Value)
  | configuration (given : Value)
  /-- A configuration that has no items to go through; no declaration was met at all. -/
  | notIterable (given : Value)

namespace SchemaError

def message : SchemaError → Text
  | .descriptorName given => "Descriptor name must be a non-empty string, got: " ++ given.written
  | .unknownDescriptor name =>
      "Unknown descriptor '" ++ name ++ "'. Valid descriptors: " ++
        Text.join ", " (DescriptorKind.all.map DescriptorKind.name)
  | .descriptorEntries given =>
      "Descriptor with an argument must be a single-entry mapping, got: " ++ given.written
  | .missingArgument kind owner =>
      "Descriptor '" ++ kind.name ++ "' on " ++ owner ++ " requires an argument"
  | .unexpectedArgument kind owner =>
      "Descriptor '" ++ kind.name ++ "' on " ++ owner ++ " does not take an argument"
  | .descriptorList owner given =>
      "Invalid descriptor list for " ++ owner ++ ": " ++ given.written
  | .member owner given =>
      "Invalid structure member declaration for " ++ owner ++ ": " ++ given.written
  | .members owner given =>
      "Structure members of " ++ owner ++ " must be a mapping or a list, got " ++ given.written
  | .noEntry => "passed empty hash where an option was expected"
  | .manyEntries => "too many entries in option description"
  | .description name given =>
      "expected an array for value description of option " ++ name ++ ", got " ++ given.written
  | .declaration given =>
      "Option declaration must be a name or a mapping, got: " ++ given.written
  | .configuration given =>
      "Schema configuration must be a list or a mapping, got: " ++ given.written
  | .notIterable given => "'" ++ given.qualifiedTypeName ++ "' object is not iterable"

end SchemaError

end QueryOptions
