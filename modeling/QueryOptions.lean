import QueryOptions.Calendar
import QueryOptions.Catalog.Basic
import QueryOptions.Catalog.Error
import QueryOptions.Catalog.Layout
import QueryOptions.Catalog.Operations
import QueryOptions.Catalog.Reader
import QueryOptions.Catalog.Shape
import QueryOptions.Catalog.Version
import QueryOptions.CommandLine.Arguments
import QueryOptions.CommandLine.Run
import QueryOptions.Descriptor.Basic
import QueryOptions.Descriptor.Kind
import QueryOptions.Entries
import QueryOptions.File.Path
import QueryOptions.File.Tree
import QueryOptions.Leaf
import QueryOptions.Lint.FileName
import QueryOptions.Lint.Files
import QueryOptions.Lint.Finding
import QueryOptions.Lint.Naming
import QueryOptions.Lint.Report
import QueryOptions.Lint.Structure
import QueryOptions.Logging
import QueryOptions.Main
import QueryOptions.Naming
import QueryOptions.Node.Basic
import QueryOptions.Node.Extend
import QueryOptions.Number.Binary64
import QueryOptions.Number.Shortest
import QueryOptions.Param
import QueryOptions.Proofs.Declaring
import QueryOptions.Proofs.DistinctNames
import QueryOptions.Proofs.Indexing
import QueryOptions.Proofs.Emission
import QueryOptions.Proofs.Level
import QueryOptions.Proofs.Linting
import QueryOptions.Proofs.Loading
import QueryOptions.Proofs.Lookup
import QueryOptions.Proofs.NamingLint
import QueryOptions.Proofs.ParamNames
import QueryOptions.Proofs.Reachable
import QueryOptions.Proofs.Reading
import QueryOptions.Proofs.Request
import QueryOptions.Proofs.StructureLint
import QueryOptions.Proofs.Validation
import QueryOptions.Proofs.Violation
import QueryOptions.Proofs.Visit
import QueryOptions.Request.Error
import QueryOptions.Request.Params
import QueryOptions.Request.Validation
import QueryOptions.Schema.Basic
import QueryOptions.Schema.Error
import QueryOptions.Settings
import QueryOptions.Sorting
import QueryOptions.Source.Location
import QueryOptions.Source.Pointer
import QueryOptions.Text.Base64
import QueryOptions.Text.Basic
import QueryOptions.Text.Blank
import QueryOptions.Text.Digit
import QueryOptions.Text.Json
import QueryOptions.Text.LowerCase
import QueryOptions.Text.Quoted
import QueryOptions.Text.UpperCase
import QueryOptions.Text.Utf8
import QueryOptions.Text.Visible
import QueryOptions.Value.Basic
import QueryOptions.Value.Written
import QueryOptions.Yaml.Document
import QueryOptions.Yaml.Error
import QueryOptions.Yaml.Marked
import QueryOptions.Yaml.Node
import QueryOptions.Yaml.Node.Compose
import QueryOptions.Yaml.Tag
import QueryOptions.Yaml.Timestamp
import QueryOptions.Yaml.Token
import QueryOptions.Yaml.Token.Scalar
import QueryOptions.Yaml.Token.Stream
import QueryOptions.Proofs.Acceptance
import QueryOptions.Proofs.Repetition
import QueryOptions.Proofs.Lineage
import QueryOptions.Proofs.Building
import QueryOptions.Proofs.Recovery
import QueryOptions.Proofs.Customizing
import QueryOptions.Proofs.Addition
import QueryOptions.Proofs.Soundness
import QueryOptions.Proofs.Reordering
import QueryOptions.Proofs.Required
import QueryOptions.Proofs.Circles
import QueryOptions.Proofs.LoadErrors
import QueryOptions.Proofs.Caching
import QueryOptions.Proofs.Independence
import QueryOptions.Proofs.OptionShape
import QueryOptions.Proofs.JsonNotation
import QueryOptions.Proofs.SplitStreams
import QueryOptions.Proofs.Reporting
import QueryOptions.Proofs.BaseChains
import QueryOptions.Proofs.EmptyLists
import QueryOptions.Proofs.Modifiers
import QueryOptions.Proofs.SharedNames
import QueryOptions.Proofs.Words
import QueryOptions.Proofs.BindingNames
import QueryOptions.Proofs.NameForms
import QueryOptions.Proofs.NameWarnings
import QueryOptions.Proofs.Renaming
import QueryOptions.Proofs.Sorted
import QueryOptions.Proofs.FileTrees
import QueryOptions.Proofs.FileSearch
import QueryOptions.Proofs.SourceLookup
import QueryOptions.Proofs.Places
import QueryOptions.Proofs.UntaggedTrees
import QueryOptions.Proofs.Locating
import QueryOptions.Proofs.IssueOrder
import QueryOptions.Proofs.FindingOrigins
import QueryOptions.Proofs.BundledLayouts
import QueryOptions.Proofs.FoundFiles
import QueryOptions.Proofs.DeclaredLines
import QueryOptions.Proofs.FindingLines
import QueryOptions.Proofs.Annotations
import QueryOptions.Proofs.Blobs
import QueryOptions.Proofs.VersionTexts
import QueryOptions.Proofs.Pointers
import QueryOptions.Proofs.DescriptorTokens
