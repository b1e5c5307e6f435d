import RouteDoc.Address
import RouteDoc.Calendar
import RouteDoc.Classification
import RouteDoc.CommandLine
import RouteDoc.CommandLine.Usage
import RouteDoc.Content
import RouteDoc.Datum
import RouteDoc.Datum.Display
import RouteDoc.Datum.Held
import RouteDoc.Datum.Instance
import RouteDoc.Datum.Plain
import RouteDoc.Datum.Same
import RouteDoc.Declaration
import RouteDoc.Description
import RouteDoc.Document
import RouteDoc.Documentation
import RouteDoc.Enumeration
import RouteDoc.Failure
import RouteDoc.Field
import RouteDoc.FileName
import RouteDoc.Folder
import RouteDoc.Json.Printer
import RouteDoc.Json.Reader
import RouteDoc.LogLevel
import RouteDoc.Main
import RouteDoc.Merge
import RouteDoc.Method
import RouteDoc.Number.Binary64
import RouteDoc.Number.Code
import RouteDoc.Number.Complex
import RouteDoc.Number.Decimal
import RouteDoc.Number.Numeral
import RouteDoc.Number.Real
import RouteDoc.Number.Shortest
import RouteDoc.Operation
import RouteDoc.Param
import RouteDoc.PathTemplate
import RouteDoc.Proofs.Atomicity
import RouteDoc.Proofs.KeyPath
import RouteDoc.Proofs.Reachability
import RouteDoc.Reference
import RouteDoc.Reference.Expression
import RouteDoc.Registry
import RouteDoc.RequestParameter
import RouteDoc.Responses
import RouteDoc.Route
import RouteDoc.Schema
import RouteDoc.Settings
import RouteDoc.Settings.Assignments
import RouteDoc.Sharing
import RouteDoc.Slots
import RouteDoc.Text.Base64
import RouteDoc.Text.Blank
import RouteDoc.Text.Digit
import RouteDoc.Text.LetterCase
import RouteDoc.Text.Likeness
import RouteDoc.Text.Printable
import RouteDoc.Text.Quoted
import RouteDoc.Text.Ranges
import RouteDoc.Text.Surrogate
import RouteDoc.Text.Utf8
import RouteDoc.Text.WordClass
import RouteDoc.TypeExpr
import RouteDoc.Uuid
import RouteDoc.Validation
import RouteDoc.Value
import RouteDoc.Workspace
import RouteDoc.Yaml.Cursor
import RouteDoc.Yaml.Escape
import RouteDoc.Yaml.Graph
import RouteDoc.Yaml.Graph.Grammar
import RouteDoc.Yaml.Meaning
import RouteDoc.Yaml.Node
import RouteDoc.Yaml.Node.OfValue
import RouteDoc.Yaml.Printer
import RouteDoc.Yaml.Scalar
import RouteDoc.Yaml.Sheet
import RouteDoc.Yaml.Style
import RouteDoc.Yaml.Tag
import RouteDoc.Yaml.Token
import RouteDoc.Yaml.Token.Lexer
import RouteDoc.Yaml.Token.Property
import RouteDoc.Yaml.Token.Scalar
import RouteDoc.Proofs.Mirror
import RouteDoc.Proofs.Footprint
import RouteDoc.Proofs.Factories
import RouteDoc.Proofs.Publication
import RouteDoc.Proofs.Permutation
import RouteDoc.Proofs.Fragments
import RouteDoc.Proofs.Components
import RouteDoc.Proofs.Completion
import RouteDoc.Proofs.Readers
import RouteDoc.Proofs.Retyping
import RouteDoc.Proofs.Agreement
import RouteDoc.Proofs.Degradation
import RouteDoc.Proofs.Finalization
import RouteDoc.Proofs.TagLog
import RouteDoc.Proofs.Export
import RouteDoc.Proofs.ExportedNames
import RouteDoc.Proofs.JsonLoading
import RouteDoc.Proofs.Effect
import RouteDoc.Proofs.Combination
import RouteDoc.Proofs.Flattening
import RouteDoc.Proofs.DateTimeNotes
import RouteDoc.Proofs.Notices
import RouteDoc.Proofs.Independence
import RouteDoc.Proofs.PathMerging
import RouteDoc.Proofs.Places
import RouteDoc.Proofs.SharedPaths
import RouteDoc.Proofs.Yaml.SharedParts
import RouteDoc.Proofs.PathCleaning
import RouteDoc.Proofs.CleanPaths
import RouteDoc.Proofs.PathParameters
import RouteDoc.Proofs.HandlerParameters
import RouteDoc.Proofs.Aliases
import RouteDoc.Proofs.Wrappers
import RouteDoc.Proofs.ContentMap
import RouteDoc.Proofs.NullablePayloads
import RouteDoc.Proofs.ParameterEntries
import RouteDoc.Proofs.ValueEquality
import RouteDoc.Proofs.SuccessSchemas
import RouteDoc.Proofs.RouteTags
import RouteDoc.Proofs.OverrideExport
import RouteDoc.Proofs.FieldOrder
import RouteDoc.Proofs.EmptySubclasses
import RouteDoc.Proofs.Requirement
