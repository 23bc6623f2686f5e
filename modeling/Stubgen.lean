import Stubgen.Text.Measure
import Stubgen.Text.Search
import Stubgen.Text.Blank
import Stubgen.Text.Unprintable
import Stubgen.Text.Lowercase
import Stubgen.Table
import Stubgen.Ledger
import Stubgen.Text.Quoted
import Stubgen.Text.Utf8
import Stubgen.Defs.Token
import Stubgen.Defs.Form
import Stubgen.Defs.Fault
import Stubgen.Defs.Reading
import Stubgen.Defs.Record
import Stubgen.Files.Path
import Stubgen.Files.Tree
import Stubgen.Error
import Stubgen.Tag
import Stubgen.Event
import Stubgen.Wrapper.Format
import Stubgen.Wrapper.Expression
import Stubgen.Wrapper.Signature
import Stubgen.DocLink
import Stubgen.Namespace.Callable
import Stubgen.Namespace.Class
import Stubgen.Namespace.Basic
import Stubgen.Namespace.Definition
import Stubgen.Override.Basic
import Stubgen.Override.Application
import Stubgen.Constant.Decimal
import Stubgen.Constant.Basic
import Stubgen.Stub.Rendering
import Stubgen.Stub.Location
import Stubgen.Defs.Directive
import Stubgen.Defs.Cache
import Stubgen.Defs.Expansion
import Stubgen.Override.Reading
import Stubgen.Constant.Augmentation
import Stubgen.Interpreter.Basic
import Stubgen.Interpreter.Introspection
import Stubgen.Module.Report
import Stubgen.Module.Building
import Stubgen.Module.Generation
import Stubgen.ModuleList.Json
import Stubgen.ModuleList.Basic
import Stubgen.ModuleList.BuiltIn
import Stubgen.CommandLine
import Stubgen.Run
import Stubgen.Main
import Stubgen.Proofs.Namespace.Operation
import Stubgen.Proofs.Namespace.Integrity
import Stubgen.Proofs.Namespace.Lookup
import Stubgen.Proofs.Namespace.Succession
import Stubgen.Proofs.Defs.CacheTransparency
import Stubgen.Proofs.Defs.Visits
import Stubgen.Proofs.Defs.IncludeRecursion
import Stubgen.Proofs.Defs.Declarations
import Stubgen.Proofs.Defs.Conditions
import Stubgen.Proofs.Defs.Lexemes
import Stubgen.Proofs.Defs.Brackets
import Stubgen.Proofs.Defs.Spelling
import Stubgen.Proofs.Defs.OpenLists
import Stubgen.Proofs.Defs.Acceptance
import Stubgen.Proofs.Namespace.Filling
import Stubgen.Proofs.Namespace.Naming
import Stubgen.Proofs.Namespace.Likeness
import Stubgen.Proofs.Namespace.Order
import Stubgen.Proofs.Namespace.Reapplication
import Stubgen.Proofs.Namespace.Provenance
import Stubgen.Proofs.Override.Telling
import Stubgen.Proofs.Namespace.Overriding
import Stubgen.Proofs.Namespace.Longest
import Stubgen.Proofs.Namespace.BuildSteps
import Stubgen.Proofs.Namespace.Alignment
import Stubgen.Proofs.Namespace.Confinement
import Stubgen.Proofs.Module.Inputs
import Stubgen.Proofs.Module.Isolation
import Stubgen.Proofs.Files.Siblings
import Stubgen.Proofs.Module.Includes
import Stubgen.Proofs.Module.Listing
import Stubgen.Proofs.Defs.Partition
import Stubgen.Proofs.Defs.Rendering
import Stubgen.Proofs.Defs.Concatenation
import Stubgen.Proofs.Text.Occurrence
import Stubgen.Proofs.Text.Offset
import Stubgen.Proofs.Text.Nesting
import Stubgen.Proofs.Text.Trimming
import Stubgen.Proofs.Text.Joining
import Stubgen.Proofs.Wrapper.Backtracking
import Stubgen.Proofs.Wrapper.LongerNames
import Stubgen.Proofs.Wrapper.FirstReturn
import Stubgen.Proofs.Wrapper.Pieces
import Stubgen.Proofs.Wrapper.BuiltTypes
import Stubgen.Proofs.Wrapper.TakenValues
import Stubgen.Proofs.Wrapper.UnknownTypes
import Stubgen.Proofs.Wrapper.Calls
import Stubgen.Proofs.Wrapper.FormatSuffix
import Stubgen.Proofs.Wrapper.ReturnedValues
import Stubgen.Proofs.Entries
import Stubgen.Proofs.Namespace.Augmentation
import Stubgen.Proofs.Text.Words
import Stubgen.Proofs.Override.Blocks
import Stubgen.Proofs.Override.Merging
import Stubgen.Proofs.Override.DepthFirst
import Stubgen.Proofs.Constant.Literals
import Stubgen.Proofs.Namespace.Wrapping
import Stubgen.Proofs.Text.ByteOrder
import Stubgen.Proofs.Sorting
import Stubgen.Proofs.Stub.Constructors
import Stubgen.Proofs.Stub.Arrangement
import Stubgen.Proofs.Stub.References
import Stubgen.Proofs.Files.Writing
import Stubgen.Proofs.Module.Traces
import Stubgen.Proofs.Module.SearchPaths
import Stubgen.Proofs.Stub.Locations
import Stubgen.Proofs.Wrapper.CallArguments
import Stubgen.Proofs.Stub.DocBlocks
import Stubgen.Proofs.Stub.Locations
import Stubgen.Proofs.Wrapper.CallArguments
import Stubgen.Proofs.Stub.DocBlocks
