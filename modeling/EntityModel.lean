import EntityModel.CommandLine.Arguments
import EntityModel.CommandLine.Command
import EntityModel.CommandLine.Environment
import EntityModel.CommandLine.Machine
import EntityModel.CommandLine.Moment
import EntityModel.CommandLine.Run
import EntityModel.CommandLine.Summary
import EntityModel.Config.Basic
import EntityModel.Config.Document
import EntityModel.Document.Basic
import EntityModel.Document.Record
import EntityModel.ErrorRecord
import EntityModel.Files.Path
import EntityModel.Files.Tree
import EntityModel.Generator
import EntityModel.Json.Lexeme
import EntityModel.Json.Printer
import EntityModel.Json.Reader
import EntityModel.Main
import EntityModel.Model.Attribute
import EntityModel.Model.Basic
import EntityModel.Model.Normalized
import EntityModel.Model.Reference
import EntityModel.Naming
import EntityModel.Number.Basic
import EntityModel.Number.Binary64
import EntityModel.Number.Numeral
import EntityModel.Number.Shortest
import EntityModel.Order.Graph
import EntityModel.Order.Rounds
import EntityModel.OrderedMap
import EntityModel.Parse.Dispatch
import EntityModel.Parse.Event
import EntityModel.Participant
import EntityModel.Proofs.Agreement
import EntityModel.Proofs.Config.Grammar
import EntityModel.Proofs.Config.RoundTrip
import EntityModel.Proofs.Config.Tables
import EntityModel.Proofs.Document.Parts
import EntityModel.Proofs.Document.Records
import EntityModel.Proofs.Document.SameTree
import EntityModel.Proofs.Document.Values
import EntityModel.Proofs.ErrorRecord
import EntityModel.Proofs.ErrorRecord.Calls
import EntityModel.Proofs.ErrorRecord.Filing
import EntityModel.Proofs.Generator.Builder
import EntityModel.Proofs.Generator.Correspondence
import EntityModel.Proofs.Json.Lexemes
import EntityModel.Proofs.Json.RoundTrip
import EntityModel.Proofs.Lists
import EntityModel.Proofs.Model.Grammar
import EntityModel.Proofs.Model.NormalizedRoundTrip
import EntityModel.Proofs.Model.RoundTrip
import EntityModel.Proofs.Naming
import EntityModel.Proofs.Order.Emission
import EntityModel.Proofs.Order.Graph
import EntityModel.Proofs.Order.History
import EntityModel.Proofs.Order.Paths
import EntityModel.Proofs.Order.Rounds
import EntityModel.Proofs.OrderedMap
import EntityModel.Proofs.Parse.Calls
import EntityModel.Proofs.Parse.Canonical
import EntityModel.Proofs.Parse.Delivery
import EntityModel.Proofs.Parse.Events
import EntityModel.Proofs.Parse.History
import EntityModel.Proofs.Parse.Idempotence
import EntityModel.Proofs.Parse.Independence
import EntityModel.Proofs.Rearrangement
import EntityModel.Proofs.Report
import EntityModel.Proofs.Schema.Builder
import EntityModel.Proofs.Schema.Connections
import EntityModel.Proofs.Schema.Context
import EntityModel.Proofs.Schema.Identifiers
import EntityModel.Proofs.Schema.Objects
import EntityModel.Proofs.Schema.RelayLiterals
import EntityModel.Proofs.Schema.RelayNodes
import EntityModel.Proofs.Schema.RelayText
import EntityModel.Proofs.Template.Pieces
import EntityModel.Proofs.Text.Case
import EntityModel.Proofs.Text.Caseless
import EntityModel.Proofs.Text.Literal
import EntityModel.Proofs.Text.Spelling
import EntityModel.Proofs.Text.Words
import EntityModel.Proofs.Validator.Announcement
import EntityModel.Proofs.Validator.Defaulting
import EntityModel.Proofs.Validator.Defects
import EntityModel.Proofs.Validator.Dependencies
import EntityModel.Proofs.Validator.History
import EntityModel.Proofs.Validator.NormalForm
import EntityModel.Proofs.Validator.Operations
import EntityModel.Proofs.Validator.Parse
import EntityModel.Proofs.Validator.Readable
import EntityModel.Proofs.Validator.Standalone
import EntityModel.Proofs.Validator.Step
import EntityModel.Proofs.Validator.Targets
import EntityModel.Report
import EntityModel.Schema.Builder
import EntityModel.Schema.Object
import EntityModel.Schema.RelayTemplate
import EntityModel.Schema.Render
import EntityModel.Template.Basic
import EntityModel.Template.Expression
import EntityModel.Template.Segment
import EntityModel.Template.Value
import EntityModel.Text.Case
import EntityModel.Text.CaseTable
import EntityModel.Text.ClusterTable
import EntityModel.Text.Words
import EntityModel.Toml.Assembly
import EntityModel.Toml.Lexical
import EntityModel.Toml.Printer
import EntityModel.Toml.Reader
import EntityModel.Toml.Scalar
import EntityModel.Validator
import EntityModel.Value
