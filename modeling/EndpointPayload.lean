import EndpointPayload.Collection.Guess
import EndpointPayload.Collection.Inflection
import EndpointPayload.Collection.Naming
import EndpointPayload.CommandLine.Arguments
import EndpointPayload.CommandLine.Command
import EndpointPayload.CommandLine.Run
import EndpointPayload.Decimal.Numeral
import EndpointPayload.Decimal.Order
import EndpointPayload.Decimal.Rounded
import EndpointPayload.Decimal.Shortest
import EndpointPayload.Digest.Sha256
import EndpointPayload.Document.Display
import EndpointPayload.Document.Reference
import EndpointPayload.Document.Schema
import EndpointPayload.Document.Statistics
import EndpointPayload.Document.Tally
import EndpointPayload.Document.Value
import EndpointPayload.Failure
import EndpointPayload.Files.Glob
import EndpointPayload.Files.Ignore
import EndpointPayload.Files.Listing
import EndpointPayload.Files.Path
import EndpointPayload.Files.System
import EndpointPayload.Forecast.Basic
import EndpointPayload.Forecast.Body
import EndpointPayload.Forecast.Field
import EndpointPayload.Forecast.Options
import EndpointPayload.Forecast.Score
import EndpointPayload.Forecast.TypeFamily
import EndpointPayload.Handler.BodyFields
import EndpointPayload.Handler.Context
import EndpointPayload.Handler.Location
import EndpointPayload.Json.Basic
import EndpointPayload.Json.Reader
import EndpointPayload.Json.Record
import EndpointPayload.Json.Writer
import EndpointPayload.Main
import EndpointPayload.Prediction.Basic
import EndpointPayload.Prediction.Prompt
import EndpointPayload.Prediction.Reply
import EndpointPayload.Proofs.Collection.Guess
import EndpointPayload.Proofs.Collection.Inflection
import EndpointPayload.Proofs.Collection.Naming
import EndpointPayload.Proofs.Collection.Plurals
import EndpointPayload.Proofs.Collection.Scaffolding
import EndpointPayload.Proofs.Collection.Strategies
import EndpointPayload.Proofs.CommandLine.Arguments
import EndpointPayload.Proofs.CommandLine.Validated
import EndpointPayload.Proofs.Decimal.Digits
import EndpointPayload.Proofs.Decimal.Equality
import EndpointPayload.Proofs.Decimal.Finite
import EndpointPayload.Proofs.Decimal.Order
import EndpointPayload.Proofs.Decimal.Share
import EndpointPayload.Proofs.Document.Labels
import EndpointPayload.Proofs.Document.Lookup
import EndpointPayload.Proofs.Document.NewValues
import EndpointPayload.Proofs.Document.Reach
import EndpointPayload.Proofs.Document.Reordered
import EndpointPayload.Proofs.Document.Schema
import EndpointPayload.Proofs.Document.Statistics
import EndpointPayload.Proofs.Document.Tally
import EndpointPayload.Proofs.Document.TopLevel
import EndpointPayload.Proofs.Files.Glob
import EndpointPayload.Proofs.Files.Path
import EndpointPayload.Proofs.Files.Place
import EndpointPayload.Proofs.Files.Texts
import EndpointPayload.Proofs.Forecast.BodyTypes
import EndpointPayload.Proofs.Forecast.Coercion
import EndpointPayload.Proofs.Forecast.Degraded
import EndpointPayload.Proofs.Forecast.FieldList
import EndpointPayload.Proofs.Forecast.Merge
import EndpointPayload.Proofs.Forecast.Names
import EndpointPayload.Proofs.Forecast.Numbers
import EndpointPayload.Proofs.Forecast.Plain
import EndpointPayload.Proofs.Forecast.Provenance
import EndpointPayload.Proofs.Forecast.Score
import EndpointPayload.Proofs.Forecast.Suggested
import EndpointPayload.Proofs.Forecast.TimeText
import EndpointPayload.Proofs.Forecast.Written
import EndpointPayload.Proofs.Handler.BodyFields
import EndpointPayload.Proofs.Handler.Code
import EndpointPayload.Proofs.Handler.Definition
import EndpointPayload.Proofs.Handler.Imported
import EndpointPayload.Proofs.Handler.OwnFile
import EndpointPayload.Proofs.Handler.Target
import EndpointPayload.Proofs.Json.Braces
import EndpointPayload.Proofs.Json.Fields
import EndpointPayload.Proofs.Json.Parts
import EndpointPayload.Proofs.Json.Same
import EndpointPayload.Proofs.Json.Spot
import EndpointPayload.Proofs.Prediction.Fence
import EndpointPayload.Proofs.Prediction.Reply
import EndpointPayload.Proofs.Route.Bindings
import EndpointPayload.Proofs.Route.Broken
import EndpointPayload.Proofs.Route.Detection
import EndpointPayload.Proofs.Route.FileConventions
import EndpointPayload.Proofs.Route.Identity
import EndpointPayload.Proofs.Route.Joining
import EndpointPayload.Proofs.Route.LocalMounts
import EndpointPayload.Proofs.Route.Lookup
import EndpointPayload.Proofs.Route.MountChain
import EndpointPayload.Proofs.Route.Mounted
import EndpointPayload.Proofs.Route.Path
import EndpointPayload.Proofs.Route.Refinement
import EndpointPayload.Proofs.Route.SameFile
import EndpointPayload.Proofs.Route.VerbChain
import EndpointPayload.Proofs.Source.Meanings
import EndpointPayload.Proofs.Source.Names
import EndpointPayload.Proofs.Source.Reading
import EndpointPayload.Proofs.Source.Spine
import EndpointPayload.Proofs.Source.Traversal
import EndpointPayload.Proofs.Source.Walk
import EndpointPayload.Proofs.Store.Down
import EndpointPayload.Proofs.Store.Memory
import EndpointPayload.Proofs.Store.Outcome
import EndpointPayload.Proofs.Store.Ranking
import EndpointPayload.Proofs.Store.RelatedIds
import EndpointPayload.Proofs.Store.Repeated
import EndpointPayload.Proofs.Store.Resolution
import EndpointPayload.Proofs.Store.Sampler
import EndpointPayload.Proofs.Store.Sampling
import EndpointPayload.Proofs.Store.Searched
import EndpointPayload.Proofs.Store.Words
import EndpointPayload.Proofs.Text.Basic
import EndpointPayload.Proofs.Text.Bytes
import EndpointPayload.Proofs.Text.Lines
import EndpointPayload.Proofs.Text.Repetitions
import EndpointPayload.Proofs.Text.Table
import EndpointPayload.Proofs.Text.Trim
import EndpointPayload.Proofs.Text.Words
import EndpointPayload.Proofs.Time.Calendar
import EndpointPayload.Proofs.Time.Reading
import EndpointPayload.Proofs.Time.Text
import EndpointPayload.Proofs.Time.Written
import EndpointPayload.Report.Routes
import EndpointPayload.Route.Basic
import EndpointPayload.Route.FileConventions
import EndpointPayload.Route.Imports
import EndpointPayload.Route.MountChain
import EndpointPayload.Route.Mounts
import EndpointPayload.Route.Path
import EndpointPayload.Route.Registration
import EndpointPayload.Route.Specifier
import EndpointPayload.Route.Verb
import EndpointPayload.Route.Workspace
import EndpointPayload.Settings.Basic
import EndpointPayload.Settings.Reader
import EndpointPayload.Snapshot
import EndpointPayload.Source.Calls
import EndpointPayload.Source.Dialect
import EndpointPayload.Source.Grammar.Expression
import EndpointPayload.Source.Grammar.Markup
import EndpointPayload.Source.Grammar.Part
import EndpointPayload.Source.Grammar.Script
import EndpointPayload.Source.Grammar.Statement
import EndpointPayload.Source.Grammar.TypeLevel
import EndpointPayload.Source.Kind
import EndpointPayload.Source.Lexeme
import EndpointPayload.Source.Meaning
import EndpointPayload.Source.Place
import EndpointPayload.Source.Rule
import EndpointPayload.Source.Script
import EndpointPayload.Source.Tree
import EndpointPayload.Store.Basic
import EndpointPayload.Store.Connection
import EndpointPayload.Store.Memory
import EndpointPayload.Store.Sampler
import EndpointPayload.Store.Suggestion
import EndpointPayload.Text.Blank
import EndpointPayload.Text.Lines
import EndpointPayload.Text.Order
import EndpointPayload.Text.Printable
import EndpointPayload.Text.Quoted
import EndpointPayload.Text.Split
import EndpointPayload.Text.Table
import EndpointPayload.Time.Calendar
import EndpointPayload.Time.Timestamp
import EndpointPayload.Toml.Document
import EndpointPayload.Toml.Number
import EndpointPayload.Toml.Reader
import EndpointPayload.Toml.Token
