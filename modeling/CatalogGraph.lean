import CatalogGraph.Command.Directory
import CatalogGraph.Command.Error
import CatalogGraph.Command.Option
import CatalogGraph.Command.Path
import CatalogGraph.Command.Request
import CatalogGraph.Command.Run
import CatalogGraph.Command.Settings
import CatalogGraph.Command.Usage
import CatalogGraph.Decimal.Shortest
import CatalogGraph.Engine.Row
import CatalogGraph.Engine.Run
import CatalogGraph.Engine.Tokens
import CatalogGraph.Entries
import CatalogGraph.Graph.Basic
import CatalogGraph.Graph.Collector
import CatalogGraph.Graph.NTriples
import CatalogGraph.Graph.Term
import CatalogGraph.Harvest.Error
import CatalogGraph.Harvest.Listing
import CatalogGraph.Harvest.Records
import CatalogGraph.Harvest.Response
import CatalogGraph.Harvest.Sampling
import CatalogGraph.Harvest.State
import CatalogGraph.Identity.Candidate
import CatalogGraph.Identity.Form
import CatalogGraph.Identity.Index
import CatalogGraph.Identity.Resolve
import CatalogGraph.Identity.Similarity
import CatalogGraph.Identity.Slug
import CatalogGraph.Iri
import CatalogGraph.Json.Reader
import CatalogGraph.Json.Value
import CatalogGraph.Json.Writer
import CatalogGraph.Json.Written
import CatalogGraph.JsonPath.Path
import CatalogGraph.LanguageTag
import CatalogGraph.Main
import CatalogGraph.Mapping.BlankNodes
import CatalogGraph.Mapping.Compiled
import CatalogGraph.Mapping.Config
import CatalogGraph.Mapping.Context
import CatalogGraph.Mapping.Error
import CatalogGraph.Mapping.Form
import CatalogGraph.Mapping.Overview
import CatalogGraph.Mapping.Rule
import CatalogGraph.Mapping.Template
import CatalogGraph.Proofs.BlankNumbers
import CatalogGraph.Proofs.CompiledMaps
import CatalogGraph.Proofs.DecidedNames
import CatalogGraph.Proofs.DroppedRows
import CatalogGraph.Proofs.GraphStatements
import CatalogGraph.Proofs.IdentityPasses
import CatalogGraph.Proofs.MapSteps
import CatalogGraph.Proofs.NestedMaps
import CatalogGraph.Proofs.ParentChains
import CatalogGraph.Proofs.QueryPages
import CatalogGraph.Proofs.RowSteps
import CatalogGraph.Proofs.RunCalls
import CatalogGraph.Proofs.RunSteps
import CatalogGraph.Remote.Binding
import CatalogGraph.Remote.Error
import CatalogGraph.Remote.Retry
import CatalogGraph.Remote.Scripted
import CatalogGraph.Remote.Store
import CatalogGraph.Rules.Extract
import CatalogGraph.Rules.Load
import CatalogGraph.Rules.Vocabulary
import CatalogGraph.Source.Node
import CatalogGraph.Source.Table
import CatalogGraph.Text.Alphabetic
import CatalogGraph.Text.Blank
import CatalogGraph.Text.Emoji
import CatalogGraph.Text.Extending
import CatalogGraph.Text.Grid
import CatalogGraph.Text.Ignorable
import CatalogGraph.Text.Lowercase
import CatalogGraph.Text.Numeral
import CatalogGraph.Text.Numeric
import CatalogGraph.Text.Percent
import CatalogGraph.Text.Pieces
import CatalogGraph.Text.Printable
import CatalogGraph.Text.Quoted
import CatalogGraph.Text.Ranges
import CatalogGraph.Text.Uuid
import CatalogGraph.Text.Width
import CatalogGraph.Toml.Document
import CatalogGraph.Toml.Moment
import CatalogGraph.Toml.Scalar
import CatalogGraph.Turtle.Document
import CatalogGraph.Turtle.Token
import CatalogGraph.XPath.Parser
import CatalogGraph.XPath.Select
import CatalogGraph.XPath.Syntax
import CatalogGraph.XPath.Token
import CatalogGraph.Xml.Document
import CatalogGraph.Xml.Event
import CatalogGraph.Xml.Fault
import CatalogGraph.Xml.Reference
import CatalogGraph.Proofs.ListingPages
import CatalogGraph.Proofs.MintedNames
import CatalogGraph.Proofs.CompleteListings
import CatalogGraph.Proofs.TokenRounds
import CatalogGraph.Harvest.Schedule
import CatalogGraph.Proofs.SharedServices
import CatalogGraph.Proofs.RecordSchedules
import CatalogGraph.Proofs.RowWindows
import CatalogGraph.Proofs.GraphGrowth
import CatalogGraph.Proofs.TwinRuns
import CatalogGraph.Proofs.SplitTables
import CatalogGraph.Proofs.SelectedOrder
import CatalogGraph.Proofs.ForeignNodes
import CatalogGraph.Proofs.WrittenPaths
import CatalogGraph.Proofs.DocumentText
import CatalogGraph.Proofs.NamespaceScopes
import CatalogGraph.Proofs.WrittenTables
import CatalogGraph.Proofs.StatementGrammar
import CatalogGraph.Proofs.WrittenStatements
import CatalogGraph.Proofs.BrokenListings
import CatalogGraph.Proofs.SettledGraphs
import CatalogGraph.Proofs.ConvergingNames
import CatalogGraph.Proofs.WholeStatements
import CatalogGraph.Proofs.OpenQueries
import CatalogGraph.Proofs.SplicedValues
import CatalogGraph.Proofs.PendingNodes
import CatalogGraph.Proofs.ReusedNodes
import CatalogGraph.Proofs.TurtleSubjects
import CatalogGraph.Proofs.RelabelledRules
import CatalogGraph.Proofs.RuleDocuments
import CatalogGraph.Proofs.TemplateHoles
import CatalogGraph.Proofs.PassReports
import CatalogGraph.Proofs.ContainedLabels
import CatalogGraph.Proofs.RowContributions
import CatalogGraph.Proofs.DelimitedTokens
import CatalogGraph.Proofs.SegmentSpellings
import CatalogGraph.Proofs.JsonLocations
import CatalogGraph.Proofs.SelectedLocations
import CatalogGraph.Proofs.InjectiveSubjects
import CatalogGraph.Proofs.ArrayRows
import CatalogGraph.Proofs.ScopedGraphs
import CatalogGraph.Proofs.MergedGraphs
import CatalogGraph.Proofs.TopLevelMaps
import CatalogGraph.Proofs.InterleavedRules
import CatalogGraph.Proofs.LoadRequests
import CatalogGraph.Proofs.BackoffDelays
import CatalogGraph.Proofs.RetriedOperations
import CatalogGraph.Proofs.LikeLabels
import CatalogGraph.Proofs.ValueNodes
import CatalogGraph.Proofs.CollectedTerms
import CatalogGraph.Proofs.EntryKeys
import CatalogGraph.Proofs.LayeredSettings
import CatalogGraph.Proofs.SpelledTags
import CatalogGraph.Proofs.SpelledDocuments
import CatalogGraph.Proofs.ShownContent
import CatalogGraph.Proofs.SpelledListings
import CatalogGraph.Proofs.LoadedCandidates
import CatalogGraph.Proofs.SlugWords
import CatalogGraph.Proofs.SampledStates
