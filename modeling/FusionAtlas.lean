import FusionAtlas.Token.Lexer
import FusionAtlas.SyntaxTree.OfTemplate
import FusionAtlas.Configuration.BoundHelpers
import FusionAtlas.Disk.Collect
import FusionAtlas.Text.LineIndex
import FusionAtlas.HostCode.ClassDirectory
import FusionAtlas.HostCode.ClassLibrary
import FusionAtlas.Resolution
import FusionAtlas.Diagnostic
import FusionAtlas.Workspace
import FusionAtlas.Workspace.Event
import FusionAtlas.Workspace.Loading
import FusionAtlas.Proofs.ChainReference
import FusionAtlas.Proofs.FileMap
import FusionAtlas.Proofs.StoredDiagnostics
import FusionAtlas.Proofs.ResolvedClasses
import FusionAtlas.Proofs.CurrentClasses
import FusionAtlas.Proofs.FilePath
import FusionAtlas.Proofs.Percent
import FusionAtlas.Proofs.UrlScheme
import FusionAtlas.Proofs.UrlSegments
import FusionAtlas.Proofs.PathRoundTrip
import FusionAtlas.Proofs.ComposedText
import FusionAtlas.Proofs.DomainName
import FusionAtlas.Proofs.HostAddress
import FusionAtlas.Proofs.HostText
import FusionAtlas.Proofs.UrlParts
import FusionAtlas.Proofs.NormalUrl
import FusionAtlas.Proofs.UriRoundTrip
import FusionAtlas.Proofs.FileUri
import FusionAtlas.Proofs.ClassFile
import FusionAtlas.Proofs.CacheCoherence
import FusionAtlas.Proofs.UriExtension
import FusionAtlas.Proofs.TextCut
import FusionAtlas.Proofs.Tokens
import FusionAtlas.Proofs.ClassEvent
import FusionAtlas.Proofs.Outline
import FusionAtlas.Proofs.Arena
import FusionAtlas.Proofs.Layout
import FusionAtlas.Proofs.ReadingLayout
import FusionAtlas.Proofs.ExpressionLayout
import FusionAtlas.Proofs.StatementLayout
import FusionAtlas.Proofs.ExpressionSoundness
import FusionAtlas.Proofs.StatementSoundness
import FusionAtlas.Proofs.Derivations
import FusionAtlas.Proofs.LosslessTokens
import FusionAtlas.Proofs.LookupSession
import FusionAtlas.Proofs.YamlKeys
import FusionAtlas.Proofs.MergedSettings
import FusionAtlas.Proofs.BareSyntax
import FusionAtlas.Proofs.ExpressionCompleteness
import FusionAtlas.Proofs.StatementCompleteness
import FusionAtlas.Proofs.Lexemes
import FusionAtlas.Proofs.CanonicalSyntax
import FusionAtlas.Proofs.CanonicalTokens
import FusionAtlas.Proofs.CanonicalDerivations
import FusionAtlas.Proofs.CanonicalStatements
import FusionAtlas.Proofs.LineIndex
import FusionAtlas.Proofs.ReadingOrder
import FusionAtlas.Proofs.ClassRouting
import FusionAtlas.Proofs.DocComments
import FusionAtlas.Proofs.WrittenClass
import FusionAtlas.Proofs.EntryStore
import FusionAtlas.Proofs.AlikeLookups
import FusionAtlas.Proofs.AlikeResolution
import FusionAtlas.Proofs.ResolutionPlan
import FusionAtlas.Proofs.Snapshots
import FusionAtlas.Proofs.OpeningOrder
import FusionAtlas.Proofs.EventOutcome
import FusionAtlas.Proofs.ScheduledBatch
import FusionAtlas.Proofs.BatchSession
import FusionAtlas.Proofs.NarrowestEntry
import FusionAtlas.Proofs.Trimming
import FusionAtlas.Proofs.ReturnTags
import FusionAtlas.Proofs.TopLevelCommas
import FusionAtlas.Proofs.ParameterReading
import FusionAtlas.Proofs.ParameterAttributes
import FusionAtlas.Proofs.LongestMatch
import FusionAtlas.Proofs.ClassPurge
import FusionAtlas.Proofs.CallDiagnostics
import FusionAtlas.Proofs.StatementBlocks
import FusionAtlas.Proofs.StatementOrder
import FusionAtlas.Proofs.ComponentStatements
import FusionAtlas.Proofs.TypeNames
import FusionAtlas.Proofs.HelperBindings
import FusionAtlas.Proofs.OperatorGrouping
import FusionAtlas.Proofs.OperandText
import FusionAtlas.Proofs.OperatorSequence
import FusionAtlas.Proofs.ReadWords
import FusionAtlas.Proofs.NodeWords
import FusionAtlas.Proofs.PlannedRanges
import FusionAtlas.Proofs.AnnotatedText
import FusionAtlas.Proofs.TokenSpelling
import FusionAtlas.Proofs.SignificantTokens
import FusionAtlas.Proofs.QuotedNodes
import FusionAtlas.Proofs.NumberForms
import FusionAtlas.Proofs.ComponentNames
import FusionAtlas.Proofs.AcceptedNames
import FusionAtlas.Proofs.HelperEntries
import FusionAtlas.Proofs.MovedExpressions
import FusionAtlas.Proofs.MovedStatements
import FusionAtlas.Proofs.IncludeLines
import FusionAtlas.Proofs.ReadingEnds
import FusionAtlas.Proofs.DirectoryWalk
import FusionAtlas.Proofs.FileNames
import FusionAtlas.Proofs.PathOrder
import FusionAtlas.Proofs.FileCollection
import FusionAtlas.Proofs.LoadedTemplates
import FusionAtlas.Proofs.FileExtensions
import FusionAtlas.Proofs.ClassPlaces
import FusionAtlas.Proofs.ScannedMethods
import FusionAtlas.Proofs.DividingCommas
import FusionAtlas.Proofs.NameSpelling
import FusionAtlas.Proofs.FilterSpelling
import FusionAtlas.Proofs.TextlessTree
import FusionAtlas.Proofs.RespelledFile
