import Inherent.ForStd.Run
import Inherent.ForStd.UniqueTable
import Inherent.Native.PyStr
import Inherent.Native.Document
import Inherent.Native.Database
import Inherent.Spec.Database
import Inherent.Spec.AppendStore
import Inherent.ForStd.Fence
import Inherent.Spec.RunFencing
import Inherent.Spec.ChunkEdits
import Inherent.Native.Conversation
import Inherent.Native.ConversationWorkflow
import Inherent.Spec.TurnDelivery
import Inherent.Spec.ConversationWorkflow
import Inherent.Native.ConversationSystem
import Inherent.Spec.ConversationSystem
import Inherent.Spec.StagingIsolation
import Inherent.Spec.Store
import Inherent.Spec.FlushOutcome
import Inherent.Native.Store
import Inherent.Native.DocumentIngestion
import Inherent.Spec.DocumentIngestion
import Inherent.Spec.GhostDocuments
import Inherent.Native.DocumentUpload
import Inherent.Spec.LastUploadWins
import Inherent.ForStd.StreamGroup
import Inherent.Native.RedisMq
import Inherent.Spec.DeliveryCount
import Inherent.Spec.Redelivery
import Inherent.Native.DocumentIntake
import Inherent.Spec.IntakeAcceptance
import Inherent.Native.DeadLetter
import Inherent.Spec.DeadLetterRoundTrip
import Inherent.Spec.DeadLetterRetry
import Inherent.Native.DeadLetterSystem
import Inherent.Spec.DeadLetterGuards
import Inherent.Native.DocumentDeletion
import Inherent.Spec.DeletionFinality
import Inherent.Native.WorkspaceStats
import Inherent.Spec.FlushStats
import Inherent.Native.WorkspaceHistory
import Inherent.Spec.WorkspaceCounters
import Inherent.Spec.TurnChunks
import Inherent.Spec.RedactionNoninterference
import Inherent.ForStd.RecentSet
import Inherent.Spec.TurnDeduplication
import Inherent.ForStd.StatefulProgram
import Inherent.Native.WorkspacePurge
import Inherent.Spec.PurgeVerification
import Inherent.ForStd.TokenBucket
import Inherent.Native.RateLimiter
import Inherent.Spec.RateLimiter
import Inherent.Native.WorkspaceAccess
import Inherent.Spec.WriteAuthorization
import Inherent.ForStd.WordTokens
import Inherent.Native.VectorTenant
import Inherent.Spec.ExactDeletes
import Inherent.Native.TagSearch
import Inherent.Spec.TagFilters
import Inherent.Native.ReplaceStore
import Inherent.Spec.ReplaceExact
import Inherent.Native.ChunkWrites
import Inherent.Spec.EvidenceFields
import Inherent.Native.ChunkUpdates
import Inherent.Spec.ChunkConsistency
import Inherent.Native.EmbeddingIdentity
import Inherent.Spec.EmbeddingIdentity
import Inherent.ForStd.IdempotentSteps
import Inherent.Native.PurgeStores
import Inherent.Spec.PurgeConvergence
import Inherent.Native.WorkspaceWriters
import Inherent.Native.PurgedWorkspace
import Inherent.Spec.PurgeFinality
import Inherent.ForStd.Base32
import Inherent.Native.Naming
import Inherent.Spec.StorageNames
import Inherent.Native.ConversationTrigger
import Inherent.Spec.ConversationIdentity
import Inherent.ForStd.GraphqlLexer
import Inherent.Native.SearchQuery
import Inherent.Spec.QueryEmbedding
import Inherent.Native.DocumentContext
import Inherent.Spec.DocumentContext
import Inherent.Native.ReuseDetection
import Inherent.Spec.ReuseLedger
import Inherent.Spec.ReingestReuse
import Inherent.Native.ReuseSystem
import Inherent.Spec.ReuseMirror
import Inherent.Native.DocumentRefresh
import Inherent.Spec.DocumentRefresh
import Inherent.Native.Reindex
import Inherent.Native.McpTools
import Inherent.Spec.Reindex
import Inherent.Native.McpDispatch
import Inherent.Spec.McpTools
import Inherent.Spec.McpDispatch
import Inherent.ForStd.GreedyPacking
import Inherent.ForStd.HeadingStack
import Inherent.Native.ChunkText
import Inherent.Native.NumberedSections
import Inherent.Spec.CharacterSplit
import Inherent.Spec.NumberedSections
import Inherent.Spec.PackedUnits
import Inherent.Spec.SentenceChunks
import Inherent.Spec.SentenceSizes
import Inherent.ForStd.Tiling
import Inherent.Native.LineChunks
import Inherent.Spec.LineBlocks
import Inherent.Spec.LineSizes
import Inherent.Spec.LineSpans
import Inherent.Spec.RowContext
import Inherent.ForStd.RunPattern
import Inherent.ForStd.Substitution
import Inherent.Native.Redaction
import Inherent.Spec.DetectorWords
import Inherent.Spec.ProseHeader
import Inherent.Spec.RedactionResidue
import Inherent.Spec.SectionSpans
import Inherent.ForStd.Gather
import Inherent.ForStd.IntervalMerge
import Inherent.ForStd.RoundRobin
import Inherent.ForStd.StableSort
import Inherent.Native.ContextWindow
import Inherent.Native.MultiWorkspaceSearch
import Inherent.Native.QualityGate
import Inherent.Native.ReuseBoost
import Inherent.Spec.ContextWindow
import Inherent.Spec.Diversification
import Inherent.Spec.MultiWorkspaceSearch
import Inherent.Spec.QualityGate
import Inherent.Spec.ReuseBoost
import Inherent.ForStd.DiscountedSum
import Inherent.ForStd.OutlineCounter
import Inherent.ForStd.ScatterBatches
import Inherent.Native.DocxNumbering
import Inherent.Native.EmbedBatches
import Inherent.Native.RankingMetrics
import Inherent.Spec.DocxNumbering
import Inherent.Spec.EmbedBatches
import Inherent.Spec.RankingMetrics
import Inherent.Spec.StyleNumbering
import Inherent.Native.ChunkDispatch
import Inherent.Spec.TokenBudget
import Inherent.ForStd.DotSegments
import Inherent.ForStd.ElementTree
import Inherent.ForStd.MaximalRuns
import Inherent.ForStd.SeparatedJoin
import Inherent.ForStd.Utf8Decoding
import Inherent.Native.EpubText
import Inherent.Native.OdtText
import Inherent.Native.SubtitleText
import Inherent.Native.XlsxText
import Inherent.Spec.EpubChapters
import Inherent.Spec.OdtText
import Inherent.Spec.SubtitleBlocks
import Inherent.Spec.SubtitleCues
import Inherent.Spec.XlsxRows
import Inherent.ForStd.EarlyExit
import Inherent.Native.ExtractedText
import Inherent.Native.FileTypes
import Inherent.Native.OauthIdentity
import Inherent.Native.Quotas
import Inherent.Native.StoragePath
import Inherent.Spec.ContentSniffing
import Inherent.Spec.DocxTable
import Inherent.Spec.OauthIdentity
import Inherent.Spec.Quotas
import Inherent.Spec.StoragePaths
import Inherent.Spec.XlsxMarkers
import Inherent.ForStd.Numerals
import Inherent.ForStd.CollapsedRuns
import Inherent.Native.ReuseRecording
import Inherent.Spec.MarkerNumerals
import Inherent.Spec.PdfPages
import Inherent.Spec.ReuseCounts
import Inherent.ForStd.ProcessPool
import Inherent.Native.AuditLog
import Inherent.Native.Evals
import Inherent.Native.Migrations
import Inherent.Spec.AuditLog
import Inherent.Spec.EvalCases
import Inherent.Spec.EvalRuns
import Inherent.Spec.Migrations
import Inherent.ForStd.FirstMaximum
import Inherent.Native.VerticalPack
import Inherent.Native.WorkspaceSettings
import Inherent.Spec.Tagging
import Inherent.Spec.WorkspaceSettings
