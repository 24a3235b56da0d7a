import UniAgent.Json
import UniAgent.JsonReader
import UniAgent.JsonRoundTrip
import UniAgent.CanonicalJson
import UniAgent.Runs
import UniAgent.TokenBlocks
import UniAgent.PrefixDigests
import UniAgent.Codec
import UniAgent.CharacterCodec
import UniAgent.CanonicalCodec
import UniAgent.SameMessages
import UniAgent.SessionState
import UniAgent.SessionLifecycle
import UniAgent.Interleaving
import UniAgent.Selection
import UniAgent.Preparation
import UniAgent.Effects
import UniAgent.Reservations
import UniAgent.FailedRequests
import UniAgent.ChainRules
import UniAgent.ChainShape
import UniAgent.SiblingRollback
import UniAgent.TrainableTokens
import UniAgent.RoutedExperts
import UniAgent.GenerationPrompts
import UniAgent.ServableRequests
import UniAgent.TokenTruth
import UniAgent.LedgerAccounts
import UniAgent.Custody
import UniAgent.SessionBooks
import UniAgent.Conservation
import UniAgent.Reencoding
import UniAgent.Capacity
import UniAgent.VersionSpans
import UniAgent.CanonicalPrefixes
import UniAgent.PythonText
import UniAgent.LoadedJson
import UniAgent.OpenAIAdapter
import UniAgent.AnthropicAdapter
import UniAgent.AnthropicContent
import UniAgent.SystemReminders
import UniAgent.PrefixStability
import UniAgent.Validation
import UniAgent.AcceptedChats
import UniAgent.FoldedEntries
import UniAgent.AcceptedEntries
import UniAgent.GatewayRoutes
import UniAgent.MalformedRequests
import UniAgent.StreamedTurns
import UniAgent.ProviderRoutes
import UniAgent.GatewayManager
import UniAgent.GatewayRouting
import UniAgent.RolloutSessions
import UniAgent.BatchRollouts
import UniAgent.BatchStatistics
import UniAgent.SelectionRules
import UniAgent.UserTurns
import UniAgent.ReminderTexts
import UniAgent.ReminderFrame
import UniAgent.PythonLines
import UniAgent.EditFile
import UniAgent.EditFrame
import UniAgent.EditHistory
import UniAgent.EditSnippets
import UniAgent.SchemaNormalization
import UniAgent.NormalSchemas
import UniAgent.IntendedSchemas
import UniAgent.SchemaParameters
import UniAgent.ReactAgent
import UniAgent.ReactTranscripts
import UniAgent.TokenBudgets
import UniAgent.LetterCase
import UniAgent.CommonSubsequences
import UniAgent.LcsReward
import UniAgent.SeparatedLists
import UniAgent.BoxedAnswers
import UniAgent.EvaluationLogs
import UniAgent.SandboxStartup
import UniAgent.VefaasSandbox
import UniAgent.EnteredSandbox
import UniAgent.LogDispatch
import UniAgent.GatewayActor
import UniAgent.ActorSessions
import UniAgent.ActorSafety
import UniAgent.ActorIsolation
import UniAgent.ChatModel
import UniAgent.MemAgent
import UniAgent.OpenedChains
import UniAgent.TransferRows
import UniAgent.TurnTaking
import UniAgent.ServedRequests
import UniAgent.ClientSessions
import UniAgent.MemorySessions
import UniAgent.KeptReplies
import UniAgent.MultilingualGrades
import UniAgent.ToolboxLife
