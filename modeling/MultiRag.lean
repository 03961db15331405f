import MultiRag.RunReplay
import MultiRag.InteractionResponses
import MultiRag.PresentationExpiry
import MultiRag.ExpiryDurability
import MultiRag.InteractionFormsAgree
import MultiRag.ReconciliationAbsence
import MultiRag.ReconciliationBreaker
import MultiRag.DirectoryEventConvergence
import MultiRag.ProvisioningSafety
import MultiRag.CanvasInputs
import MultiRag.CanvasDeferral
import MultiRag.CanvasResume
import MultiRag.IterationRun
import MultiRag.CanvasReferences
import MultiRag.MetadataCandidates
import MultiRag.ReasoningShift
import MultiRag.ExecutionService
import MultiRag.GraphProvenance
import MultiRag.GraphCrash
import MultiRag.ChannelDedupe
import MultiRag.ChannelWorkerTurns
import MultiRag.SigningKeys
import MultiRag.EnterpriseProofOrder
import MultiRag.CandidateCollection
import MultiRag.FeishuReply
import MultiRag.ReplyAgreement
import MultiRag.GraphPhasesRepeat
import MultiRag.DnsPins
import MultiRag.ChunkAvailability
import MultiRag.TreeChunks
import MultiRag.DeliveryBudget
import MultiRag.ResumeQueue
import MultiRag.SyncWindows
import MultiRag.CancelOutcome
import MultiRag.MilvusScope
import MultiRag.SourceOutcome
import MultiRag.TreeMerge
import MultiRag.HierarchicalCover
import MultiRag.ChunkBound
import MultiRag.OneContext
import MultiRag.ContentsTable
import MultiRag.VariableLaws
import MultiRag.DslReferences
import MultiRag.LoopRun
import MultiRag.TokenChunker
import MultiRag.SearchMerge
import MultiRag.ParentChunks
import MultiRag.MetadataComparison
import MultiRag.GraphMergeOrder
import MultiRag.EntityQuotient
import MultiRag.EntityResolution
import MultiRag.InteractionFormChecks
import MultiRag.ReasoningSnapshot
import MultiRag.KbPromptBudget
import MultiRag.RootHeading
import MultiRag.TaskReuse
import MultiRag.RedisConn
import MultiRag.MilvusOrder
import MultiRag.TableMetadata
import MultiRag.MessageBudget
import MultiRag.NHopPaths
