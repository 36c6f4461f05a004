import PipeLens.Lib.Transition
import PipeLens.Lib.Binary64
import PipeLens.Lib.RedisList
import PipeLens.Lib.Table
import PipeLens.Lib.ReadCommitted
import PipeLens.Lib.JsonText
import PipeLens.Lib.Keyset
import PipeLens.Lib.Program
import PipeLens.Lib.Text
import PipeLens.Lib.Lines
import PipeLens.Lib.Regex
import PipeLens.Lib.Interleaving
import PipeLens.Lib.RegexLanguage
import PipeLens.Lib.Redaction
import PipeLens.Lib.Ranking
import PipeLens.Models
import PipeLens.Queue
import PipeLens.EnvelopeJson
import PipeLens.MemoryQueue
import PipeLens.Store
import PipeLens.Queries
import PipeLens.Webhook
import PipeLens.Payload
import PipeLens.Statements
import PipeLens.Pipeline
import PipeLens.Worker
import PipeLens.GitHub
import PipeLens.Publication
import PipeLens.Diagnosis
import PipeLens.Patching
import PipeLens.Difflib
import PipeLens.Analysis
import PipeLens.Auth
import PipeLens.Sanitizer
import PipeLens.Preprocessing
import PipeLens.Relevance
import PipeLens.LogFunctions
import PipeLens.Startup
import PipeLens.Proof.Placement
import PipeLens.Proof.QueueEquivalence
import PipeLens.Proof.StoreOps
import PipeLens.Proof.Fencing
import PipeLens.Proof.StatementFencing
import PipeLens.Proof.Superseding
import PipeLens.Proof.Timing
import PipeLens.Proof.Followup
import PipeLens.Proof.FailureChain
import PipeLens.Proof.Reruns
import PipeLens.Proof.Resolution
import PipeLens.Proof.HeadRepository
import PipeLens.Proof.Rejection
import PipeLens.Proof.Pagination
import PipeLens.Proof.Isolation
import PipeLens.Proof.AttemptEffect
import PipeLens.Proof.WorkerSteps
import PipeLens.Proof.WorkerLists
import PipeLens.Proof.Stranding
import PipeLens.Proof.WorkerStore
import PipeLens.Proof.Handler
import PipeLens.Proof.BoundedAttempts
import PipeLens.Proof.NoLoss
import PipeLens.Proof.Publishing
import PipeLens.Proof.KeyRotation
import PipeLens.Proof.StageHistory
import PipeLens.Proof.Untrusted
import PipeLens.Proof.PatchPolicy
import PipeLens.Proof.MergedDiff
import PipeLens.Proof.HunkPlacement
import PipeLens.Proof.KeptLines
import PipeLens.Proof.RoundTrip
import PipeLens.Proof.ReferenceDiff
import PipeLens.Proof.WorkflowBlocks
import PipeLens.Proof.Verification
import PipeLens.Proof.Raising
import PipeLens.Proof.GluedLines
import PipeLens.Proof.RulePatch
import PipeLens.Proof.HashLocks
import PipeLens.Proof.Grounding
import PipeLens.Proof.InputLimit
import PipeLens.Proof.MergedCells
import PipeLens.Proof.Chunking
import PipeLens.Proof.ErrorContext
import PipeLens.Proof.RuleDiagnosis
import PipeLens.Proof.CommentForgery
import PipeLens.Proof.CodeBlocks
import PipeLens.Proof.RetryLoop
import PipeLens.Proof.StoreRoundTrip
import PipeLens.Proof.CursorCodec
import PipeLens.Proof.LocalSteps
import PipeLens.Proof.Reconciliation
import PipeLens.Proof.Restart
import PipeLens.Proof.Sanitizing
import PipeLens.Proof.Preprocess
import PipeLens.Proof.RelatedFiles
import PipeLens.Proof.TokenFlow
import PipeLens.Proof.ModelTokens
import PipeLens.Lib.Paging
import PipeLens.RunContext
import PipeLens.Proof.TrustLevel
import PipeLens.Proof.ForkedRuns
import PipeLens.Proof.Listings
import PipeLens.Access
import PipeLens.Proof.Access
import PipeLens.Proof.Authorization
