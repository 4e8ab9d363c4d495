import ContextOS.Lib.Dict
import ContextOS.Lib.Machine
import ContextOS.Lib.Scan
import ContextOS.Lib.Outcome
import ContextOS.Lib.Greedy
import ContextOS.Lib.Join
import ContextOS.Lib.Ranking
import ContextOS.Lib.Diversity
import ContextOS.Lib.Vectors
import ContextOS.Lib.Blocks
import ContextOS.Lib.Digits
import ContextOS.Lib.Tally
import ContextOS.Numeric
import ContextOS.Models
import ContextOS.Text
import ContextOS.Scoring
import ContextOS.MemoryStore
import ContextOS.Postgres
import ContextOS.MemoryEngine
import ContextOS.Cache
import ContextOS.Budget
import ContextOS.Assembler
import ContextOS.Assembly
import ContextOS.Compressor
import ContextOS.Policy
import ContextOS.Router
import ContextOS.Observability
import ContextOS.Replay
import ContextOS.Versioning
import ContextOS.Pipeline
import ContextOS.Endings
import ContextOS.Walk
import ContextOS.App
import ContextOS.Executable
import ContextOS.Effects
import ContextOS.Isolation
import ContextOS.Confidentiality
import ContextOS.CacheSoundness
import ContextOS.Grounding
import ContextOS.ReplayFaithful
import ContextOS.StorageParity
import ContextOS.Staleness
import ContextOS.Window
import ContextOS.Allowlist
import ContextOS.WriteScope
import ContextOS.HardFilters
import ContextOS.Traffic
import ContextOS.WriteBack
import ContextOS.RecordedModel
import ContextOS.StoredAnswer
import ContextOS.Replayable
import ContextOS.Mediation
import ContextOS.BranchHeads
import ContextOS.CommitDiff
import ContextOS.EdgeLoading
import ContextOS.Selection
import ContextOS.Accounting
import ContextOS.Reserves
import ContextOS.Raising
import ContextOS.ArrivalOrder
import ContextOS.NearDuplicates
import ContextOS.Recall
import ContextOS.Sentences
import ContextOS.CompressedFacts
import ContextOS.CompressedSize
import ContextOS.DecimalNumbers
import ContextOS.PromptHash
import ContextOS.RegistrationOrder
import ContextOS.Dominance
import ContextOS.FallbackWalk
import ContextOS.BreakerHistory
import ContextOS.DenyOverrides
import ContextOS.Grants
import ContextOS.Ulid
import ContextOS.Balance
import ContextOS.ScoreOrder
import ContextOS.Bm25
import ContextOS.Restoring
import ContextOS.Workers
import ContextOS.Expiry
import ContextOS.ContentAddress
import ContextOS.Completions
import ContextOS.CompletionStream
import ContextOS.Billing
import ContextOS.Stages
import ContextOS.Draining
import ContextOS.Consolidation
import ContextOS.Recompressed
import ContextOS.Overlap
import ContextOS.OverlapIsolation
import ContextOS.OverlapRecords
import ContextOS.OverlapTraces
import ContextOS.Failures
