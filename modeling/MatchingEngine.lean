import MatchingEngine.Library.Allocation
import MatchingEngine.Library.BigEndian
import MatchingEngine.Library.Binary64
import MatchingEngine.Library.Decimal
import MatchingEngine.Library.Fill
import MatchingEngine.Library.KeyedList
import MatchingEngine.Library.LinkedChain
import MatchingEngine.Library.LinkedRing
import MatchingEngine.Library.Run
import MatchingEngine.Library.Traces
import MatchingEngine.Library.Transport
import MatchingEngine.Library.WaitingLine
import MatchingEngine.Mirror.Basic
import MatchingEngine.Mirror.Book
import MatchingEngine.Mirror.Contents
import MatchingEngine.Mirror.Ladder
import MatchingEngine.Mirror.Level
import MatchingEngine.Mirror.SessionEnd
import MatchingEngine.Model.Basic
import MatchingEngine.Model.History
import MatchingEngine.Model.ItchDecoding
import MatchingEngine.Model.ItchMessages
import MatchingEngine.Model.ItchParser
import MatchingEngine.Model.ItchReplayEngine
import MatchingEngine.Model.Memory
import MatchingEngine.Model.MemoryPool
import MatchingEngine.Model.Observation
import MatchingEngine.Model.OrderBook
import MatchingEngine.Model.PriceLadder
import MatchingEngine.Model.PriceLevel
import MatchingEngine.Model.ReplayMain
import MatchingEngine.Model.SessionEndSums
import MatchingEngine.Model.StopTime
import MatchingEngine.Model.Summary
import MatchingEngine.Properties.Agreement
import MatchingEngine.Properties.Allocation
import MatchingEngine.Properties.Atomicity
import MatchingEngine.Properties.Clipping
import MatchingEngine.Properties.CommandLine
import MatchingEngine.Properties.Conservation
import MatchingEngine.Properties.Construction
import MatchingEngine.Properties.Depth
import MatchingEngine.Properties.Growth
import MatchingEngine.Properties.Interchange
import MatchingEngine.Properties.Levels
import MatchingEngine.Properties.Lifetimes
import MatchingEngine.Properties.Matching
import MatchingEngine.Properties.Mirror
import MatchingEngine.Properties.OrderTypes
import MatchingEngine.Properties.Parsing
import MatchingEngine.Properties.Pool
import MatchingEngine.Properties.Positions
import MatchingEngine.Properties.Priority
import MatchingEngine.Properties.Program
import MatchingEngine.Properties.Publication
import MatchingEngine.Properties.Quantities
import MatchingEngine.Properties.Relabelling
import MatchingEngine.Properties.Reordering
import MatchingEngine.Properties.Replay
import MatchingEngine.Properties.Replication
import MatchingEngine.Properties.Restoration
import MatchingEngine.Properties.Safety
import MatchingEngine.Properties.SessionEnd
import MatchingEngine.Properties.SessionEndTotals
import MatchingEngine.Properties.Snapshots
import MatchingEngine.Properties.Splitting
import MatchingEngine.Properties.StopTime
import MatchingEngine.Properties.Summary
import MatchingEngine.Properties.Uncrossed
import MatchingEngine.Properties.Undo
import MatchingEngine.Reference.Accounts
import MatchingEngine.Reference.Book
import MatchingEngine.Reference.Calls
import MatchingEngine.Reference.Changes
import MatchingEngine.Reference.Clipping
import MatchingEngine.Reference.CommandLine
import MatchingEngine.Reference.Independence
import MatchingEngine.Reference.ItchEncoding
import MatchingEngine.Reference.Ledger
import MatchingEngine.Reference.Legality
import MatchingEngine.Reference.Operations
import MatchingEngine.Reference.Positions
import MatchingEngine.Reference.Priority
import MatchingEngine.Reference.Pruning
import MatchingEngine.Reference.Relabelling
import MatchingEngine.Reference.Resting
import MatchingEngine.Reference.Restoration
import MatchingEngine.Reference.Settlement
import MatchingEngine.Reference.Splitting
import MatchingEngine.Reference.StopTime
import MatchingEngine.Reference.Summary
import MatchingEngine.Reference.Uncrossed
import MatchingEngine.Reference.Volumes
import MatchingEngine.Refinement.Ahead
import MatchingEngine.Refinement.Amendment
import MatchingEngine.Refinement.Announcements
import MatchingEngine.Refinement.BestInRange
import MatchingEngine.Refinement.Book
import MatchingEngine.Refinement.Calls
import MatchingEngine.Refinement.Capacity
import MatchingEngine.Refinement.Carries
import MatchingEngine.Refinement.CommandLine
import MatchingEngine.Refinement.Contents
import MatchingEngine.Refinement.Crowd
import MatchingEngine.Refinement.Decoding
import MatchingEngine.Refinement.Equivariance
import MatchingEngine.Refinement.Failures
import MatchingEngine.Refinement.Growth
import MatchingEngine.Refinement.Inversion
import MatchingEngine.Refinement.Ladder
import MatchingEngine.Refinement.LadderInvariant
import MatchingEngine.Refinement.Level
import MatchingEngine.Refinement.Lineage
import MatchingEngine.Refinement.Matching
import MatchingEngine.Refinement.Parsing
import MatchingEngine.Refinement.Passive
import MatchingEngine.Refinement.Pool
import MatchingEngine.Refinement.Pruning
import MatchingEngine.Refinement.Refresh
import MatchingEngine.Refinement.Remainder
import MatchingEngine.Refinement.Renaming
import MatchingEngine.Refinement.Replay
import MatchingEngine.Refinement.Reports
import MatchingEngine.Refinement.Run
import MatchingEngine.Refinement.Scans
import MatchingEngine.Refinement.SessionEnd
import MatchingEngine.Refinement.SessionEndSums
import MatchingEngine.Refinement.Settlement
import MatchingEngine.Refinement.Snapshot
import MatchingEngine.Refinement.StopTime
import MatchingEngine.Refinement.Storage
import MatchingEngine.Refinement.Submission
import MatchingEngine.Refinement.Summary
import MatchingEngine.Refinement.View
