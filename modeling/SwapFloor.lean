import SwapFloor.Archive
import SwapFloor.Fanout.Broadcast
import SwapFloor.Fanout.Request
import SwapFloor.Ingest.Seen
import SwapFloor.Ingest.SwapReading
import SwapFloor.Ingest.TxLookup
import SwapFloor.Metrics
import SwapFloor.Ranking.WalletTags
import SwapFloor.Ranking.Window
import SwapFloor.RateLimiter
import SwapFloor.Room.Lobby
import SwapFloor.Room.Password
import SwapFloor.Service.Front
import SwapFloor.Service.Turn
import SwapFloor.Settings.Load
import SwapFloor.Token
import SwapFloor.Watch.Feed
import SwapFloor.Watch.LocalProvider
import SwapFloor.Proofs.Fanout.Coherent
import SwapFloor.Proofs.Fanout.Onward
import SwapFloor.Proofs.Fanout.Delivery
import SwapFloor.Proofs.Watch.References
import SwapFloor.Proofs.Room.Operations
import SwapFloor.Proofs.Room.Standing
import SwapFloor.Proofs.Service.Sound
import SwapFloor.Proofs.Service.Agreement
import SwapFloor.Proofs.Service.Routing
import SwapFloor.Proofs.Service.Still
import SwapFloor.Proofs.Service.OnceOnly
import SwapFloor.Proofs.Service.Runs
import SwapFloor.Proofs.Fanout.InOrder
import SwapFloor.Proofs.Decimal.Value
import SwapFloor.Proofs.Ranking.Counts
import SwapFloor.Proofs.Ranking.History
import SwapFloor.Proofs.Ranking.Standing
import SwapFloor.Proofs.Ranking.Eviction
import SwapFloor.Proofs.Room.Lifecycle
import SwapFloor.Proofs.Watch.Dealings
import SwapFloor.Proofs.Room.WellFormed
import SwapFloor.Proofs.Service.Spacing
import SwapFloor.Proofs.Service.Capacity
import SwapFloor.Proofs.Watch.Interleaved
import SwapFloor.Proofs.Room.Recycling
import SwapFloor.Proofs.Room.Recycled
import SwapFloor.Proofs.Fanout.Filing
import SwapFloor.Proofs.RateLimiter.Admission
import SwapFloor.Proofs.RateLimiter.Sweeping
import SwapFloor.Proofs.RateLimiter.Waiting
import SwapFloor.Proofs.Fanout.Hearing
import SwapFloor.Proofs.Room.Presence
import SwapFloor.Proofs.Room.Totals
import SwapFloor.Proofs.Room.Recorded
import SwapFloor.Proofs.Service.Attendance
import SwapFloor.Proofs.Service.Comings
import SwapFloor.Proofs.Service.Alternation
import SwapFloor.Proofs.Service.Picture
import SwapFloor.Proofs.Crypto.Written
import SwapFloor.Proofs.Service.Entrances
import SwapFloor.Proofs.Service.Gate
import SwapFloor.Proofs.Service.Saved
import SwapFloor.Proofs.Service.Identity
import SwapFloor.Proofs.Service.Procedures
import SwapFloor.Proofs.Service.Rejection
import SwapFloor.Proofs.Service.Sharing
import SwapFloor.Proofs.Watch.Tally
import SwapFloor.Proofs.Service.Shift
import SwapFloor.Proofs.Service.Posting
import SwapFloor.Proofs.Watch.Keeping
import SwapFloor.Proofs.Service.Tracking
import SwapFloor.Proofs.Ingest.Retention
import SwapFloor.Proofs.Ingest.Changes
import SwapFloor.Proofs.Ingest.Swaps
import SwapFloor.Proofs.Ingest.Attribution
import SwapFloor.Proofs.Decimal.Reading
import SwapFloor.Proofs.Time.Dates
import SwapFloor.Proofs.Time.Reading
import SwapFloor.Proofs.Json.Fields
import SwapFloor.Proofs.Json.Leaves
import SwapFloor.Proofs.Json.Objects
import SwapFloor.Proofs.Json.RoundTrip
import SwapFloor.Proofs.Watch.Exchange
import SwapFloor.Proofs.Watch.Replies
import SwapFloor.Proofs.Watch.Conversation
import SwapFloor.Proofs.Watch.Grants
import SwapFloor.Proofs.Watch.Custody
import SwapFloor.Proofs.Room.Breakdowns
import SwapFloor.Proofs.Fanout.Isolation
import SwapFloor.Proofs.Watch.Schedule
import SwapFloor.Proofs.Ingest.Amounts
import SwapFloor.Proofs.Service.Symbols
import SwapFloor.Proofs.Fanout.Pruning
