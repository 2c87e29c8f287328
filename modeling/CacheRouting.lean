import CacheRouting.Auto.Runner
import CacheRouting.Main
import CacheRouting.Memcache.Client
import CacheRouting.Proofs.Ranking.Weight
import CacheRouting.Proofs.Ranking.Double
import CacheRouting.Proofs.Ranking.Order
import CacheRouting.Proofs.Ranking.View
import CacheRouting.Proofs.Ranking.Table
import CacheRouting.Proofs.Ranking.StableSort
import CacheRouting.Proofs.Auto.Dispatch
import CacheRouting.Proofs.Auto.Delivery
import CacheRouting.Proofs.Auto.Router
import CacheRouting.Proofs.Routing.Bucket
import CacheRouting.Proofs.Routing.Manual
import CacheRouting.Proofs.Routing.Ring
import CacheRouting.Proofs.Routing.Scheduler
import CacheRouting.Proofs.Auto.Runner
import CacheRouting.Proofs.Dictionary
import CacheRouting.Proofs.Routing.Partition
import CacheRouting.Proofs.Routing.Insertion
import CacheRouting.Proofs.Routing.Arcs
import CacheRouting.Proofs.Routing.Share
import CacheRouting.Proofs.Routing.Stats
import CacheRouting.Proofs.Routing.Assignment
import CacheRouting.Proofs.Routing.Build
import CacheRouting.Proofs.Routing.Reach
import CacheRouting.Proofs.Memcache.Header
import CacheRouting.Proofs.Text.Utf8
import CacheRouting.Proofs.Text.ByteOrder
import CacheRouting.Proofs.Memcache.Reply
import CacheRouting.Proofs.Memcache.Truncation
import CacheRouting.Proofs.Ranking.Interleaving
import CacheRouting.Proofs.Ranking.Root
import CacheRouting.Proofs.Auto.Probes
import CacheRouting.Proofs.Auto.Listing
import CacheRouting.Proofs.Auto.Script
import CacheRouting.Proofs.Auto.Pass
import CacheRouting.Proofs.Auto.Watch
import CacheRouting.Proofs.Auto.Discovery
import CacheRouting.Proofs.Auto.Passes
import CacheRouting.Proofs.Document.Number
import CacheRouting.Proofs.Document.Value
import CacheRouting.Proofs.Document.Line
import CacheRouting.Proofs.Document.Break
import CacheRouting.Proofs.Config.Section
import CacheRouting.Proofs.Config.Settings
import CacheRouting.Proofs.Config.RoundTrip
import CacheRouting.Proofs.Auto.Turns
import CacheRouting.Proofs.Auto.Chronicle
import CacheRouting.Proofs.Auto.Clock
import CacheRouting.Proofs.Auto.Rounds
import CacheRouting.Proofs.Auto.Survival
import CacheRouting.Proofs.Duration
import CacheRouting.Proofs.Auto.Evolution
import CacheRouting.Proofs.Auto.Waiting
import CacheRouting.Proofs.Auto.Dismissal
import CacheRouting.Proofs.Auto.Interval
import CacheRouting.Proofs.Journal.Storage
import CacheRouting.Proofs.Journal.LogFile
import CacheRouting.Proofs.Routing.Packed
import CacheRouting.Proofs.Routing.Permutation
import CacheRouting.Proofs.Ranking.Canonical
import CacheRouting.Proofs.Ranking.Rounding
import CacheRouting.Proofs.Ranking.Average
import CacheRouting.Proofs.Ranking.Reward
import CacheRouting.Proofs.Routing.Rotation
import CacheRouting.Proofs.Routing.Membership
import CacheRouting.Proofs.Routing.Prefix
import CacheRouting.Proofs.Number.Decimal
import CacheRouting.Proofs.Auto.Lines
import CacheRouting.Proofs.Sequence
import CacheRouting.Proofs.Config.Validation
import CacheRouting.Proofs.Memcache.Request
import CacheRouting.Proofs.Routing.Columns
import CacheRouting.Proofs.Address
import CacheRouting.Proofs.Routing.Label
import CacheRouting.Proofs.Journal.Reopening
import CacheRouting.Proofs.Journal.Layers
import CacheRouting.Proofs.Journal.Division
import CacheRouting.Proofs.Digest.Avalanche
