import Dragonfly.Snapshot.Table
import Dragonfly.Snapshot.Invariant
import Dragonfly.Snapshot.Callbacks
import Dragonfly.Snapshot.Updates
import Dragonfly.Snapshot.Run
import Dragonfly.Snapshot.Fetched
import Dragonfly.Snapshot.Serializer
import Dragonfly.Snapshot.Records
import Dragonfly.Snapshot.Flush
import Dragonfly.Snapshot.Incremental
import Dragonfly.Snapshot.FlushSlots
import Dragonfly.Snapshot.Moves
import Dragonfly.Keys.Table
import Dragonfly.Keys.Consistency
import Dragonfly.Keys.Accounting
import Dragonfly.Keys.Expire
import Dragonfly.Keys.Budget
import Dragonfly.Keys.ExpireAll
import Dragonfly.Strings.SetCmd
import Dragonfly.Strings.Ops
import Dragonfly.Strings.Replica
import Dragonfly.Strings.Set
import Dragonfly.Strings.Commands
import Dragonfly.Strings.Int64
import Dragonfly.Strings.Throttle
import Dragonfly.Strings.Watch
import Dragonfly.Strings.MultiKey
import Dragonfly.Strings.Range
import Dragonfly.Strings.GetSet
import Dragonfly.Strings.SetReplies
import Dragonfly.Strings.Footprint
import Dragonfly.Strings.Replication
import Dragonfly.Strings.ActiveExpiry
import Dragonfly.Shard.Counters
import Dragonfly.Shard.Eviction
import Dragonfly.Shard.Locks
import Dragonfly.Shard.Tracking
import Dragonfly.Shard.AsyncDeleter
import Dragonfly.Shard.Watches
import Dragonfly.Core.StringSet
import Dragonfly.Core.AddMany
import Dragonfly.PubSub.ChannelStore
import Dragonfly.PubSub.Migration
import Dragonfly.PubSub.Publish
import Dragonfly.PubSub.Sender
import Dragonfly.Server.Registry
