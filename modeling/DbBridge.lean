import DbBridge.Cluster.LifeCycle
import DbBridge.Cluster.Timing
import DbBridge.Cluster.Collection
import DbBridge.Cluster.Deadlines
import DbBridge.Redis.Agreement
import DbBridge.Redis.KeyClaim
import DbBridge.Redis.Fencing
import DbBridge.Redis.Index
import DbBridge.Redis.Recovery
import DbBridge.Redis.KeyRelease
import DbBridge.Cluster.KeyCover
import DbBridge.Watch.Subscriptions
import DbBridge.Watch.Order
import DbBridge.Watch.Sync
import DbBridge.Transport.Isolation
import DbBridge.Pools.Report
import DbBridge.SqlGuard.Grammar
import DbBridge.SqlGuard.Postgres
import DbBridge.SqlGuard.Mysql
import DbBridge.Cluster.ProgressReporter
import DbBridge.Cluster.Rejection
import DbBridge.Cluster.Drain
import DbBridge.Cluster.Reaping
import DbBridge.Cluster.Leases
import DbBridge.Cluster.Retention
import DbBridge.Cluster.Orphans
import DbBridge.Storage.Csv
import DbBridge.Storage.ClickHouse
import DbBridge.Storage.Parquet
import DbBridge.Transport.Start
import DbBridge.Transport.WebSocket
import DbBridge.Transport.Ranges
import DbBridge.RateLimit.Eviction
import DbBridge.Cluster.Durations
import DbBridge.Config.Environment
