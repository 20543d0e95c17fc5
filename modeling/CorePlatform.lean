import CorePlatform.Transport.Runner
import CorePlatform.Audit.ExactlyOnce
import CorePlatform.Audit.Durability
import CorePlatform.Audit.Tamper
import CorePlatform.Audit.Anchoring
import CorePlatform.Audit.AccountFeed
import CorePlatform.Audit.AccountIds
import CorePlatform.Audit.RoundTrip
import CorePlatform.Counter.Retry
import CorePlatform.Counter.Folding
import CorePlatform.Counter.Reconcile
import CorePlatform.Counter.Tiers
import CorePlatform.Auth.Rotation
import CorePlatform.Auth.SignOut
import CorePlatform.Auth.Reuse
import CorePlatform.Auth.OutboxOrder
import CorePlatform.Auth.Horizons
import CorePlatform.Resilience.Shedding
import CorePlatform.Resilience.Probes
import CorePlatform.Resilience.Retry
import CorePlatform.Realtime.Isolation
import CorePlatform.Realtime.Routing
import CorePlatform.Moderation.Agreement
import CorePlatform.Moderation.Overturn
import CorePlatform.Moderation.Reports
import CorePlatform.Moderation.Strikes
import CorePlatform.Moderation.Penalties
import CorePlatform.Moderation.Corpus
import CorePlatform.Traffic.Budget
import CorePlatform.SocialGraph.Blocks
import CorePlatform.SocialGraph.Tiers
import CorePlatform.Search.PostFeed
import CorePlatform.Search.Reindex
import CorePlatform.Media.Deletion
import CorePlatform.Enforcement.Standing
import CorePlatform.Engagement.Counters
import CorePlatform.Engagement.Ledger
import CorePlatform.Engagement.Scores
import CorePlatform.Engagement.Removal
import CorePlatform.Notification.Unread
import CorePlatform.Chat.History
import CorePlatform.Chat.Paging
import CorePlatform.Chat.Membership
import CorePlatform.Chat.Receipts
import CorePlatform.GeoDiscovery.Pruner
import CorePlatform.Migrator.Statements
import CorePlatform.Realtime.Mailbox
