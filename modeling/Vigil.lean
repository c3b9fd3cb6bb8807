import Vigil.Ledger.Stamp
import Vigil.Notifications.RetrySchedule
import Vigil.Notifications.Budget
import Vigil.Monitors.History
import Vigil.Monitors.Probes
import Vigil.Monitors.DispatchOrder
import Vigil.Monitors.FairSelection
import Vigil.Notifications.HeardToTheEnd
import Vigil.Net.AddressClass
import Vigil.HighFreq.Cadence
import Vigil.HighFreq.Clock
import Vigil.HighFreq.WireLimit
import Vigil.HighFreq.Accounting
import Vigil.HighFreq.LeaseSafety
import Vigil.HighFreq.Convergence
import Vigil.HighFreq.Pruned
import Vigil.Monitors.DockerRestart
import Vigil.HighFreq.Promotion
import Vigil.Bridge.AfterCutover
import Vigil.Bridge.Greedy
import Vigil.Bridge.Coverage
import Vigil.Bridge.Confluence
import Vigil.Monitors.SpecVersion
import Vigil.Monitors.Scheduling
import Vigil.Importers.Pagination
import Vigil.Bridge.Renamed
import Vigil.Bridge.ReportLines
import Vigil.Monitors.GroupChain
import Vigil.Notifications.ChannelScope
import Vigil.Importers.FieldReport
import Vigil.Importers.CreationOrder
import Vigil.Limits.RateLimit
import Vigil.Wire.SqlServer
import Vigil.Wire.Ldap
import Vigil.Wire.SnmpSafety
import Vigil.Wire.SnmpMessage
import Vigil.Notifications.WebPush
import Vigil.Notifications.HttpAttempt
import Vigil.Notifications.BindLimit
import Vigil.Notifications.Replay
import Vigil.HighFreq.Shards
import Vigil.Wire.KafkaProducer
import Vigil.Ledger.HlcRuns
import Vigil.Wire.Radius
import Vigil.Wire.Mqtt
import Vigil.Wire.SqlLogin
import Vigil.Wire.Bson
import Vigil.Wire.Protobuf
import Vigil.Monitors.JsonQuery
import Vigil.StatusPages.DisplayName
import Vigil.Monitors.Lifetime
import Vigil.Incidents.Capture
import Vigil.Notifications.Reseal
import Vigil.StatusPages.Unsubscribe
import Vigil.Wire.Memcached
import Vigil.Wire.Ftp
import Vigil.Notifications.Pruning
import Vigil.Worker.Retention
