import KepServerLogger.Base.Run
import KepServerLogger.Base.LossyFifo
import KepServerLogger.Py.Dict
import KepServerLogger.Py.DatetimeRoundTrip
import KepServerLogger.Lib.Metrics
import KepServerLogger.Proofs.WireRoundTrip
import KepServerLogger.Ingestor.Db
import KepServerLogger.Proofs.Atomicity
import KepServerLogger.Ingestor.Ingest
import KepServerLogger.Ingestor.Tasks
import KepServerLogger.Proofs.IngestSteps
import KepServerLogger.Proofs.Conservation
import KepServerLogger.Base.Past
import KepServerLogger.Proofs.Cancellation
import KepServerLogger.Proofs.Dedup
import KepServerLogger.Proofs.Reconnect
import KepServerLogger.Base.Raising
import KepServerLogger.Proofs.SchemaRows
import KepServerLogger.Proofs.Poison
import KepServerLogger.Ingestor.Main
import KepServerLogger.Proofs.Supervisor
import KepServerLogger.Proofs.Outage
import KepServerLogger.Proofs.Outcome
import KepServerLogger.Lib.Logging
import KepServerLogger.Lib.Monitor
import KepServerLogger.Base.Entries
import KepServerLogger.Extractor.Publish
import KepServerLogger.Proofs.ErrorLog
import KepServerLogger.Proofs.StatusLog
import KepServerLogger.Lib.Heartbeat
import KepServerLogger.Proofs.Echo
import KepServerLogger.Base.KeyedTable
import KepServerLogger.Extractor.Events
import KepServerLogger.Ingestor.Tables
import KepServerLogger.Proofs.EventKeys
import KepServerLogger.Proofs.Redelivery
import KepServerLogger.Ingestor.Channels
import KepServerLogger.Proofs.TagNames
import KepServerLogger.Lib.OpcParser
import KepServerLogger.Base.Switch
import KepServerLogger.Proofs.ClientMapSteps
import KepServerLogger.Proofs.SessionKeys
import KepServerLogger.Proofs.EstablishedClients
import KepServerLogger.Proofs.Handshakes
import KepServerLogger.Proofs.SharedTags
import KepServerLogger.Proofs.ReconnectHistory
import KepServerLogger.Proofs.SessionLinks
import KepServerLogger.Base.Regex
import KepServerLogger.Lib.BinaryLog
import KepServerLogger.Proofs.EventScan
import KepServerLogger.Proofs.EventBlocks
import KepServerLogger.Proofs.CutBlocks
import KepServerLogger.Proofs.LogBlocks
import KepServerLogger.Proofs.LogRoundTrip
import KepServerLogger.Lib.MergedSessions
import KepServerLogger.Proofs.LostClients
import KepServerLogger.Proofs.HeartbeatLoop
import KepServerLogger.Proofs.Staleness
import KepServerLogger.Proofs.FalseAlarm
import KepServerLogger.Base.TriangleWave
import KepServerLogger.Proofs.HeartbeatWave
import KepServerLogger.Proofs.DecodeErrors
import KepServerLogger.Proofs.ChannelLaw
import KepServerLogger.Proofs.FailureRuns
import KepServerLogger.Proofs.RowShapes
import KepServerLogger.Proofs.TagLocality
import KepServerLogger.Base.Chunks
import KepServerLogger.Lib.Subscription
import KepServerLogger.Proofs.Silence
import KepServerLogger.Proofs.Subscribing
import KepServerLogger.Py.Draining
import KepServerLogger.Lib.Drains
import KepServerLogger.Proofs.Drains
import KepServerLogger.Proofs.PublishSize
import KepServerLogger.Lib.Downtime
import KepServerLogger.Proofs.Downtime
import KepServerLogger.Proofs.CertPairs
import KepServerLogger.Base.Conninfo
import KepServerLogger.Lib.ConnStrings
import KepServerLogger.Proofs.ConnStrings
import KepServerLogger.Proofs.Identifiers
import KepServerLogger.Lib.OpcuaClient
import KepServerLogger.Lib.Settings
import KepServerLogger.Ingestor.Subscriptions
import KepServerLogger.Base.MonitoredNode
import KepServerLogger.System.Pipeline
import KepServerLogger.Proofs.NodeValues
import KepServerLogger.Proofs.Pipeline
import KepServerLogger.Base.TimedNode
import KepServerLogger.System.Schedule
import KepServerLogger.Proofs.Schedule
import KepServerLogger.Proofs.LockProgress
import KepServerLogger.Ingestor.Schema
import KepServerLogger.Proofs.Initialize
import KepServerLogger.Base.Handles
import KepServerLogger.Extractor.Services
import KepServerLogger.Proofs.Services
import KepServerLogger.Proofs.SessionEnds
import KepServerLogger.Base.Growing
import KepServerLogger.Proofs.LogGrowth
import KepServerLogger.Utils.ServerCerts
import KepServerLogger.Proofs.ServerCerts
import KepServerLogger.Proofs.Memory
import KepServerLogger.Proofs.Shutdown
import KepServerLogger.Proofs.Republished
import KepServerLogger.System.Channel
import KepServerLogger.Proofs.TagValues
import KepServerLogger.Proofs.Channel
import KepServerLogger.Base.Sweep
import KepServerLogger.Ingestor.Monitoring
import KepServerLogger.Proofs.Monitoring
import KepServerLogger.Proofs.Routing
