import UltimateBBSBox.Library.Dict
import UltimateBBSBox.Library.Act
import UltimateBBSBox.Library.Family
import UltimateBBSBox.Library.Machine
import UltimateBBSBox.Library.DateTime
import UltimateBBSBox.Library.Window
import UltimateBBSBox.Registry
import UltimateBBSBox.Supervisor.Lifecycle
import UltimateBBSBox.Supervisor.Scheduler
import UltimateBBSBox.Supervisor.Instance
import UltimateBBSBox.Supervisor.Cell
import UltimateBBSBox.Supervisor.Operations
import UltimateBBSBox.Supervisor.Execution
import UltimateBBSBox.Supervisor.Footprint
import UltimateBBSBox.Supervisor.Runs
import UltimateBBSBox.Supervisor.Fleet
import UltimateBBSBox.Supervisor.Callers
import UltimateBBSBox.Supervisor.Accounting
import UltimateBBSBox.Supervisor.Budget
import UltimateBBSBox.Supervisor.Starting
import UltimateBBSBox.Supervisor.Maintenance
import UltimateBBSBox.Supervisor.Overrides
import UltimateBBSBox.Supervisor.Recovery
import UltimateBBSBox.Library.WriteAhead
import UltimateBBSBox.Supervisor.Deeds
import UltimateBBSBox.Supervisor.Crashes
import UltimateBBSBox.Supervisor.Journal
import UltimateBBSBox.Supervisor.Idle
import UltimateBBSBox.Supervisor.IdleStops
import UltimateBBSBox.Supervisor.Convergence
import UltimateBBSBox.Library.WriteBack
import UltimateBBSBox.Supervisor.Saved
import UltimateBBSBox.Supervisor.Durable
import UltimateBBSBox.Router.Session
import UltimateBBSBox.Router.Policy
import UltimateBBSBox.Router.Operations
import UltimateBBSBox.Router.Runs
import UltimateBBSBox.Router.Execution
import UltimateBBSBox.Router.Moves
import UltimateBBSBox.Router.Steps
import UltimateBBSBox.Library.Forest
import UltimateBBSBox.Router.Authorization
import UltimateBBSBox.Router.Handoff
import UltimateBBSBox.Router.Holds
import UltimateBBSBox.Router.Returning
import UltimateBBSBox.Library.Lockstep
import UltimateBBSBox.Router.Disclosure
import UltimateBBSBox.Library.Index
import UltimateBBSBox.Library.Check
import UltimateBBSBox.Catalog.Manifests
import UltimateBBSBox.Catalog.Checkers
import UltimateBBSBox.Catalog.Agreement
import UltimateBBSBox.Library.IsoFormat
import UltimateBBSBox.Observatory.Collector
import UltimateBBSBox.Observatory.Policy
import UltimateBBSBox.Library.Retention
import UltimateBBSBox.Monitoring.Engine
import UltimateBBSBox.Monitoring.Lifecycle
import UltimateBBSBox.Library.SharedTemp
import UltimateBBSBox.Monitoring.Concurrent
import UltimateBBSBox.Monitoring.Coverage
import UltimateBBSBox.Library.Tar
import UltimateBBSBox.Backup.Manager
import UltimateBBSBox.Backup.Operations
import UltimateBBSBox.Backup.RoundTrip
import UltimateBBSBox.Backup.Evidence
import UltimateBBSBox.Admin.Throttle
import UltimateBBSBox.Admin.Accounts
import UltimateBBSBox.Admin.Actions
import UltimateBBSBox.Admin.Handler
import UltimateBBSBox.Admin.Runs
import UltimateBBSBox.Admin.Gate
import UltimateBBSBox.Admin.Revocation
import UltimateBBSBox.Admin.Plan
import UltimateBBSBox.Admin.Trail
import UltimateBBSBox.Library.Text
import UltimateBBSBox.Library.ByteSource
import UltimateBBSBox.Router.Streams
import UltimateBBSBox.Router.Logged
import UltimateBBSBox.Router.Menu
import UltimateBBSBox.Observatory.Sessions
import UltimateBBSBox.Monitoring.Settled
import UltimateBBSBox.Admin.Reading
import UltimateBBSBox.Admin.ReadOnly
import UltimateBBSBox.Archive.Names
import UltimateBBSBox.Supervisor.Schedules
import UltimateBBSBox.Supervisor.Refusals
import UltimateBBSBox.Supervisor.Halting
import UltimateBBSBox.Library.Address
import UltimateBBSBox.Library.Url
import UltimateBBSBox.Library.Authority
import UltimateBBSBox.Archive.Sources
import UltimateBBSBox.Archive.Metadata
import UltimateBBSBox.Archive.Store
import UltimateBBSBox.Archive.Preserving
import UltimateBBSBox.Archive.Export
import UltimateBBSBox.Archive.Exporting
import UltimateBBSBox.Archive.ReadBack
import UltimateBBSBox.Archive.Bundling
import UltimateBBSBox.Archive.Published
import UltimateBBSBox.Archive.BundleTexts
import UltimateBBSBox.Archive.Exports
import UltimateBBSBox.Integrations.Promotion
import UltimateBBSBox.Monitoring.Heartbeat
import UltimateBBSBox.Admin.Escalation
import UltimateBBSBox.Admin.Simultaneous
import UltimateBBSBox.Archive.JsonText
import UltimateBBSBox.Library.LineLog
import UltimateBBSBox.Admin.AuditLog
import UltimateBBSBox.Library.PrefixCode
import UltimateBBSBox.Library.Utf8
import UltimateBBSBox.Deployment.Tree
import UltimateBBSBox.Deployment.Manager
import UltimateBBSBox.Library.Ledger
import UltimateBBSBox.Runtime.Adapter
import UltimateBBSBox.Runtime.Stopping
import UltimateBBSBox.Runtime.Terminals
import UltimateBBSBox.Dos.Deployments
import UltimateBBSBox.Dos.Nodes
import UltimateBBSBox.Library.PosixPath
import UltimateBBSBox.Mail.Config
import UltimateBBSBox.Mail.Aliases
import UltimateBBSBox.Network.Edge
import UltimateBBSBox.Network.Inventory
import UltimateBBSBox.Network.Listeners
import UltimateBBSBox.Deployment.Staging
import UltimateBBSBox.Library.FileSystem
import UltimateBBSBox.Library.Layout
import UltimateBBSBox.Integrations.Hardening
import UltimateBBSBox.Integrations.LiveState
import UltimateBBSBox.Integrations.LiveBackup
import UltimateBBSBox.Integrations.Restoring
import UltimateBBSBox.Library.DepthFirst
import UltimateBBSBox.Network.Cycles
import UltimateBBSBox.Library.Lines
import UltimateBBSBox.Library.Networks
import UltimateBBSBox.Daemons.Fields
import UltimateBBSBox.Daemons.Network
import UltimateBBSBox.Daemons.Ftn
import UltimateBBSBox.Daemons.Irc
import UltimateBBSBox.Daemons.News
import UltimateBBSBox.Daemons.Mail
import UltimateBBSBox.Daemons.Rendering
import UltimateBBSBox.Library.Words
import UltimateBBSBox.Runtime.Identity
import UltimateBBSBox.Supervisor.LastRuns
import UltimateBBSBox.Supervisor.Neighbours
import UltimateBBSBox.Archive.Acquiring
import UltimateBBSBox.Archive.Runs
import UltimateBBSBox.Archive.Integrity
import UltimateBBSBox.Archive.Lineage
import UltimateBBSBox.Archive.Evidence
import UltimateBBSBox.Supervisor.Progress
import UltimateBBSBox.Supervisor.Endless
import UltimateBBSBox.Router.Atomicity
import UltimateBBSBox.Supervisor.Spacing
import UltimateBBSBox.Supervisor.Stack
import UltimateBBSBox.Archive.JsonDump
import UltimateBBSBox.Supervisor.StateFile
