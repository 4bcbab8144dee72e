import GameAP.Tasks.Events
import GameAP.Tasks.Ownership
import GameAP.Tasks.Dispatch
import GameAP.Tasks.Reconcile
import GameAP.Session.Cluster
import GameAP.Files.Local
import GameAP.Upload.Chunks
import GameAP.Upload.Completion
import GameAP.Session.History
import GameAP.Session.Waiters
import GameAP.RBAC.Cache
import GameAP.ServerControl.Tasks
import GameAP.Daemon.Ranges
import GameAP.Transfers.Local
import GameAP.Auth.ShortLived
import GameAP.Auth.Challenges
import GameAP.Auth.Replay
import GameAP.Auth.Logout
import GameAP.Enrollment.Tickets
import GameAP.Enrollment.SetupKeys
import GameAP.Plugins.Scheduler
import GameAP.Locks.InMemoryLocker
import GameAP.Plugins.TaskExclusion
import GameAP.Repositories.CachedNodes
import GameAP.Plugins.PathConfinement
import GameAP.Session.Streams
import GameAP.Metrics.Requests
import GameAP.Metrics.Hub
import GameAP.Plugins.ArchiveEvents
import GameAP.Plugins.Storage
import GameAP.Console.Commands
import GameAP.Console.Masking
import GameAP.Plugins.PermissionCache
import GameAP.Upload.Admission
import GameAP.Tasks.Reaper
import GameAP.Repositories.ServerIndexes
import GameAP.ServerTasks.InlineOutput
import GameAP.Games.Upgrade
import GameAP.Games.Translations
import GameAP.Rcon.Source
import GameAP.Rcon.Packets
import GameAP.Transfers.Service
import GameAP.Plugins.Recovery
import GameAP.Query.GameSpy3
import GameAP.Query.Source
import GameAP.Repositories.Pagination
import GameAP.Repositories.DaemonTaskHistories
import GameAP.Servers.Settings
import GameAP.Netutil.SSRF
import GameAP.Plugins.CapturedStream
import GameAP.Plugins.Secrets
