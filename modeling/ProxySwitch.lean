import ProxySwitch.SessionRouteOrphans
import ProxySwitch.SessionRouteIsolation
import ProxySwitch.DestinationRuleBounds
import ProxySwitch.PidReuse
import ProxySwitch.FailedLaunches
import ProxySwitch.TemporaryRoutes
import ProxySwitch.TerminalStatuses
import ProxySwitch.GraceWindows
import ProxySwitch.IpcSessionClosure
import ProxySwitch.RecoveryReplay
import ProxySwitch.OrderlyClose
import ProxySwitch.PendingConnections
import ProxySwitch.TcpTranslation
import ProxySwitch.RoutedSyns
import ProxySwitch.DirectConnections
import ProxySwitch.ProxiedDestinations
import ProxySwitch.RouterReference
import ProxySwitch.GraceTimers
import ProxySwitch.WatchedExits
import ProxySwitch.DatagramAttribution
import ProxySwitch.UdpSessionTables
import ProxySwitch.SocksFraming
import ProxySwitch.DurableDeletions
import ProxySwitch.ReloadedSessions
import ProxySwitch.ExitCallbacks
import ProxySwitch.SessionStops
import ProxySwitch.SessionUniqueness
import ProxySwitch.IdentityMatching
import ProxySwitch.RuntimeRoots
import ProxySwitch.MergePriority
import ProxySwitch.ManagedSessions
import ProxySwitch.ExternalWatcher
import ProxySwitch.StaleLiveRoutes
import ProxySwitch.DiscoveredIdentities
import ProxySwitch.LaunchPaths
import ProxySwitch.CorrelatedHandoff
import ProxySwitch.SupervisedWatcher
import ProxySwitch.DeferredConservation
import ProxySwitch.UdpEncapsulation
import ProxySwitch.CredentialEncoding
import ProxySwitch.UdpAssociation
import ProxySwitch.DirectRuleReference
import ProxySwitch.BackendConfig
import ProxySwitch.RouteShadowing
import ProxySwitch.ProcessAttachment
import ProxySwitch.RouteOwnership
import ProxySwitch.RouteUniqueness
import ProxySwitch.SavedRoutes
import ProxySwitch.StableKeys
import ProxySwitch.HandoffScorer
import ProxySwitch.VendorRoots
import ProxySwitch.ProcessAncestry
import ProxySwitch.RouteRequests
import ProxySwitch.JsonText
import ProxySwitch.IpcReplies
import ProxySwitch.RoutingHints
import ProxySwitch.ConfigRewriting
import ProxySwitch.TextSearch
import ProxySwitch.BrowserCommands
import ProxySwitch.BrowserProfiles
import ProxySwitch.RuleTexts
import ProxySwitch.ProxyIndices
import ProxySwitch.CreationTimes
import ProxySwitch.ProcessNames
import ProxySwitch.StagedQueues
import ProxySwitch.PacketQueues
import ProxySwitch.PacketQueueInvariants
import ProxySwitch.PacketStreams
import ProxySwitch.FilterProgress
import ProxySwitch.RouterFilter
import ProxySwitch.InternetChecksum
import ProxySwitch.PacketChecksums
import ProxySwitch.EthernetFrames
import ProxySwitch.TcpFrames
import ProxySwitch.UdpFrames
import ProxySwitch.Ipv6Checksums
import ProxySwitch.CompletionPort
import ProxySwitch.CompletionDispatch
import ProxySwitch.PoolShutdown
import ProxySwitch.RouterLifecycle
import ProxySwitch.ServerHandlers
import ProxySwitch.ServerOrder
import ProxySwitch.SessionCompletions
import ProxySwitch.FilteredAdapters
import ProxySwitch.StaticFilters
