import FoxVpn.Lib.Run
import FoxVpn.Lib.Text
import FoxVpn.Lib.Result
import FoxVpn.Lib.SortedList
import FoxVpn.Lib.BinarySearch
import FoxVpn.Lib.LinkedMap
import FoxVpn.Lib.Regex
import FoxVpn.Lib.Percent
import FoxVpn.Lib.Utf8
import FoxVpn.Lib.Base64
import FoxVpn.Lib.Bits
import FoxVpn.Lib.Stream
import FoxVpn.Lib.Path
import FoxVpn.Lib.Sql
import FoxVpn.Utils.Fault
import FoxVpn.Database.Profile
import FoxVpn.Database.ProfileManager
import FoxVpn.Bg.GuardedProcessPool
import FoxVpn.Bg.ProcessPool
import FoxVpn.Bg.PoolClose
import FoxVpn.Bg.UnderlyingNetworks
import FoxVpn.Bg.TrafficMonitor
import FoxVpn.Bg.TrafficRates
import FoxVpn.Bg.FramedReads
import FoxVpn.Bg.DirectBootAccounting
import FoxVpn.Bg.DeviceProfile
import FoxVpn.Bg.ProcessRestarts
import FoxVpn.Bg.Service
import FoxVpn.Bg.Lifecycle
import FoxVpn.Bg.BandwidthLoop
import FoxVpn.Net.LocalSocketListener
import FoxVpn.Aidl.ShadowsocksConnection
import FoxVpn.Net.DefaultNetworkListener
import FoxVpn.Net.ConnectivityThread
import FoxVpn.Net.ListenerViews
import FoxVpn.Bg.NetworkSession
import FoxVpn.Database.RowOperations
import FoxVpn.Bg.SessionOutcome
import FoxVpn.Bg.Host
import FoxVpn.Bg.ConfigFiles
import FoxVpn.Bg.SessionProcesses
import FoxVpn.Core
import FoxVpn.App.ServerSwitch
import FoxVpn.App.FoxFbManager
import FoxVpn.App.ServerListUpdate
import FoxVpn.App.VpnManager
import FoxVpn.App.FoxAdPresenter
import FoxVpn.App.AdDismissal
import FoxVpn.App.HotLaunch
import FoxVpn.App.ServerAgreement
import FoxVpn.App.DisplayedState
import FoxVpn.App.LateStopping
import FoxVpn.App.ServerSelection
import FoxVpn.Net.Subnet
import FoxVpn.Net.Immutable
import FoxVpn.Net.Dotted
import FoxVpn.Acl.Acl
import FoxVpn.Acl.SubnetOrder
import FoxVpn.Acl.RoundTrip
import FoxVpn.Acl.Flatten
import FoxVpn.Acl.FailedLoad
import FoxVpn.Acl.CustomRules
import FoxVpn.Acl.ModeDirectives
import FoxVpn.Bg.VpnRoutes
import FoxVpn.Bg.VpnBuilder
import FoxVpn.Plugin.PluginOptions
import FoxVpn.Utils.Commandline
import FoxVpn.Plugin.OptionSegments
import FoxVpn.Plugin.PluginConfiguration
import FoxVpn.Plugin.SelectedPlugin
import FoxVpn.Plugin.PluginManager
import FoxVpn.Plugin.PluginList
import FoxVpn.Plugin.PluginCache
import FoxVpn.Preference.DataStore
import FoxVpn.Preference.LocalPorts
import FoxVpn.Database.StringSet
import FoxVpn.Preference.TypedStore
import FoxVpn.Database.ProfileJson
import FoxVpn.Database.FallbackAssociation
import FoxVpn.Database.JsonRoundTrip
import FoxVpn.Database.ProfileLink
import FoxVpn.Database.LinkText
import FoxVpn.Database.LinkRoundTrip
import FoxVpn.Database.LegacyLink
import FoxVpn.Database.ImportedEndpoints
import FoxVpn.Database.Migrations
