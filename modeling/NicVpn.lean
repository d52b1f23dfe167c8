import NicVpn.Lib.Run
import NicVpn.Lib.Utf8
import NicVpn.Lib.Text
import NicVpn.Lib.Joined
import NicVpn.Lib.Inet6
import NicVpn.Lib.Replace
import NicVpn.Lib.TokenRuns
import NicVpn.Lib.KeyValue
import NicVpn.Lib.Lines
import NicVpn.Lib.Base64
import NicVpn.Lib.Clock
import NicVpn.Lib.Http
import NicVpn.Lib.Assoc
import NicVpn.Lib.Dyadic
import NicVpn.Lib.MostSpecific
import NicVpn.Lib.Taking
import NicVpn.Lib.Percent
import NicVpn.Lib.Uri
import NicVpn.Lib.UriServer
import NicVpn.Lib.Backtrack
import NicVpn.Lib.Json
import NicVpn.Lib.FirstMatch
import NicVpn.Lib.Replica
import NicVpn.Lib.WrittenFile
import NicVpn.Lib.Intervals
import NicVpn.Utils
import NicVpn.Prefs
import NicVpn.ConfigFile
import NicVpn.StartFragment
import NicVpn.StunnelConfig
import NicVpn.ToolsBase64
import NicVpn.ServerClass
import NicVpn.ServerStore
import NicVpn.V2rayConfig
import NicVpn.AngConfigManager
import NicVpn.V2rayConfigUtil
import NicVpn.CoreRouting
import NicVpn.ConnectionTimer
import NicVpn.DnsService
import NicVpn.Connection
import NicVpn.Handshake
import NicVpn.ClientServer
import NicVpn.DeviceStateReceiver
import NicVpn.HTTProcessManager
import NicVpn.OpenVpnManagementThread
import NicVpn.ActiveThreads
import NicVpn.V2RayServiceManager
import NicVpn.V2RayVpnService
import NicVpn.VpnProfile
import NicVpn.ConfigParser
import NicVpn.ConvertProfile
import NicVpn.GetConfigFile
import NicVpn.ProfileManager
import NicVpn.CIDRIP
import NicVpn.V2RayTun
import NicVpn.ManagementPassword
import NicVpn.NetworkSpace
import NicVpn.OpenVPNService
import NicVpn.LogFileHandler
import NicVpn.LogItem
import NicVpn.LogCacheFile
import NicVpn.TrafficHistory
import NicVpn.LogBox
import NicVpn.OpenVPNStatusService
import NicVpn.Theorems.Prefs
import NicVpn.Theorems.ConfigFile
import NicVpn.Theorems.RouteMask
import NicVpn.Theorems.Settings
import NicVpn.Theorems.ConvertProfile
import NicVpn.Theorems.Untouched
import NicVpn.Theorems.Routing
import NicVpn.Theorems.DnsOptions
import NicVpn.Theorems.Routes
import NicVpn.Theorems.MaskArithmetic
import NicVpn.Theorems.CheckProfile
import NicVpn.Theorems.OptionArguments
import NicVpn.Theorems.InlineBlocks
import NicVpn.Theorems.ImportFile
import NicVpn.Theorems.StartFragment
import NicVpn.Theorems.StartedFlags
import NicVpn.Theorems.LeftRunning
import NicVpn.Theorems.TimeLimit
import NicVpn.Theorems.ServerStore
import NicVpn.Theorems.ServerList
import NicVpn.Theorems.FailedImport
import NicVpn.Theorems.Transport
import NicVpn.Theorems.VmessLink
import NicVpn.Theorems.NewVmess
import NicVpn.Theorems.ShadowsocksLink
import NicVpn.Theorems.LinkQuery
import NicVpn.Theorems.LinkStream
import NicVpn.Theorems.ServerLink
import NicVpn.Theorems.SocksLink
import NicVpn.Theorems.SharedLink
import NicVpn.Theorems.V2rayConfigUtil
import NicVpn.Theorems.V2rayDns
import NicVpn.Theorems.Ipv6Recogniser
import NicVpn.Theorems.Ipv4Recogniser
import NicVpn.Theorems.ConnectionTimer
import NicVpn.Theorems.DnsService
import NicVpn.Theorems.Connection
import NicVpn.Theorems.Handshake
import NicVpn.Theorems.ServerResponse
import NicVpn.Theorems.HandshakeIds
import NicVpn.Theorems.Payload
import NicVpn.Theorems.PayloadSplit
import NicVpn.Theorems.PayloadTokens
import NicVpn.Theorems.PayloadHead
import NicVpn.Theorems.StunnelConfig
import NicVpn.Theorems.ToolsBase64
import NicVpn.Theorems.ServerClass
import NicVpn.Theorems.ClientServer
import NicVpn.Theorems.DeviceState
import NicVpn.Theorems.HTTProcessManager
import NicVpn.Theorems.ManagementInput
import NicVpn.Theorems.NeedCommand
import NicVpn.Theorems.ActiveThreads
import NicVpn.Theorems.V2RayServiceManager
import NicVpn.Theorems.V2RayVpnService
import NicVpn.Theorems.ManagementPassword
import NicVpn.Theorems.NetworkSpace
import NicVpn.Theorems.NetworkBlocks
import NicVpn.Theorems.SparseNetworks
import NicVpn.Theorems.NetworkText
import NicVpn.Theorems.Ipv6Text
import NicVpn.Theorems.TunConfig
import NicVpn.Theorems.TunConfigString
import NicVpn.Theorems.TunReopen
import NicVpn.Theorems.LogCache
import NicVpn.Theorems.LogItem
import NicVpn.Theorems.LogCacheFile
import NicVpn.Theorems.TrafficHistory
import NicVpn.Theorems.LogBox
import NicVpn.Theorems.OpenVPNStatusService
import NicVpn.Theorems.WrittenLines
import NicVpn.Theorems.WrittenOptions
import NicVpn.Theorems.WrittenText
import NicVpn.Theorems.GivenOptions
import NicVpn.Theorems.ImportedOptions
import NicVpn.Theorems.ImportedProfile
import NicVpn.Theorems.ProfileManager
import NicVpn.Theorems.V2RayTun
