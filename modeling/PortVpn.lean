import PortVpn.Management.HoldProtocol
import PortVpn.Management.PauseRequests
import PortVpn.Management.DeviceMachine
import PortVpn.Management.StatusListeners
import PortVpn.Service.SessionReplacement
import PortVpn.Service.TunAttempts
import PortVpn.Service.TunReplay
import PortVpn.Service.PushFailure
import PortVpn.Service.ProfileManager
import PortVpn.Service.TunFailure
import PortVpn.Service.CanonicalRoutes
import PortVpn.Config.EscapeRoundTrip
import PortVpn.Config.DnsImport
import PortVpn.Config.PassThrough
import PortVpn.Config.ServerVerification
import PortVpn.Config.CheckProfile
import PortVpn.Config.LineReading
import PortVpn.Config.UncheckedFailure
import PortVpn.Config.RemoteImport
import PortVpn.Config.CidrAgreement
import PortVpn.Net.CIDRIP
import PortVpn.Net.RouteTermination
import PortVpn.Net.PushOrder
import PortVpn.Net.NetworkNesting
import PortVpn.Net.IPv6Literal
import PortVpn.Management.CommandStream
import PortVpn.Management.MalformedLine
import PortVpn.Management.ThreadRegistry
import PortVpn.Log.CacheRestore
import PortVpn.Log.CutRecord
import PortVpn.Log.FailingWrites
import PortVpn.Log.OpenVPNThread
import PortVpn.App.AccountRestart
import PortVpn.App.PaymentPaths
import PortVpn.App.LoadingService
import PortVpn.App.SendDataService
import PortVpn.Config.OptionOrder
import PortVpn.Config.ConnectionRoundTrip
import PortVpn.Management.FileDescriptors
import PortVpn.Management.PasswordInput
import PortVpn.Keystore.KeyStoreCertificates
import PortVpn.Keystore.FriendlyName
import PortVpn.Service.ProcessThread
import PortVpn.Management.ByteCounts
import PortVpn.App.ServerGate
