import Cross233.Control.Framing
import Cross233.Qcp.PanicFreedom
import Cross233.Qcp.Duplicates
import Cross233.Qcp.Ordering
import Cross233.Qcp.Reassembly
import Cross233.Qcp.Closing
import Cross233.Qcp.Redial
import Cross233.Server.ProtectedPorts
import Cross233.Server.Release
import Cross233.Server.Binding
import Cross233.Server.Reconnect
import Cross233.Server.Isolation
import Cross233.Server.Auth
import Cross233.Server.Gates
import Cross233.Server.Cidr
import Cross233.Client.Session
import Cross233.Server.Indexes
import Cross233.Server.UdpSockets
import Cross233.Server.Replay
import Cross233.Server.Tunnels
import Cross233.Server.StaticResponses
import Cross233.Qcp.ByteStream
import Cross233.Control.Agreement
import Cross233.Relay.Udp
import Cross233.Relay.ProxyHeader
import Cross233.Relay.StaticPaths
import Cross233.Qcp.Fragmentation
import Cross233.Qcp.Accounting
import Cross233.Qcp.Wakeup
import Cross233.Qcp.LatestWins
import Cross233.Qcp.Realtime
import Cross233.Control.Ndjson
import Cross233.Qcp.DeadLink
import Cross233.Qcp.Codec
import Cross233.Server.AutoPorts
import Cross233.Server.Rollback
import Cross233.Server.HostRouting
import Cross233.Server.HostHeader
import Cross233.Server.Tcpmux
import Cross233.Server.SniSound
import Cross233.Server.StaticCapture
import Cross233.Relay.StaticRelay
import Cross233.Client.PathBounds
import Cross233.Relay.ProxyV2
import Cross233.Server.ProofInputs
import Cross233.Relay.Health
import Cross233.Server.WebAuth
import Cross233.Server.ConnectionLimit
import Cross233.Control.ReadyLine
import Cross233.Client.PercentDecode
import Cross233.Server.Bandwidth
import Cross233.Client.ActiveTunnels
import Cross233.Client.ServicesCli
import Cross233.Relay.Traffic
