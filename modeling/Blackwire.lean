import Blackwire.App.Router
import Blackwire.Protocol.Vless.Lemmas.Addons
import Blackwire.Protocol.Ss2022.Inbound
import Blackwire.Store.Traffic
import Blackwire.Transport.Reality.Mirror
import Blackwire.Cli.Reconcile
import Blackwire.Store.Lemmas.History
import Blackwire.Common.Relay
import Blackwire.App.Relay
import Blackwire.App.Zerocopy
import Blackwire.Transport.Ws
import Blackwire.Transport.SplitHttp.PacketUp
import Blackwire.Transport.SplitHttp.Stream
import Blackwire.Common.Lemmas.Framing
import Blackwire.Protocol.Lemmas.Shutdown
import Blackwire.Protocol.Ss2022.Lemmas.Integrity
import Blackwire.Protocol.Vless.Mux
import Blackwire.Transport.Grpc
import Blackwire.Transport.Reality.ServerHello
import Blackwire.Transport.Reality.Lemmas.Flight
import Blackwire.Transport.Reality.Stream
import Blackwire.Transport.Reality.Lemmas.RoundTrip
import Blackwire.Transport.Hysteria2.Udp
import Blackwire.Protocol.UdpRelay
import Blackwire.Protocol.Vmess.Udp
import Blackwire.Transport.Reality.Auth
import Blackwire.Protocol.Socks5Udp
import Blackwire.App.Sniff
import Blackwire.Transport.Tun.Packet
import Blackwire.App.LiveRouter
import Blackwire.App.RouteMatch
import Blackwire.App.UserLimits
import Blackwire.Transport.SplitHttp.Sessions
import Blackwire.Transport.ShadowTls.Lemmas.V3Tamper
import Blackwire.App.Dispatch
import Blackwire.Protocol.Ss2022.Handshake
import Blackwire.Transport.Tun.Tcp
import Blackwire.Protocol.Ss2022.Lemmas.Nonces
import Blackwire.Common.Buf
import Blackwire.Transport.BadNet
import Blackwire.Protocol.Vmess.Auth
import Blackwire.App.Balancer
