import Blackwire.Net.IpNet

/-!
This module contains the typed configuration that a revision is loaded into. Parts that the modelled
code only compares or hands on are kept as the text that `serde_json` writes for them.
-/

namespace Blackwire

inductive NetworkType where
  | tcp
  | ws
  | httpUpgrade
  | grpc
  | quic
  | splitHttp
deriving DecidableEq

inductive SecurityType where
  | none
  | tls
  | reality
  | shadowTls
deriving DecidableEq

structure TlsConfig where
  serverName : String
  allowInsecure : Bool
  alpn : List String
  certificateFile : String
  keyFile : String

structure RealityFallbackLimitConfig where
  afterBytes : Nat
  bytesPerSec : Nat
  burstBytesPerSec : Nat
deriving DecidableEq

structure RealityConfig where
  «show» : Bool
  dest : String
  privateKey : String
  shortIds : List String
  publicKey : String
  shortId : String
  fingerprint : String
  serverName : String
  serverNames : List String
  maxTimeDiff : Nat
  maxTimeDiffSeconds : Option Nat
  limitFallbackUpload : Option RealityFallbackLimitConfig
  limitFallbackDownload : Option RealityFallbackLimitConfig

-- The headers in the order in which the hash map hands them out.
structure WsConfig where
  path : String
  headers : List (String × String)

structure PaddingBounds where
  min : Option Nat
  max : Option Nat
  fromBytes : Option Nat
  toBytes : Option Nat
deriving DecidableEq

inductive PaddingBytes where
  | fixed (value : Nat)
  | range (value : String)
  | bounds (value : PaddingBounds)
deriving DecidableEq

structure XmuxConfig where
  maxConcurrency : Option Nat
  maxConnections : Option Nat
  cMaxReuseTimes : Option Nat
  hMaxRequestTimes : Option Nat
  hMaxReusableSecs : Option Nat
  hKeepAlivePeriod : Option Nat
deriving DecidableEq

structure DownloadSettings where
  network : Option NetworkType
  security : Option SecurityType
deriving DecidableEq

structure SplitHttpConfig where
  path : String
  host : List String
  method : String
  mode : String
  uplinkHttpMethod : String
  headers : List (String × String)
  xPaddingBytes : Option PaddingBytes
  xPaddingMethod : String
  xPaddingHeader : String
  xPaddingKey : String
  xPaddingPlacement : String
  sessionPlacement : String
  sessionKey : String
  seqPlacement : String
  seqKey : String
  uplinkDataPlacement : String
  uplinkDataKey : String
  uplinkChunkSize : Nat
  scMaxBufferedPosts : Nat
  xmux : Option XmuxConfig
  downloadSettings : Option DownloadSettings

structure GrpcConfig where
  serviceName : String
  multiMode : Bool

structure ShadowTlsConfig where
  password : String
  dest : String
  version : Nat

structure StreamSettingsConfig where
  tlsSettings : Option TlsConfig
  realitySettings : Option RealityConfig
  wsSettings : Option WsConfig
  httpupgradeSettings : Option WsConfig
  splithttpSettings : Option SplitHttpConfig
  grpcSettings : Option GrpcConfig
  shadowTlsSettings : Option ShadowTlsConfig

structure InboundLimitsConfig where
  maxConnections : Option Nat
  maxHandshakeSeconds : Option Nat
  maxIdleSeconds : Option Nat

structure Json where
  text : String
deriving DecidableEq

inductive Protocol where
  | vless
  | vmess
  | trojan
  | shadowsocks
  | hysteria2
  | tuic
  | shadowTls
  | socks
  | http
  | freedom
deriving DecidableEq

def Protocol.debug : Protocol → String
  | .vless => "Vless"
  | .vmess => "Vmess"
  | .trojan => "Trojan"
  | .shadowsocks => "Shadowsocks"
  | .hysteria2 => "Hysteria2"
  | .tuic => "Tuic"
  | .shadowTls => "ShadowTls"
  | .socks => "Socks"
  | .http => "Http"
  | .freedom => "Freedom"

structure EndpointUser where
  id : Option String
  password : Option String
  auth : Option String
  email : Option String
  name : Option String
  flow : String
  upMbps : Option Nat
  downMbps : Option Nat
deriving DecidableEq

namespace EndpointUser

def identifier (user : EndpointUser) : Option String :=
  user.id

def label (user : EndpointUser) : Option String :=
  (user.email.or user.name).filter (· ≠ "")

end EndpointUser

-- Floating-point numbers are kept as their bits.
structure CongestionSettings where
  mode : String
  minAckRate : Option UInt64
  maxQueueDelayMs : Option Nat
  pacingGain : Option UInt64
  lossCompensation : Option Bool
deriving DecidableEq

inductive EndpointCount where
  | fixed (count : Nat)
  | named (name : String)
deriving DecidableEq

structure QuicSocketOverrides where
  reusePort : Option Bool
  endpoints : Option EndpointCount
  recvBufferBytes : Option Nat
  sendBufferBytes : Option Nat
deriving DecidableEq

structure EndpointSettings where
  address : Option String
  port : Option Nat
  server : Option String
  uuid : Option String
  password : Option String
  auth : Option String
  method : Option String
  email : Option String
  name : Option String
  flow : String
  clients : List EndpointUser
  users : List EndpointUser
  decryption : Option String
  network : Option String
  serverName : Option String
  skipCertVerify : Bool
  endpointShards : Option Nat
  authTimeoutMs : Option Nat
  upMbps : Option Nat
  downMbps : Option Nat
  domainStrategy : Option String
  denyLoopback : Bool
  rejectIpv6Literal : Bool
  congestion : Option CongestionSettings
  quic : Option QuicSocketOverrides
  other : Json
deriving DecidableEq

def EndpointSettings.default : EndpointSettings where
  address := none
  port := none
  server := none
  uuid := none
  password := none
  auth := none
  method := none
  email := none
  name := none
  flow := ""
  clients := []
  users := []
  decryption := none
  network := none
  serverName := none
  skipCertVerify := false
  endpointShards := none
  authTimeoutMs := none
  upMbps := none
  downMbps := none
  domainStrategy := none
  denyLoopback := false
  rejectIpv6Literal := false
  congestion := none
  quic := none
  other := ⟨""⟩

structure SniffingConfig where
  enabled : Bool
  destOverride : List String
  metadataOnly : Bool
  routeOnly : Bool
deriving DecidableEq

structure InboundConfig where
  tag : String
  protocol : Protocol
  listen : IpAddr
  port : Nat
  settings : EndpointSettings
  streamSettings : Option Json
  limits : Option Json
  sniffing : Option SniffingConfig
deriving DecidableEq

structure OutboundConfig where
  tag : String
  protocol : Protocol
  settings : EndpointSettings
  streamSettings : Option Json
deriving DecidableEq

structure RoutingRule where
  domain : List String
  ip : List String
  port : Option String
  inboundTag : List String
  protocol : List String
  user : List String
  outboundTag : String
deriving DecidableEq

structure BalancerProfileConfig where
  name : String
  outboundTag : String
deriving DecidableEq

structure AdaptiveBalancerConfig where
  failureThreshold : Nat
  cooldownSecs : Nat
  ewmaAlpha : Json
  switchMargin : Json
deriving DecidableEq

def AdaptiveBalancerConfig.default : AdaptiveBalancerConfig where
  failureThreshold := 2
  cooldownSecs := 30
  ewmaAlpha := ⟨"0.2"⟩
  switchMargin := ⟨"0.15"⟩

structure HealthCheckConfig where
  url : String
  intervalSecs : Nat
  timeoutSecs : Nat
  maxFailures : Nat
deriving DecidableEq

structure BalancerConfig where
  tag : String
  selector : List String
  strategy : String
  profiles : List BalancerProfileConfig
  adaptive : Option AdaptiveBalancerConfig
  healthCheck : Option HealthCheckConfig
deriving DecidableEq

structure RoutingConfig where
  domainStrategy : Option String
  geoipFile : Option String
  geositeFile : Option String
  rules : List RoutingRule
  balancers : List BalancerConfig

structure FakeIpConfig where
  enabled : Bool
  pool : String
deriving DecidableEq

structure DnsConfig where
  servers : List String
  fakeIp : Option FakeIpConfig

structure LimitsConfig where
  maxConnections : Option Nat
  maxConnectionsPerInbound : Option Nat
  maxConnectionsPerUser : Option Nat
  maxHandshakeSeconds : Option Nat
  maxIdleSeconds : Option Nat
deriving DecidableEq

inductive ProfileMode where
  | compat
  | fast
deriving DecidableEq

structure Config where
  profile : ProfileMode
  fast : Option Json
  vision : Option Json
  firstPacketBoost : Option Json
  quic : Option Json
  log : Json
  dns : Option DnsConfig
  routing : Option RoutingConfig
  tun : Option Json
  limits : LimitsConfig
  inbounds : List InboundConfig
  outbounds : List OutboundConfig
  stats : Option Json
  metricsAddr : Option String

namespace Config

def rules (config : Config) : List RoutingRule :=
  match config.routing with
  | none => []
  | some routing => routing.rules

def balancers (config : Config) : List BalancerConfig :=
  match config.routing with
  | none => []
  | some routing => routing.balancers

end Config

end Blackwire
