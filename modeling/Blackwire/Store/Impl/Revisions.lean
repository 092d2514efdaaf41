import Blackwire.Config.Impl.Schema
import Blackwire.Lib.Text
import Blackwire.Store.Impl.Tables

/-!
This module contains the revisions of the configuration and their edits: what is checked before an
inbound, an outbound or a user is saved, and the statements that save or delete it. An edit forks
the desired revision in a transaction that holds the lock on the state row, changes the copy and
publishes it.
-/

namespace Blackwire.Store

open Sql

structure InboundWrite where
  id : Option Int
  tag : String
  listen : String
  port : Nat
  protocol : String
  enabled : Bool
  transport : String
  security : String
  settings : Option EndpointSettings
  streamSettings : Option StreamSettingsConfig
  sniffing : Option SniffingConfig
  limits : Option InboundLimitsConfig

structure OutboundWrite where
  id : Option Int
  tag : String
  protocol : String
  enabled : Bool
  address : Option String
  port : Option Nat
  transport : String
  security : String
  settings : Option EndpointSettings
  streamSettings : Option StreamSettingsConfig

structure UserWrite where
  id : Option Int
  inboundId : Int
  email : String
  enabled : Bool
  flow : String
  note : String
  trafficLimitBytes : Option Int
  expiryAt : Option Int
  subscriptionToken : String
  credentialKind : String
  uuid : Option String
  password : Option String
  method : Option String
  auth : Option String

inductive StoreError where
  | revisionConflict (expected actual : Int)
  | invalidConfiguration (message : String)
  | sql

section Validation

def validateTransportSecurity (protocol transport security : String) : Except StoreError Unit :=
  if transport ∉ ["tcp", "ws", "grpc", "httpupgrade", "splithttp", "quic"] then
    .error (.invalidConfiguration ("unsupported transport '" ++ transport ++ "'"))
  else if security ∉ ["none", "tls", "reality", "shadowtls"] then
    .error (.invalidConfiguration ("unsupported security mode '" ++ security ++ "'"))
  else if transport = "quic" ∧ protocol ∉ ["hysteria2", "tuic"] then
    .error (.invalidConfiguration ("generic V2Ray QUIC transport was removed; use Hysteria2/TUIC "
      ++ "or a supported stream transport"))
  else
    .ok ()

-- `isIpAddr` says what the standard library parses as an address.
def validateInbound (isIpAddr : String → Bool) (input : InboundWrite) : Except StoreError Unit :=
  if Text.trim input.tag = "" ∨ ¬ isIpAddr input.listen ∨ input.port = 0 then
    .error (.invalidConfiguration
      "inbound tag, IP listen address, and non-zero port are required")
  else if input.protocol ∉
      ["vless", "vmess", "trojan", "shadowsocks", "hysteria2", "tuic", "socks", "http"] then
    .error (.invalidConfiguration ("unsupported inbound protocol '" ++ input.protocol ++ "'"))
  else
    validateTransportSecurity input.protocol input.transport input.security

def validateOutbound (input : OutboundWrite) : Except StoreError Unit :=
  if Text.trim input.tag = "" then
    .error (.invalidConfiguration "outbound tag is required")
  else if input.protocol ∉
      ["freedom", "vless", "vmess", "trojan", "shadowsocks", "hysteria2", "tuic"] then
    .error (.invalidConfiguration ("unsupported outbound protocol '" ++ input.protocol ++ "'"))
  else if input.protocol ≠ "freedom"
      ∧ (input.address.getD "" = "" ∨ input.port.getD 0 = 0) then
    .error (.invalidConfiguration "non-freedom outbounds require a server address and port")
  else
    validateTransportSecurity input.protocol input.transport input.security

def validateUser (input : UserWrite) : Except StoreError Unit :=
  if Text.trim input.email = "" ∨ Text.trim input.subscriptionToken = "" then
    .error (.invalidConfiguration "user email and subscription token are required")
  else
    .ok ()

end Validation

inductive EndpointKind where
  | inbound
  | outbound

def EndpointKind.name : EndpointKind → String
  | .inbound => "inbound"
  | .outbound => "outbound"

def networkName : NetworkType → String
  | .tcp => "tcp"
  | .ws => "ws"
  | .httpUpgrade => "httpupgrade"
  | .grpc => "grpc"
  | .quic => "quic"
  | .splitHttp => "splithttp"

def securityName : SecurityType → String
  | .none => "none"
  | .tls => "tls"
  | .reality => "reality"
  | .shadowTls => "shadowtls"

def overwrite (t : TableName) (values : List Value) : Stmt :=
  .upsert t (.ofValues t values)
    ((t.columns.filter (· ∉ t.primaryKey)).map fun c => (c, .values))

section Details

variable (collate : String → String) (revision : Int) (kind : EndpointKind) (id : Int)

def endpointKey : List Value := [.int revision, .text kind.name, .int id]

section

variable (t : TableName)

def deleteAt (conditions : List (ColumnName × Value)) : Stmt :=
  .delete t (whereAll collate conditions)

def endpointConditions : List (ColumnName × Value) :=
  [(.revisionId, .int revision), (.endpointKind, .text kind.name), (.endpointId, .int id)]

def deleteEndpoint : Stmt :=
  deleteAt collate t (endpointConditions revision kind id)

-- `DELETE … AND transport_kind=?`
def deleteTransport (transportKind : String) : Stmt :=
  deleteAt collate t
    (endpointConditions revision kind id ++ [(.transportKind, .text transportKind)])

-- One row for each element of a list, numbered by `position as u32`.
def insertPositions (values : List String) : List Stmt :=
  values.zipIdx.map fun p =>
    .insert t (.ofValues t (endpointKey revision kind id ++ [.ofNat (p.snd % 2 ^ 32), .text p.fst]))

end

def writeTls (tls : Option TlsConfig) : List Stmt :=
  match tls with
  | none => [deleteEndpoint collate revision kind id .tlsSettings]
  | some tls =>
    [overwrite .tlsSettings (endpointKey revision kind id ++ [
        .text tls.serverName, .ofBool tls.allowInsecure, .text tls.certificateFile,
        .text tls.keyFile]),
      deleteEndpoint collate revision kind id .tlsAlpn]
      ++ insertPositions revision kind id .tlsAlpn tls.alpn

def writeShadowTls (shadow : Option ShadowTlsConfig) : List Stmt :=
  match shadow with
  | none => [deleteEndpoint collate revision kind id .shadowtlsSettings]
  | some shadow =>
    [overwrite .shadowtlsSettings (endpointKey revision kind id ++ [
      .utf8 shadow.password, .text (Text.trim shadow.dest), .ofNat shadow.version])]

def fallbackLimit (limit : Option RealityFallbackLimitConfig) : List Value :=
  [.ofOption (fun limit => .ofNat limit.afterBytes) limit,
    .ofOption (fun limit => .ofNat limit.bytesPerSec) limit,
    .ofOption (fun limit => .ofNat limit.burstBytesPerSec) limit]

def writeReality (reality : Option RealityConfig) : List Stmt :=
  match reality with
  | none => [deleteEndpoint collate revision kind id .realitySettings]
  | some reality =>
    let maxTimeDiff := reality.maxTimeDiffSeconds.or
      (if reality.maxTimeDiff > 0 then some reality.maxTimeDiff else none)
    [overwrite .realitySettings (endpointKey revision kind id ++ [
        .ofBool reality.show, .text reality.dest, .text reality.privateKey,
        .text reality.publicKey, .text reality.shortId, .text reality.fingerprint,
        .text reality.serverName, .ofOption .ofNat maxTimeDiff]
        ++ fallbackLimit reality.limitFallbackUpload
        ++ fallbackLimit reality.limitFallbackDownload),
      deleteEndpoint collate revision kind id .realityServerNames]
      ++ insertPositions revision kind id .realityServerNames reality.serverNames
      ++ [deleteEndpoint collate revision kind id .realityShortIds]
      ++ insertPositions revision kind id .realityShortIds reality.shortIds

section

variable (transportKind : String)

def insertHeaders (headers : List (String × String)) : List Stmt :=
  headers.map fun header =>
    .insert .transportHeaders (.ofValues _ (endpointKey revision kind id ++ [
      .text transportKind, .text header.fst, .text header.snd]))

def writeTransportPath (path : Option String) : List Stmt :=
  match path with
  | none => [deleteTransport collate revision kind id .websocketSettings transportKind]
  | some path =>
    [overwrite .websocketSettings (endpointKey revision kind id ++ [
      .text transportKind, .text path])]

def writeWebTransport (config : Option WsConfig) : List Stmt :=
  match config with
  | none => [deleteTransport collate revision kind id .websocketSettings transportKind]
  | some config =>
    [overwrite .websocketSettings (endpointKey revision kind id ++ [
        .text transportKind, .text config.path]),
      deleteTransport collate revision kind id .transportHeaders transportKind]
      ++ insertHeaders revision kind id transportKind config.headers

end

-- The columns from `padding_kind` to `padding_to`.
def paddingValues (padding : Option PaddingBytes) : List Value :=
  match padding with
  | none => [.null, .null, .null, .null, .null, .null, .null]
  | some (.fixed value) => [.text "fixed", .ofNat value, .null, .null, .null, .null, .null]
  | some (.range value) => [.text "range", .null, .text value, .null, .null, .null, .null]
  | some (.bounds value) =>
    [.text "bounds", .null, .null, .ofOption .ofNat value.min, .ofOption .ofNat value.max,
      .ofOption .ofNat value.fromBytes, .ofOption .ofNat value.toBytes]

def xmuxValues (xmux : Option XmuxConfig) : List Value :=
  [.ofBool xmux.isSome,
    .ofOption .ofNat (xmux.bind (·.maxConcurrency)),
    .ofOption .ofNat (xmux.bind (·.maxConnections)),
    .ofOption .ofNat (xmux.bind (·.cMaxReuseTimes)),
    .ofOption .ofNat (xmux.bind (·.hMaxRequestTimes)),
    .ofOption .ofNat (xmux.bind (·.hMaxReusableSecs)),
    .ofOption .ofNat (xmux.bind (·.hKeepAlivePeriod))]

def downloadValues (download : Option DownloadSettings) : List Value :=
  [.ofBool download.isSome,
    .ofOption (fun network => .text (networkName network)) (download.bind (·.network)),
    .ofOption (fun security => .text (securityName security)) (download.bind (·.security))]

def writeSplithttp (config : Option SplitHttpConfig) : List Stmt :=
  match config with
  | none =>
    [deleteEndpoint collate revision kind id .splithttpSettings,
      deleteTransport collate revision kind id .transportHeaders "splithttp"]
  | some config =>
    let hosts := config.host.filter (fun value => Text.trim value ≠ "")
    [overwrite .splithttpSettings (endpointKey revision kind id ++ [
        .text config.method, .text config.mode, .text config.uplinkHttpMethod]
        ++ paddingValues config.xPaddingBytes ++ [
        .text config.xPaddingMethod, .text config.xPaddingHeader, .text config.xPaddingKey,
        .text config.xPaddingPlacement, .text config.sessionPlacement, .text config.sessionKey,
        .text config.seqPlacement, .text config.seqKey, .text config.uplinkDataPlacement,
        .text config.uplinkDataKey, .ofNat config.uplinkChunkSize,
        .ofNat config.scMaxBufferedPosts]
        ++ xmuxValues config.xmux ++ downloadValues config.downloadSettings),
      deleteEndpoint collate revision kind id .splithttpHosts]
      ++ insertPositions revision kind id .splithttpHosts (hosts.map Text.trim)
      ++ [deleteTransport collate revision kind id .transportHeaders "splithttp"]
      ++ insertHeaders revision kind id "splithttp" config.headers

def writeGrpc (grpc : Option GrpcConfig) : List Stmt :=
  match grpc with
  | none => [deleteEndpoint collate revision kind id .grpcSettings]
  | some grpc =>
    [overwrite .grpcSettings (endpointKey revision kind id ++ [
      .text grpc.serviceName, .ofBool grpc.multiMode])]

def writeStreamDetails (stream : StreamSettingsConfig) : List Stmt :=
  writeTls collate revision kind id stream.tlsSettings
    ++ writeShadowTls collate revision kind id stream.shadowTlsSettings
    ++ writeReality collate revision kind id stream.realitySettings
    ++ writeWebTransport collate revision kind id "ws" stream.wsSettings
    ++ writeWebTransport collate revision kind id "httpupgrade" stream.httpupgradeSettings
    ++ writeTransportPath collate revision kind id "splithttp"
      (stream.splithttpSettings.map (·.path))
    ++ writeSplithttp collate revision kind id stream.splithttpSettings
    ++ writeGrpc collate revision kind id stream.grpcSettings

def EndpointCount.value : EndpointCount → Value
  | .fixed count => .text (toString count)
  | .named name => .text name

def writeEndpointTuning (settings : EndpointSettings) : List Stmt :=
  if settings.congestion.isNone ∧ settings.quic.isNone then
    [deleteEndpoint collate revision kind id .endpointTuning]
  else
    let congestion := settings.congestion
    let quic := settings.quic
    [overwrite .endpointTuning (endpointKey revision kind id ++ [
      .ofOption (fun congestion => .text congestion.mode) congestion,
      .ofOption .double (congestion.bind (·.minAckRate)),
      .ofOption .ofNat (congestion.bind (·.maxQueueDelayMs)),
      .ofOption .double (congestion.bind (·.pacingGain)),
      .ofOption .ofBool (congestion.bind (·.lossCompensation)),
      .ofOption .ofBool (quic.bind (·.reusePort)),
      .ofOption EndpointCount.value (quic.bind (·.endpoints)),
      .ofOption .ofNat (quic.bind (·.recvBufferBytes)),
      .ofOption .ofNat (quic.bind (·.sendBufferBytes))])]

end Details

section Statements

variable (collate : String → String) (revision id : Int)

-- `ON DUPLICATE KEY UPDATE` with `c=VALUES(c)` for the columns given.
def updating (columns : List ColumnName) : List (ColumnName × Assignment) :=
  columns.map fun c => (c, .values)

def writeSniffing (sniffing : SniffingConfig) : List Stmt :=
  [overwrite .sniffingSettings [
      .int revision, .int id, .ofBool sniffing.enabled, .ofBool sniffing.metadataOnly,
      .ofBool sniffing.routeOnly],
    deleteAt collate .sniffingOverrides [(.revisionId, .int revision), (.inboundId, .int id)]]
    ++ sniffing.destOverride.zipIdx.map fun p =>
      .insert .sniffingOverrides (.ofValues _ [
        .int revision, .int id, .ofNat (p.snd % 2 ^ 32), .text p.fst])

section

variable (input : InboundWrite)

def writeInboundDetails : List Stmt :=
  input.settings.elim [] (fun settings =>
    overwrite .inboundProtocolSettings [
        .int revision, .int id, .ofOption .text settings.decryption,
        .ofOption .text settings.method, .ofOption .utf8 settings.auth,
        .ofOption .ofNat settings.upMbps, .ofOption .ofNat settings.downMbps,
        .ofOption .ofNat settings.endpointShards, .ofOption .text settings.network,
        .ofOption .ofNat settings.authTimeoutMs]
      :: writeEndpointTuning collate revision .inbound id settings)
    ++ input.streamSettings.elim [] (writeStreamDetails collate revision .inbound id)
    ++ input.sniffing.elim [] (writeSniffing collate revision id)
    ++ input.limits.elim [] (fun limits =>
      [overwrite .inboundLimits [
        .int revision, .int id, .ofOption .ofNat limits.maxConnections,
        .ofOption .ofNat limits.maxHandshakeSeconds, .ofOption .ofNat limits.maxIdleSeconds]])

def inboundRow (position : Int) : Row .inbounds :=
  .ofValues _ [
    .int revision, .int id, .text input.tag, .text input.listen, .ofNat input.port,
    .text input.protocol, .ofBool input.enabled, .int position]

def saveInboundStmts (position : Int) : List Stmt :=
  .upsert .inbounds (inboundRow revision id input position)
      (updating [.tag, .listenAddress, .listenPort, .protocol, .enabled])
    :: overwrite .streamSettings (endpointKey revision .inbound id ++ [
      .text input.transport, .text input.security])
    :: writeInboundDetails collate revision id input

end

section

variable (input : OutboundWrite)

def writeOutboundSettings (settings : EndpointSettings) : List Stmt :=
  let primaryUser := settings.users.head?.or settings.clients.head?
  let password := settings.password.or (primaryUser.bind (·.password))
  let auth := settings.auth.or (primaryUser.bind (·.auth))
  let uuid := settings.uuid.or (primaryUser.bind (·.id))
  let flow := if settings.flow ≠ "" then some settings.flow
    else (primaryUser.map (·.flow)).filter (· ≠ "")
  [.update .outbounds [
      (.serverAddress, .ofOption .text ((settings.address.or settings.server).or input.address)),
      (.serverPort, .ofOption .ofNat (settings.port.or input.port)),
      (.domainStrategy, .ofOption .text settings.domainStrategy),
      (.denyLoopback, .ofBool settings.denyLoopback),
      (.rejectIpv6Literal, .ofBool settings.rejectIpv6Literal)]
      (whereAll collate [(.revisionId, .int revision), (.outboundId, .int id)]),
    overwrite .outboundProtocolSettings [
      .int revision, .int id, .ofOption .utf8 password, .ofOption .utf8 auth,
      .ofOption .text settings.method, .ofOption .text uuid, .ofOption .text flow,
      .ofOption .text settings.serverName, .ofBool settings.skipCertVerify,
      .ofOption .ofNat settings.endpointShards]]
    ++ writeEndpointTuning collate revision .outbound id settings

def writeOutboundDetails : List Stmt :=
  input.settings.elim [] (writeOutboundSettings collate revision id input)
    ++ input.streamSettings.elim [] (writeStreamDetails collate revision .outbound id)

def outboundRow (position : Int) : Row .outbounds :=
  .ofValues _ [
    .int revision, .int id, .text input.tag, .text input.protocol, .ofBool input.enabled,
    .int position, .ofOption .text input.address, .ofOption .ofNat input.port, .null, .null, .null]

def saveOutboundStmts (position : Int) : List Stmt :=
  .upsert .outbounds (outboundRow revision id input position)
      (updating [.tag, .protocol, .enabled, .serverAddress, .serverPort])
    :: overwrite .streamSettings (endpointKey revision .outbound id ++ [
      .text input.transport, .text input.security])
    :: writeOutboundDetails collate revision id input

end

variable (input : UserWrite)

def userRow : Row .users :=
  .ofValues _ [
    .int revision, .int id, .int input.inboundId, .text input.email, .ofBool input.enabled,
    .text input.flow, .text input.note, .ofOption .int input.trafficLimitBytes,
    .ofOption .int input.expiryAt, .text input.subscriptionToken]

def credentialsRow : Row .userCredentials :=
  .ofValues _ [
    .int revision, .int id, .text input.credentialKind, .ofOption .text input.uuid,
    .ofOption .utf8 input.password, .ofOption .text input.method, .ofOption .utf8 input.auth]

def saveUserStmts : List Stmt :=
  [.upsert .users (userRow revision id input)
      (updating [.inboundId, .email, .enabled, .flow, .note, .trafficLimitBytes, .expiryAt,
        .subscriptionToken]),
    .upsert .userCredentials (credentialsRow revision id input) [
      (.credentialKind, .values), (.uuidValue, .coalesce), (.passwordValue, .coalesce),
      (.method, .coalesce), (.authValue, .coalesce)]]

end Statements

section Scripts

def selectMax {t : TableName} (rows : List (Row t)) (c : ColumnName) : Option Int :=
  (rows.filterMap fun row => (row c).asInt).max?

-- The sum of an `i64`, which wraps around.
def nextId (db : Db) (t : TableName) (c : ColumnName) : Int :=
  ((selectMax (db t) c).getD 0 + 1).bmod (2 ^ 64)

def nextPosition (db : Db) (t : TableName) (revision : Int) : Int :=
  match selectMax ((db t).filter fun row => row .revisionId = .int revision) .position with
  | none => 0
  | some value => (value + 1) % 2 ^ 32

variable (collate : String → String) (revision : Int)

def saveInbound (input : InboundWrite) : Script :=
  .query fun db =>
    let id := input.id.getD (nextId db .inbounds .inboundId)
    let position := if input.id.isSome then 0 else nextPosition db .inbounds revision
    .ofList (saveInboundStmts collate revision id input position)

def deleteInbound (id : Int) : Script :=
  .ofList [deleteAt collate .inbounds [(.revisionId, .int revision), (.inboundId, .int id)]]

def saveOutbound (input : OutboundWrite) : Script :=
  .query fun db =>
    let id := input.id.getD (nextId db .outbounds .outboundId)
    let position := if input.id.isSome then 0 else nextPosition db .outbounds revision
    .ofList (saveOutboundStmts collate revision id input position)

def deleteOutbound (id : Int) : Script :=
  .ofList [deleteAt collate .outbounds [(.revisionId, .int revision), (.outboundId, .int id)]]

def saveUser (input : UserWrite) : Script :=
  .query fun db =>
    let id := input.id.getD (nextId db .users .userId)
    .ofList (saveUserStmts revision id input)

def deleteUser (id : Int) : Script :=
  .ofList [deleteAt collate .users [(.revisionId, .int revision), (.userId, .int id)]]

end Scripts

inductive ActivationClass where
  | hotSwap
  | listenerHandover

def ActivationClass.name : ActivationClass → String
  | .hotSwap => "hot_swap"
  | .listenerHandover => "listener_handover"

inductive Edit where
  | saveInbound (input : InboundWrite)
  | deleteInbound (id : Int)
  | saveOutbound (input : OutboundWrite)
  | deleteOutbound (id : Int)
  | saveUser (input : UserWrite)
  | deleteUser (id : Int)

namespace Edit

def summary : Edit → String
  | .saveInbound _ => "Save inbound"
  | .deleteInbound _ => "Delete inbound"
  | .saveOutbound _ => "Save outbound"
  | .deleteOutbound _ => "Delete outbound"
  | .saveUser _ => "Save user"
  | .deleteUser _ => "Delete user"

def activationClass : Edit → ActivationClass
  | .saveInbound _ | .deleteInbound _ | .saveOutbound _ | .deleteOutbound _ => .listenerHandover
  | .saveUser _ | .deleteUser _ => .hotSwap

def validate (isIpAddr : String → Bool) : Edit → Except StoreError Unit
  | .saveInbound input => validateInbound isIpAddr input
  | .saveOutbound input => validateOutbound input
  | .saveUser input => validateUser input
  | .deleteInbound _ | .deleteOutbound _ | .deleteUser _ => .ok ()

def script (collate : String → String) (revision : Int) : Edit → Script
  | .saveInbound input => Store.saveInbound collate revision input
  | .deleteInbound id => Store.deleteInbound collate revision id
  | .saveOutbound input => Store.saveOutbound collate revision input
  | .deleteOutbound id => Store.deleteOutbound collate revision id
  | .saveUser input => Store.saveUser revision input
  | .deleteUser id => Store.deleteUser collate revision id

end Edit

structure Request where
  actor : String
  expectedRevision : Int
  edit : Edit

def copiedColumns : List (TableName × List ColumnName) := [
  (.globalConfig, [
    .profile, .metricsEnabled, .metricsAddress, .statsEnabled, .logLevel, .logStructured,
    .logFile]),
  (.globalLimits, [
    .maxConnections, .maxConnectionsPerInbound, .maxConnectionsPerUser, .maxHandshakeSeconds,
    .maxIdleSeconds]),
  (.globalTransportSettings, [
    .quicConfigured, .quicReusePort, .quicEndpoints, .quicRecvBufferBytes, .quicSendBufferBytes,
    .quicMaxDatagramSize]),
  (.globalPerformanceSettings, [
    .fastConfigured, .fastStrictProduction, .fastPool, .fastSplice, .fastRelayEngine,
    .fastRelayFlush, .fastRelayInitialBuffer, .fastRelayMaxBuffer, .fastLinuxZerocopy,
    .fastLinuxZerocopyMinBytes, .fastLinuxIoUring, .visionConfigured, .visionDirectCopy,
    .visionMaxPacketsToFilter, .visionAllowSpliceAfterDirect, .firstPacketBoostConfigured,
    .firstPacketBoostEnabled, .firstPacketBoostDns, .firstPacketBoostSendEarlyPayload]),
  (.inbounds, [.inboundId, .tag, .listenAddress, .listenPort, .protocol, .enabled, .position]),
  (.outbounds, [
    .outboundId, .tag, .protocol, .enabled, .position, .serverAddress, .serverPort,
    .domainStrategy, .denyLoopback, .rejectIpv6Literal]),
  (.streamSettings, [.endpointKind, .endpointId, .network, .security]),
  (.tlsSettings, [
    .endpointKind, .endpointId, .serverName, .allowInsecure, .certificateFile, .keyFile]),
  (.tlsAlpn, [.endpointKind, .endpointId, .position, .protocol]),
  (.realitySettings, [
    .endpointKind, .endpointId, .showDetails, .destination, .privateKey, .publicKey, .shortId,
    .fingerprint, .serverName, .maxTimeDiffSeconds, .fallbackUploadAfterBytes,
    .fallbackUploadBytesPerSec, .fallbackUploadBurstBytesPerSec, .fallbackDownloadAfterBytes,
    .fallbackDownloadBytesPerSec, .fallbackDownloadBurstBytesPerSec]),
  (.realityServerNames, [.endpointKind, .endpointId, .position, .serverName]),
  (.realityShortIds, [.endpointKind, .endpointId, .position, .shortId]),
  (.shadowtlsSettings, [.endpointKind, .endpointId, .passwordValue, .destination, .version]),
  (.inboundProtocolSettings, [
    .inboundId, .decryption, .method, .authValue, .upMbps, .downMbps, .endpointShards, .network,
    .authTimeoutMs]),
  (.outboundProtocolSettings, [
    .outboundId, .passwordValue, .authValue, .method, .uuidValue, .flow, .serverName,
    .skipCertificateVerify, .endpointShards]),
  (.websocketSettings, [.endpointKind, .endpointId, .transportKind, .requestPath]),
  (.transportHeaders, [.endpointKind, .endpointId, .transportKind, .headerName, .headerValue]),
  (.splithttpSettings, [
    .endpointKind, .endpointId, .methodValue, .modeValue, .uplinkHttpMethod, .paddingKind,
    .paddingFixed, .paddingRange, .paddingMin, .paddingMax, .paddingFrom, .paddingTo,
    .paddingMethod, .paddingHeader, .paddingKey, .paddingPlacement, .sessionPlacement, .sessionKey,
    .seqPlacement, .seqKey, .uplinkDataPlacement, .uplinkDataKey, .uplinkChunkSize,
    .scMaxBufferedPosts, .xmuxConfigured, .xmuxMaxConcurrency, .xmuxMaxConnections,
    .xmuxCMaxReuseTimes, .xmuxHMaxRequestTimes, .xmuxHMaxReusableSecs, .xmuxHKeepAlivePeriod,
    .downloadConfigured, .downloadNetwork, .downloadSecurity]),
  (.splithttpHosts, [.endpointKind, .endpointId, .position, .hostValue]),
  (.grpcSettings, [.endpointKind, .endpointId, .serviceName, .multiMode]),
  (.endpointTuning, [
    .endpointKind, .endpointId, .congestionMode, .minAckRate, .maxQueueDelayMs, .pacingGain,
    .lossCompensation, .quicReusePort, .quicEndpoints, .quicRecvBufferBytes, .quicSendBufferBytes]),
  (.sniffingSettings, [.inboundId, .enabled, .metadataOnly, .routeOnly]),
  (.sniffingOverrides, [.inboundId, .position, .protocol]),
  (.inboundLimits, [.inboundId, .maxConnections, .maxHandshakeSeconds, .maxIdleSeconds]),
  (.users, [
    .userId, .inboundId, .email, .enabled, .flow, .note, .trafficLimitBytes, .expiryAt,
    .subscriptionToken]),
  (.userCredentials, [.userId, .credentialKind, .uuidValue, .passwordValue, .method, .authValue]),
  (.dnsConfig, [.enabled]),
  (.dnsServers, [.position, .address]),
  (.routingConfig, [.enabled, .domainStrategy, .geoipFile, .geositeFile]),
  (.routingRules, [.ruleId, .position, .ruleType, .portExpression, .outboundId]),
  (.routingRuleValues, [.ruleId, .valueKind, .position, .valueText]),
  (.routingBalancers, [
    .balancerId, .tag, .strategy, .position, .failureThreshold, .cooldownSeconds, .ewmaAlpha,
    .switchMargin, .healthUrl, .healthIntervalSeconds, .healthTimeoutSeconds, .healthMaxFailures]),
  (.routingBalancerMembers, [.balancerId, .position, .outboundId, .profileName])]

section Statements

variable (collate : String → String)

def copyStmt (source target : Int) (copied : TableName × List ColumnName) : Stmt :=
  .insertSelect copied.fst (.literal (.int target) :: copied.snd.map .column)
    (whereAll collate [(.revisionId, .int source)])

def copyRevisionRows (source target : Int) : List Stmt :=
  copiedColumns.map (copyStmt collate source target)

def revisionRow (revision : Int) (request : Request) : Row .configurationRevisions :=
  .ofValues _ [
    .int revision, .int request.expectedRevision, .text request.actor, .text request.edit.summary,
    .text request.edit.activationClass.name]

def createRevisionMetadata (revision : Int) (request : Request) : Stmt :=
  .insert .configurationRevisions (revisionRow revision request)

def publishRevision (revision : Int) : Stmt :=
  .update .configurationState [
      (.desiredRevision, .int revision), (.activationState, .text "activating"),
      (.lastError, .null)]
    (whereAll collate [(.singletonId, .int 1)])

def Request.script (revision : Int) (request : Request) : Script :=
  (Script.ofList (copyRevisionRows collate request.expectedRevision revision)).append
    ((request.edit.script collate revision).append
      (Script.ofList [publishRevision collate revision]))

end Statements

def desiredRevision (db : Db) : Option Int :=
  match (db .configurationState).find? (fun row => row .singletonId = .int 1) with
  | none => none
  | some row =>
    match row .desiredRevision with
    | .int revision => some revision
    | _ => none

def beginRevision (db : Db) (expectedRevision : Int) : Except StoreError Unit :=
  match desiredRevision db with
  | none => .error .sql
  | some actual =>
    if actual ≠ expectedRevision then
      .error (.revisionConflict expectedRevision actual)
    else
      .ok ()

structure Tx where
  request : Request
  revision : Int
  db : Db
  rest : Script

structure State where
  db : Db
  nextRevision : Int
  tx : Option Tx
  accepted : List (Request × Int)

inductive Event where
  | begin (request : Request)
  | advance
  | commit
  | abort

namespace State

variable (collate : String → String) (isIpAddr : String → Bool)

variable (s : State)

-- Whoever comes while the lock is held waits, and a number that was handed out is not used again.
def begin (request : Request) : State :=
  match s.tx, request.edit.validate isIpAddr, beginRevision s.db request.expectedRevision with
  | none, .ok _, .ok _ =>
    let tx := (exec collate s.db (createRevisionMetadata s.nextRevision request)).map fun db =>
      ⟨request, s.nextRevision, db, request.script collate s.nextRevision⟩
    { s with nextRevision := s.nextRevision + 1, tx := tx }
  | _, _, _ => s

def advance : State :=
  match s.tx with
  | none => s
  | some tx =>
    match tx.rest with
    | .done => s
    | .query f => { s with tx := some { tx with rest := f tx.db } }
    | .exec stmt rest =>
      { s with tx := (exec collate tx.db stmt).map fun db => { tx with db := db, rest := rest } }

def commit : State :=
  match s.tx with
  | none => s
  | some tx =>
    match tx.rest with
    | .done =>
      { s with db := tx.db, tx := none, accepted := (tx.request, tx.revision) :: s.accepted }
    | _ => s

def step : Event → State
  | .begin request => s.begin collate isIpAddr request
  | .advance => s.advance collate
  | .commit => s.commit
  | .abort => { s with tx := none }

end State

end Blackwire.Store
