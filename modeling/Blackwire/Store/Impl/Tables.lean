import Blackwire.Lib.Sql.Statement

/-!
This module contains the tables that the migrations leave: those that hold the configuration of a
revision, the revisions and the state. The columns for the time of a write are left out.
-/

namespace Blackwire.Store

inductive TableName where
  | configurationRevisions
  | configurationState
  | globalConfig
  | globalLimits
  | globalTransportSettings
  | globalPerformanceSettings
  | inbounds
  | outbounds
  | streamSettings
  | tlsSettings
  | tlsAlpn
  | realitySettings
  | realityServerNames
  | realityShortIds
  | shadowtlsSettings
  | inboundProtocolSettings
  | outboundProtocolSettings
  | websocketSettings
  | transportHeaders
  | splithttpSettings
  | splithttpHosts
  | grpcSettings
  | endpointTuning
  | sniffingSettings
  | sniffingOverrides
  | inboundLimits
  | users
  | userCredentials
  | dnsConfig
  | dnsServers
  | routingConfig
  | routingRules
  | routingRuleValues
  | routingBalancers
  | routingBalancerMembers
deriving DecidableEq

inductive ColumnName where
  | revision | parentRevision | actor | summary | activationClass | singletonId | desiredRevision
  | activeRevision | activationState | lastError | revisionId | profile | metricsEnabled
  | metricsAddress | statsEnabled | logLevel | logStructured | logFile | maxConnections
  | maxConnectionsPerInbound | maxConnectionsPerUser | maxHandshakeSeconds | maxIdleSeconds
  | quicConfigured | quicReusePort | quicEndpoints | quicRecvBufferBytes | quicSendBufferBytes
  | quicMaxDatagramSize | fastConfigured | fastStrictProduction | fastPool | fastSplice
  | fastRelayEngine | fastRelayFlush | fastRelayInitialBuffer | fastRelayMaxBuffer
  | fastLinuxZerocopy | fastLinuxZerocopyMinBytes | fastLinuxIoUring | visionConfigured
  | visionDirectCopy | visionMaxPacketsToFilter | visionAllowSpliceAfterDirect
  | firstPacketBoostConfigured | firstPacketBoostEnabled | firstPacketBoostDns
  | firstPacketBoostSendEarlyPayload | inboundId | tag | listenAddress | listenPort | protocol
  | enabled | position | outboundId | serverAddress | serverPort | domainStrategy | denyLoopback
  | rejectIpv6Literal | endpointKind | endpointId | network | security | serverName | allowInsecure
  | certificateFile | keyFile | showDetails | destination | privateKey | publicKey | shortId
  | fingerprint | maxTimeDiffSeconds | fallbackUploadAfterBytes | fallbackUploadBytesPerSec
  | fallbackUploadBurstBytesPerSec | fallbackDownloadAfterBytes | fallbackDownloadBytesPerSec
  | fallbackDownloadBurstBytesPerSec | passwordValue | version | decryption | method | authValue
  | upMbps | downMbps | endpointShards | authTimeoutMs | uuidValue | flow | skipCertificateVerify
  | transportKind | requestPath | headerName | headerValue | methodValue | modeValue
  | uplinkHttpMethod | paddingKind | paddingFixed | paddingRange | paddingMin | paddingMax
  | paddingFrom | paddingTo | paddingMethod | paddingHeader | paddingKey | paddingPlacement
  | sessionPlacement | sessionKey | seqPlacement | seqKey | uplinkDataPlacement | uplinkDataKey
  | uplinkChunkSize | scMaxBufferedPosts | xmuxConfigured | xmuxMaxConcurrency | xmuxMaxConnections
  | xmuxCMaxReuseTimes | xmuxHMaxRequestTimes | xmuxHMaxReusableSecs | xmuxHKeepAlivePeriod
  | downloadConfigured | downloadNetwork | downloadSecurity | hostValue | serviceName | multiMode
  | congestionMode | minAckRate | maxQueueDelayMs | pacingGain | lossCompensation | metadataOnly
  | routeOnly | userId | email | note | trafficLimitBytes | expiryAt | subscriptionToken
  | credentialKind | address | geoipFile | geositeFile | ruleId | ruleType | portExpression
  | valueKind | valueText | balancerId | strategy | failureThreshold | cooldownSeconds | ewmaAlpha
  | switchMargin | healthUrl | healthIntervalSeconds | healthTimeoutSeconds | healthMaxFailures
  | profileName
deriving DecidableEq

namespace TableName

def columns : TableName → List ColumnName
  | .configurationRevisions => [.revision, .parentRevision, .actor, .summary, .activationClass]
  | .configurationState => [
    .singletonId, .desiredRevision, .activeRevision, .activationState, .lastError]
  | .globalConfig => [
    .revisionId, .profile, .metricsEnabled, .metricsAddress, .statsEnabled, .logLevel,
    .logStructured, .logFile]
  | .globalLimits => [
    .revisionId, .maxConnections, .maxConnectionsPerInbound, .maxConnectionsPerUser,
    .maxHandshakeSeconds, .maxIdleSeconds]
  | .globalTransportSettings => [
    .revisionId, .quicConfigured, .quicReusePort, .quicEndpoints, .quicRecvBufferBytes,
    .quicSendBufferBytes, .quicMaxDatagramSize]
  | .globalPerformanceSettings => [
    .revisionId, .fastConfigured, .fastStrictProduction, .fastPool, .fastSplice, .fastRelayEngine,
    .fastRelayFlush, .fastRelayInitialBuffer, .fastRelayMaxBuffer, .fastLinuxZerocopy,
    .fastLinuxZerocopyMinBytes, .fastLinuxIoUring, .visionConfigured, .visionDirectCopy,
    .visionMaxPacketsToFilter, .visionAllowSpliceAfterDirect, .firstPacketBoostConfigured,
    .firstPacketBoostEnabled, .firstPacketBoostDns, .firstPacketBoostSendEarlyPayload]
  | .inbounds => [
    .revisionId, .inboundId, .tag, .listenAddress, .listenPort, .protocol, .enabled, .position]
  | .outbounds => [
    .revisionId, .outboundId, .tag, .protocol, .enabled, .position, .serverAddress, .serverPort,
    .domainStrategy, .denyLoopback, .rejectIpv6Literal]
  | .streamSettings => [.revisionId, .endpointKind, .endpointId, .network, .security]
  | .tlsSettings => [
    .revisionId, .endpointKind, .endpointId, .serverName, .allowInsecure, .certificateFile,
    .keyFile]
  | .tlsAlpn => [.revisionId, .endpointKind, .endpointId, .position, .protocol]
  | .realitySettings => [
    .revisionId, .endpointKind, .endpointId, .showDetails, .destination, .privateKey, .publicKey,
    .shortId, .fingerprint, .serverName, .maxTimeDiffSeconds, .fallbackUploadAfterBytes,
    .fallbackUploadBytesPerSec, .fallbackUploadBurstBytesPerSec, .fallbackDownloadAfterBytes,
    .fallbackDownloadBytesPerSec, .fallbackDownloadBurstBytesPerSec]
  | .realityServerNames => [.revisionId, .endpointKind, .endpointId, .position, .serverName]
  | .realityShortIds => [.revisionId, .endpointKind, .endpointId, .position, .shortId]
  | .shadowtlsSettings => [
    .revisionId, .endpointKind, .endpointId, .passwordValue, .destination, .version]
  | .inboundProtocolSettings => [
    .revisionId, .inboundId, .decryption, .method, .authValue, .upMbps, .downMbps, .endpointShards,
    .network, .authTimeoutMs]
  | .outboundProtocolSettings => [
    .revisionId, .outboundId, .passwordValue, .authValue, .method, .uuidValue, .flow, .serverName,
    .skipCertificateVerify, .endpointShards]
  | .websocketSettings => [.revisionId, .endpointKind, .endpointId, .transportKind, .requestPath]
  | .transportHeaders => [
    .revisionId, .endpointKind, .endpointId, .transportKind, .headerName, .headerValue]
  | .splithttpSettings => [
    .revisionId, .endpointKind, .endpointId, .methodValue, .modeValue, .uplinkHttpMethod,
    .paddingKind, .paddingFixed, .paddingRange, .paddingMin, .paddingMax, .paddingFrom, .paddingTo,
    .paddingMethod, .paddingHeader, .paddingKey, .paddingPlacement, .sessionPlacement, .sessionKey,
    .seqPlacement, .seqKey, .uplinkDataPlacement, .uplinkDataKey, .uplinkChunkSize,
    .scMaxBufferedPosts, .xmuxConfigured, .xmuxMaxConcurrency, .xmuxMaxConnections,
    .xmuxCMaxReuseTimes, .xmuxHMaxRequestTimes, .xmuxHMaxReusableSecs, .xmuxHKeepAlivePeriod,
    .downloadConfigured, .downloadNetwork, .downloadSecurity]
  | .splithttpHosts => [.revisionId, .endpointKind, .endpointId, .position, .hostValue]
  | .grpcSettings => [.revisionId, .endpointKind, .endpointId, .serviceName, .multiMode]
  | .endpointTuning => [
    .revisionId, .endpointKind, .endpointId, .congestionMode, .minAckRate, .maxQueueDelayMs,
    .pacingGain, .lossCompensation, .quicReusePort, .quicEndpoints, .quicRecvBufferBytes,
    .quicSendBufferBytes]
  | .sniffingSettings => [.revisionId, .inboundId, .enabled, .metadataOnly, .routeOnly]
  | .sniffingOverrides => [.revisionId, .inboundId, .position, .protocol]
  | .inboundLimits => [
    .revisionId, .inboundId, .maxConnections, .maxHandshakeSeconds, .maxIdleSeconds]
  | .users => [
    .revisionId, .userId, .inboundId, .email, .enabled, .flow, .note, .trafficLimitBytes,
    .expiryAt, .subscriptionToken]
  | .userCredentials => [
    .revisionId, .userId, .credentialKind, .uuidValue, .passwordValue, .method, .authValue]
  | .dnsConfig => [.revisionId, .enabled]
  | .dnsServers => [.revisionId, .position, .address]
  | .routingConfig => [.revisionId, .enabled, .domainStrategy, .geoipFile, .geositeFile]
  | .routingRules => [.revisionId, .ruleId, .position, .ruleType, .portExpression, .outboundId]
  | .routingRuleValues => [.revisionId, .ruleId, .valueKind, .position, .valueText]
  | .routingBalancers => [
    .revisionId, .balancerId, .tag, .strategy, .position, .failureThreshold, .cooldownSeconds,
    .ewmaAlpha, .switchMargin, .healthUrl, .healthIntervalSeconds, .healthTimeoutSeconds,
    .healthMaxFailures]
  | .routingBalancerMembers => [.revisionId, .balancerId, .position, .outboundId, .profileName]

def nullable : TableName → List ColumnName
  | .configurationRevisions => [.parentRevision]
  | .configurationState => [.activeRevision, .lastError]
  | .globalConfig => [.metricsAddress, .statsEnabled]
  | .globalLimits => [
    .maxConnections, .maxConnectionsPerInbound, .maxConnectionsPerUser, .maxHandshakeSeconds,
    .maxIdleSeconds]
  | .outbounds => [.serverAddress, .serverPort, .domainStrategy, .denyLoopback, .rejectIpv6Literal]
  | .realitySettings => [
    .maxTimeDiffSeconds, .fallbackUploadAfterBytes, .fallbackUploadBytesPerSec,
    .fallbackUploadBurstBytesPerSec, .fallbackDownloadAfterBytes, .fallbackDownloadBytesPerSec,
    .fallbackDownloadBurstBytesPerSec]
  | .inboundProtocolSettings => [
    .decryption, .method, .authValue, .upMbps, .downMbps, .endpointShards, .network,
    .authTimeoutMs]
  | .outboundProtocolSettings => [
    .passwordValue, .authValue, .method, .uuidValue, .flow, .serverName, .skipCertificateVerify,
    .endpointShards]
  | .splithttpSettings => [
    .paddingKind, .paddingFixed, .paddingRange, .paddingMin, .paddingMax, .paddingFrom, .paddingTo,
    .xmuxMaxConcurrency, .xmuxMaxConnections, .xmuxCMaxReuseTimes, .xmuxHMaxRequestTimes,
    .xmuxHMaxReusableSecs, .xmuxHKeepAlivePeriod, .downloadNetwork, .downloadSecurity]
  | .endpointTuning => [
    .congestionMode, .minAckRate, .maxQueueDelayMs, .pacingGain, .lossCompensation, .quicReusePort,
    .quicEndpoints, .quicRecvBufferBytes, .quicSendBufferBytes]
  | .inboundLimits => [.maxConnections, .maxHandshakeSeconds, .maxIdleSeconds]
  | .users => [.trafficLimitBytes, .expiryAt]
  | .userCredentials => [.uuidValue, .passwordValue, .method, .authValue]
  | .routingConfig => [.domainStrategy, .geoipFile, .geositeFile]
  | .routingRules => [.portExpression]
  | .routingBalancers => [
    .failureThreshold, .cooldownSeconds, .ewmaAlpha, .switchMargin, .healthUrl,
    .healthIntervalSeconds, .healthTimeoutSeconds, .healthMaxFailures]
  | .routingBalancerMembers => [.profileName]
  | _ => []

def primaryKey : TableName → List ColumnName
  | .configurationRevisions => [.revision]
  | .configurationState => [.singletonId]
  | .globalConfig | .globalLimits | .globalTransportSettings | .globalPerformanceSettings
  | .dnsConfig | .routingConfig =>
    [.revisionId]
  | .inbounds | .inboundProtocolSettings | .sniffingSettings | .inboundLimits =>
    [.revisionId, .inboundId]
  | .outbounds | .outboundProtocolSettings => [.revisionId, .outboundId]
  | .streamSettings | .tlsSettings | .realitySettings | .shadowtlsSettings | .splithttpSettings
  | .grpcSettings | .endpointTuning =>
    [.revisionId, .endpointKind, .endpointId]
  | .tlsAlpn | .realityServerNames | .realityShortIds | .splithttpHosts =>
    [.revisionId, .endpointKind, .endpointId, .position]
  | .websocketSettings => [.revisionId, .endpointKind, .endpointId, .transportKind]
  | .transportHeaders => [.revisionId, .endpointKind, .endpointId, .transportKind, .headerName]
  | .sniffingOverrides => [.revisionId, .inboundId, .position]
  | .users | .userCredentials => [.revisionId, .userId]
  | .dnsServers => [.revisionId, .position]
  | .routingRules => [.revisionId, .ruleId]
  | .routingRuleValues => [.revisionId, .ruleId, .valueKind, .position]
  | .routingBalancers => [.revisionId, .balancerId]
  | .routingBalancerMembers => [.revisionId, .balancerId, .position]

def uniqueKeys : TableName → List (List ColumnName)
  | .inbounds | .outbounds | .routingBalancers => [[.revisionId, .tag]]
  | .users => [[.revisionId, .email], [.revisionId, .subscriptionToken]]
  | .routingRules => [[.revisionId, .position]]
  | _ => []

def sameNames (columns : List ColumnName) (parent : TableName) (onDelete : Sql.OnDelete)
    : Sql.ForeignKey TableName ColumnName :=
  ⟨columns.map fun c => (c, c), parent, onDelete⟩

def foreignKeys : TableName → List (Sql.ForeignKey TableName ColumnName)
  | .configurationRevisions => [⟨[(.parentRevision, .revision)], .configurationRevisions, .setNull⟩]
  | .configurationState =>
    [⟨[(.desiredRevision, .revision)], .configurationRevisions, .restrict⟩,
      ⟨[(.activeRevision, .revision)], .configurationRevisions, .restrict⟩]
  | .globalConfig | .globalLimits | .inbounds | .outbounds | .streamSettings | .dnsConfig
  | .routingConfig =>
    [⟨[(.revisionId, .revision)], .configurationRevisions, .cascade⟩]
  | .globalTransportSettings | .globalPerformanceSettings =>
    [sameNames [.revisionId] .globalConfig .cascade]
  | .tlsSettings | .realitySettings | .shadowtlsSettings | .websocketSettings | .transportHeaders
  | .splithttpSettings | .grpcSettings | .endpointTuning =>
    [sameNames [.revisionId, .endpointKind, .endpointId] .streamSettings .cascade]
  | .tlsAlpn => [sameNames [.revisionId, .endpointKind, .endpointId] .tlsSettings .cascade]
  | .realityServerNames | .realityShortIds =>
    [sameNames [.revisionId, .endpointKind, .endpointId] .realitySettings .cascade]
  | .inboundProtocolSettings | .sniffingSettings | .inboundLimits | .users =>
    [sameNames [.revisionId, .inboundId] .inbounds .cascade]
  | .outboundProtocolSettings => [sameNames [.revisionId, .outboundId] .outbounds .cascade]
  | .splithttpHosts =>
    [sameNames [.revisionId, .endpointKind, .endpointId] .splithttpSettings .cascade]
  | .sniffingOverrides => [sameNames [.revisionId, .inboundId] .sniffingSettings .cascade]
  | .userCredentials => [sameNames [.revisionId, .userId] .users .cascade]
  | .dnsServers => [sameNames [.revisionId] .dnsConfig .cascade]
  | .routingRules =>
    [sameNames [.revisionId] .routingConfig .cascade,
      sameNames [.revisionId, .outboundId] .outbounds .restrict]
  | .routingRuleValues => [sameNames [.revisionId, .ruleId] .routingRules .cascade]
  | .routingBalancers => [sameNames [.revisionId] .routingConfig .cascade]
  | .routingBalancerMembers =>
    [sameNames [.revisionId, .balancerId] .routingBalancers .cascade,
      sameNames [.revisionId, .outboundId] .outbounds .restrict]

def all : List TableName := [
  .configurationRevisions, .configurationState, .globalConfig, .globalLimits,
  .globalTransportSettings, .globalPerformanceSettings, .inbounds, .outbounds, .streamSettings,
  .tlsSettings, .tlsAlpn, .realitySettings, .realityServerNames, .realityShortIds,
  .shadowtlsSettings, .inboundProtocolSettings, .outboundProtocolSettings, .websocketSettings,
  .transportHeaders, .splithttpSettings, .splithttpHosts, .grpcSettings, .endpointTuning,
  .sniffingSettings, .sniffingOverrides, .inboundLimits, .users, .userCredentials, .dnsConfig,
  .dnsServers, .routingConfig, .routingRules, .routingRuleValues, .routingBalancers,
  .routingBalancerMembers]

end TableName

def schema : Sql.Schema TableName ColumnName where
  columns := TableName.columns
  nullable := TableName.nullable
  primaryKey := TableName.primaryKey
  uniqueKeys := TableName.uniqueKeys
  foreignKeys := TableName.foreignKeys
  tables := TableName.all
  complete := by
    intro t
    cases t <;> decide

abbrev Db := Sql.Db schema

abbrev Row (t : TableName) := Sql.Row schema t

abbrev Stmt := Sql.Stmt schema

abbrev Script := Sql.Script schema

end Blackwire.Store
