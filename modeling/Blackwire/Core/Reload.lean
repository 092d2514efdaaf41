import Blackwire.Core.Impl.Rules
import Blackwire.Core.Stores

/-!
This module contains the hot reload: the handles that an instance shares with it, what it does to
them, and the comparison that decides whether a new configuration can be applied that way. It proves
for which configurations a hot reload that fails has written nothing.
-/

namespace Blackwire

structure Host extends Credentials, Patterns

structure GeoFiles where
  loadGeoip : String → Table String GeoIpMatcher
  loadGeosite : String → Table String GeoSiteMatcher
  fingerprint : String → Option (Nat × Nat)

structure GeoCache where
  geoipPath : Option String
  geoipFingerprint : Option (Nat × Nat)
  geositePath : Option String
  geositeFingerprint : Option (Nat × Nat)
  geo : GeoData

def GeoData.empty : GeoData := ⟨Table.empty, Table.empty⟩

def GeoCache.empty : GeoCache := ⟨none, none, none, none, GeoData.empty⟩

structure ReloadState where
  router : RouterInner
  sniffing : Table String SniffingConfig
  maxConnectionsPerUser : Nat
  stores : Stores
  geoCache : GeoCache

def Config.geoipFile (config : Config) : Option String :=
  config.routing.bind (·.geoipFile)

def Config.geositeFile (config : Config) : Option String :=
  config.routing.bind (·.geositeFile)

def Config.domainStrategy (config : Config) : Option String :=
  config.routing.bind (·.domainStrategy)

def loadGeoData (files : GeoFiles) (config : Config) : GeoData where
  geoip := match config.geoipFile with
    | none => Table.empty
    | some path => files.loadGeoip path
  geosite := match config.geositeFile with
    | none => Table.empty
    | some path => files.loadGeosite path

def cacheHit (path cachedPath : Option String) (fp cachedFp : Option (Nat × Nat)) : Bool :=
  path = cachedPath && (fp.isSome && fp = cachedFp || path.isNone)

def loadGeoDataCached (files : GeoFiles) (config : Config) (cache : GeoCache)
    : GeoData × GeoCache :=
  let geoipFp := config.geoipFile.bind files.fingerprint
  let geositeFp := config.geositeFile.bind files.fingerprint
  let geoipHit := cacheHit config.geoipFile cache.geoipPath geoipFp cache.geoipFingerprint
  let geositeHit := cacheHit config.geositeFile cache.geositePath geositeFp cache.geositeFingerprint
  let fresh := loadGeoData files config
  let geo : GeoData :=
    ⟨if geoipHit then cache.geo.geoip else fresh.geoip,
      if geositeHit then cache.geo.geosite else fresh.geosite⟩
  (geo, {
    geoipPath := if geoipHit then cache.geoipPath else config.geoipFile
    geoipFingerprint := if geoipHit then cache.geoipFingerprint else geoipFp
    geositePath := if geositeHit then cache.geositePath else config.geositeFile
    geositeFingerprint := if geositeHit then cache.geositeFingerprint else geositeFp
    geo := geo
  })

def buildSniffingMap (inbounds : List InboundConfig) : Table String SniffingConfig :=
  inbounds.foldl
    (fun map inbound =>
      match inbound.sniffing with
      | none => map
      | some sniff => if sniff.enabled then map.insert inbound.tag sniff else map)
    Table.empty

def collectOutboundTags (config : Config) : List String :=
  config.outbounds.map (·.tag) ++ config.balancers.map (·.tag)

def Config.defaultTag (config : Config) : String :=
  match config.outbounds with
  | [] => "direct"
  | first :: _ => first.tag

def usizeMax : Nat := 2 ^ 64 - 1

-- `UserConnectionLimiter::new` and `set_max_connections_per_user` store at least 1.
def userConnectionCap (config : Config) : Nat :=
  max (config.limits.maxConnectionsPerUser.getD usizeMax) 1

namespace ReloadState

def swapTables (files : GeoFiles) (config : Config) (rules : List CompiledRule) (s : ReloadState)
    : ReloadState :=
  let (geo, geoCache) := loadGeoDataCached files config s.geoCache
  { s with
    router := RouterInner.new rules config.defaultTag geo config.domainStrategy
    sniffing := buildSniffingMap config.inbounds
    maxConnectionsPerUser := userConnectionCap config
    geoCache := geoCache }

def refreshInbound (c : Credentials) (s : ReloadState) (inbound : InboundConfig)
    : ReloadState × Except String Unit :=
  match inbound.protocol.storeKind with
  | none => (s, .ok ())
  | some k =>
    match s.stores k inbound.tag with
    | none => (s, .ok ())
    | some old =>
      let (new, result) := populate c inbound k old
      ({ s with stores := s.stores.set k inbound.tag new }, result)

def refreshInbounds (c : Credentials) (s : ReloadState)
    : List InboundConfig → ReloadState × Except String Unit
  | [] => (s, .ok ())
  | inbound :: inbounds =>
    match s.refreshInbound c inbound with
    | (s, .error e) => (s, .error e)
    | (s, .ok _) => s.refreshInbounds c inbounds

def apply (host : Host) (files : GeoFiles) (s : ReloadState) (config : Config)
    : ReloadState × Except String Unit :=
  match buildRules host.toPatterns config.rules (collectOutboundTags config) with
  | .error e => (s, .error e)
  | .ok rules =>
    (s.swapTables files config rules).refreshInbounds host.toCredentials config.inbounds

end ReloadState

def inboundListenerChanges (old new : Config) : List String :=
  let changed := new.inbounds.filterMap fun newIn =>
    match old.inbounds.find? (·.tag = newIn.tag) with
    | none => some newIn.tag
    | some oldIn =>
      if oldIn.listen ≠ newIn.listen ∨ oldIn.port ≠ newIn.port then some newIn.tag else none
  let removed := old.inbounds.filterMap fun oldIn =>
    if new.inbounds.any (·.tag = oldIn.tag) then none else some oldIn.tag
  changed ++ removed

def normalizedLimitsValue (limits : LimitsConfig) : LimitsConfig :=
  { limits with maxConnectionsPerUser := none }

def stripClientBandwidthFields (entries : List EndpointUser) : List EndpointUser :=
  entries.map fun entry => { entry with upMbps := none, downMbps := none }

def normalizedSettings (protocol : Protocol) (settings : EndpointSettings) : EndpointSettings :=
  match protocol with
  | .vless | .vmess | .trojan => { settings with clients := [] }
  | .shadowsocks => { settings with password := none, email := none, name := none, clients := [] }
  | .hysteria2 => { settings with auth := none, password := none, clients := [] }
  | .tuic =>
    { settings with users := [], uuid := none, password := none, email := none, name := none }
  | _ =>
    { settings with
      clients := stripClientBandwidthFields settings.clients
      users := stripClientBandwidthFields settings.users }

def normalizedInboundValue (inbound : InboundConfig) : InboundConfig :=
  { inbound with
    sniffing := none
    settings := normalizedSettings inbound.protocol inbound.settings }

def requiresInstanceHandover (old new : Config) : Bool :=
  if inboundListenerChanges old new ≠ [] then
    true
  else if old.metricsAddr ≠ new.metricsAddr ∨ old.profile ≠ new.profile ∨ old.fast ≠ new.fast
      ∨ old.vision ≠ new.vision ∨ old.firstPacketBoost ≠ new.firstPacketBoost ∨ old.log ≠ new.log
      ∨ old.stats ≠ new.stats ∨ old.quic ≠ new.quic then
    true
  else if normalizedLimitsValue old.limits ≠ normalizedLimitsValue new.limits then
    true
  else if old.outbounds ≠ new.outbounds then
    true
  else if old.inbounds.length ≠ new.inbounds.length then
    true
  else
    new.inbounds.any fun newIn =>
      match old.inbounds.find? (·.tag = newIn.tag) with
      | none => true
      | some oldIn => normalizedInboundValue oldIn ≠ normalizedInboundValue newIn

theorem InboundConfig.credentialsAccepted_of_storeKind (c : Credentials) {inbound : InboundConfig}
    (h : inbound.protocol.storeKind = none)
    : inbound.CredentialsAccepted c := by
  unfold InboundConfig.CredentialsAccepted
  cases hprotocol : inbound.protocol <;> simp_all [Protocol.storeKind]

namespace ReloadState

variable (c : Credentials)

def HasStore (s : ReloadState) (inbound : InboundConfig) : Prop :=
  ∃ k, inbound.protocol.storeKind = some k ∧ (s.stores k inbound.tag).isSome

theorem refreshInbound_of_not_hasStore {s : ReloadState} {inbound : InboundConfig}
    (h : ¬ s.HasStore inbound)
    : s.refreshInbound c inbound = (s, .ok ()) := by
  unfold refreshInbound
  split
  . rfl
  . next k hk =>
    split
    . rfl
    . next old hold => exact absurd ⟨k, hk, by simp [hold]⟩ h

variable (s : ReloadState) (inbound : InboundConfig)

theorem refreshInbound_of_store (k : StoreKind)
    {old : k.Content} (hk : inbound.protocol.storeKind = some k)
    (hold : s.stores k inbound.tag = some old)
    : s.refreshInbound c inbound
        =
      ({ s with stores := s.stores.set k inbound.tag (populate c inbound k old).1 },
        (populate c inbound k old).2) := by
  unfold refreshInbound
  simp [hk, hold]

theorem refreshInbound_cases
    : (¬ s.HasStore inbound ∧ s.refreshInbound c inbound = (s, .ok ()))
        ∨ (∃ (k : StoreKind) (old : k.Content),
            inbound.protocol.storeKind = some k
              ∧ s.stores k inbound.tag = some old
              ∧ s.refreshInbound c inbound
                = ({ s with stores := s.stores.set k inbound.tag (populate c inbound k old).1 },
                  (populate c inbound k old).2)) := by
  by_cases h : s.HasStore inbound
  . obtain ⟨k, hk, hsome⟩ := h
    obtain ⟨old, hold⟩ := Option.isSome_iff_exists.mp hsome
    exact Or.inr ⟨k, old, hk, hold, refreshInbound_of_store c s inbound k hk hold⟩
  . exact Or.inl ⟨h, refreshInbound_of_not_hasStore c h⟩

theorem isOk_refreshInbound
    : (s.refreshInbound c inbound).2.isOk
        ↔
      (s.HasStore inbound → inbound.CredentialsAccepted c) := by
  rcases refreshInbound_cases c s inbound with ⟨hstore, heq⟩ | ⟨k, old, hk, hold, heq⟩
  . simp [heq, hstore]
  have hstore : s.HasStore inbound := ⟨k, hk, by simp [hold]⟩
  rw [heq]
  rw [isOk_populate c k old hk]
  simp [hstore]

theorem hasStore_refreshInbound (other : InboundConfig)
    : (s.refreshInbound c inbound).1.HasStore other ↔ s.HasStore other := by
  rcases refreshInbound_cases c s inbound with ⟨_, heq⟩ | ⟨k, old, hk, hold, heq⟩
  . rw [heq]
  unfold HasStore
  simp only [heq]
  have h : (s.stores k inbound.tag).isSome := by simp [hold]
  simp only [Stores.isSome_set k h]

theorem isOk_refreshInbounds (inbounds : List InboundConfig)
    : (s.refreshInbounds c inbounds).2.isOk
        ↔
      ∀ inbound ∈ inbounds, s.HasStore inbound → inbound.CredentialsAccepted c := by
  induction inbounds generalizing s with
  | nil => simp [refreshInbounds]
  | cons inbound inbounds ih =>
    rw [List.forall_mem_cons]
    rw [← isOk_refreshInbound]
    simp only [← hasStore_refreshInbound c s inbound]
    rw [← ih]
    rw [refreshInbounds]
    split
    . next s' e h => simp [h]
    . next s' h => simp [h]

structure SameSwapped (s s' : ReloadState) : Prop where
  router : s'.router = s.router
  sniffing : s'.sniffing = s.sniffing
  maxConnectionsPerUser : s'.maxConnectionsPerUser = s.maxConnectionsPerUser

theorem SameSwapped.trans {s s' s'' : ReloadState} (h : SameSwapped s s') (h' : SameSwapped s' s'')
    : SameSwapped s s'' where
  router := h'.router.trans h.router
  sniffing := h'.sniffing.trans h.sniffing
  maxConnectionsPerUser := h'.maxConnectionsPerUser.trans h.maxConnectionsPerUser

theorem sameSwapped_refreshInbound
    : SameSwapped s (s.refreshInbound c inbound).1 := by
  rcases refreshInbound_cases c s inbound with ⟨_, heq⟩ | ⟨k, old, _, _, heq⟩
  . rw [heq]
    exact ⟨rfl, rfl, rfl⟩
  . rw [heq]
    exact ⟨rfl, rfl, rfl⟩

theorem sameSwapped_refreshInbounds {inbounds : List InboundConfig}
    : SameSwapped s (s.refreshInbounds c inbounds).1 := by
  induction inbounds generalizing s with
  | nil => exact ⟨rfl, rfl, rfl⟩
  | cons inbound inbounds ih =>
    have h := sameSwapped_refreshInbound c s inbound
    rw [refreshInbounds]
    split
    . next s' e heq =>
      rw [heq] at h
      assumption
    . next s' _ heq =>
      rw [heq] at h
      exact h.trans (ih s')

structure SameTables (s s' : ReloadState) : Prop extends SameSwapped s s' where
  stores : s'.stores = s.stores

end ReloadState

def Config.RulesCompile (host : Host) (config : Config) : Prop :=
  (buildRules host.toPatterns config.rules (collectOutboundTags config)).isOk

namespace ReloadState

variable (host : Host) {files : GeoFiles} (s : ReloadState)

theorem apply_of_rulesCompile {config : Config} (h : config.RulesCompile host)
    : ∃ rules,
        buildRules host.toPatterns config.rules (collectOutboundTags config) = .ok rules
          ∧ s.apply host files config
            = (s.swapTables files config rules).refreshInbounds host.toCredentials
                config.inbounds := by
  obtain ⟨rules, hrules⟩ := (Fallible.isOk_iff _).mp h
  refine ⟨rules, hrules, ?_⟩
  unfold apply
  rw [hrules]

variable (files) in
theorem apply_of_not_rulesCompile (h : ¬ config.RulesCompile host)
    : (s.apply host files config).1 = s := by
  unfold Config.RulesCompile at h
  unfold apply
  split
  . rfl
  . next rules hrules => simp [hrules] at h

theorem isOk_apply (h : config.RulesCompile host)
    : (s.apply host files config).2.isOk
        ↔
      ∀ inbound ∈ config.inbounds,
        s.HasStore inbound → inbound.CredentialsAccepted host.toCredentials := by
  obtain ⟨rules, _, happly⟩ := apply_of_rulesCompile host s h
  rw [happly]
  rw [isOk_refreshInbounds]
  rfl

theorem maxConnectionsPerUser_apply {config : Config} (h : config.RulesCompile host)
    : (s.apply host files config).1.maxConnectionsPerUser = userConnectionCap config := by
  obtain ⟨rules, _, happly⟩ := apply_of_rulesCompile host s h
  rw [happly]
  rw [(sameSwapped_refreshInbounds _ _).maxConnectionsPerUser]
  rfl

def noFiles : GeoFiles := ⟨fun _ => Table.empty, fun _ => Table.empty, fun _ => none⟩

def outdated (config : Config) : ReloadState where
  router := RouterInner.new [] config.defaultTag GeoData.empty none
  sniffing := Table.empty
  maxConnectionsPerUser := userConnectionCap config + 1
  stores := fun k _ => some k.new
  geoCache := GeoCache.empty

theorem hasStore_outdated {inbound : InboundConfig} {k : StoreKind}
    (hk : inbound.protocol.storeKind = some k)
    : (outdated config).HasStore inbound :=
  ⟨k, hk, rfl⟩

def bareHost : Host where
  parseUuid := fun _ => none
  cmdKey := fun _ => []
  computeToken := fun _ => []
  passwordToPsk := fun _ => []
  toLowercase := id
  toUppercase := id
  buildKeywords := fun _ => .ok ()
  buildRegexes := fun _ => .ok ()
  parseNet := fun e => .error e

def withoutClients : Config where
  profile := .compat
  fast := none
  vision := none
  firstPacketBoost := none
  quic := none
  log := ⟨""⟩
  dns := none
  routing := none
  tun := none
  limits := ⟨none, none, none, none, none⟩
  inbounds := [{
    tag := "in"
    protocol := .vless
    listen := .v4 0
    port := 443
    settings := .default
    streamSettings := none
    limits := none
    sniffing := none
  }]
  outbounds := [{
    tag := "direct"
    protocol := .freedom
    settings := .default
    streamSettings := none
  }]
  stats := none
  metricsAddr := none

end ReloadState

end Blackwire
