import Blackwire.Core.Reload

/-!
This module contains the construction of an instance from a configuration, and proves for which
changes of the configuration a hot reload leaves the running instance with the components that a new
instance would have. What depends on the operating system, on files and on the builders of the
protocols is a parameter that may refuse.
-/

namespace Blackwire

structure Env where
  newResolver : List String → Except String Unit
  newFakeIpPool : String → Except String Unit
  -- `reject_unfinished_transport_settings` and the builder of the protocol.
  buildOutbound : OutboundConfig → Option Json → Except String Unit
  parseProbe : String → Except String Unit
  rejectUnfinished : InboundConfig → Except String Unit
  -- The certificates of a QUIC inbound, or the layers and the sockets of the others.
  startInbound : InboundConfig → Config → Except String Unit
  startMetrics : String → Except String Unit

structure DnsModule where
  servers : List String
  fakeIpRange : Option String
  filter : List String

def FakeIpConfig.range : Option FakeIpConfig → Option String
  | none => none
  | some cfg => if cfg.enabled then some cfg.pool else none

def DnsConfig.toModule (dns : DnsConfig) : DnsModule :=
  ⟨dns.servers, FakeIpConfig.range dns.fakeIp, ["localhost"]⟩

def buildDnsModule (env : Env) (dns : Option DnsConfig) : Except String (Option DnsModule) :=
  match dns with
  | none => .ok none
  | some dns =>
    let dnsModule := dns.toModule
    let result : Except String Unit := do
      env.newResolver dnsModule.servers
      match dnsModule.fakeIpRange with
      | none => pure ()
      | some range =>
        match env.newFakeIpPool range with
        | .error e => .error ("FakeIP pool init failed: " ++ e)
        | .ok _ => pure ()
    match result with
    | .error e => .error ("building DNS module: " ++ e)
    | .ok _ => .ok (some dnsModule)

inductive Strategy where
  | latency
  | roundRobin
  | random
  | adaptive
deriving DecidableEq

def Strategy.from (s : String) : Strategy :=
  if s = "roundRobin" then .roundRobin
  else if s = "random" then .random
  else if s = "adaptive" then .adaptive
  else .latency

structure BalancerMember where
  profile : String
  outboundTag : String
deriving DecidableEq

structure Balancer where
  tag : String
  members : List BalancerMember
  strategy : Strategy
  adaptiveConfig : AdaptiveBalancerConfig
  healthCheck : Option HealthCheckConfig

namespace BalancerConfig

def selectedTags (cfg : BalancerConfig) : List String :=
  if cfg.profiles.isEmpty then
    cfg.selector
  else
    cfg.profiles.map (·.outboundTag)

def balancer (cfg : BalancerConfig) : Balancer where
  tag := cfg.tag
  members := cfg.selectedTags.map fun tag =>
    match cfg.profiles.find? (·.outboundTag = tag) with
    | none => ⟨tag, tag⟩
    | some profile => ⟨profile.name, tag⟩
  strategy := Strategy.from cfg.strategy
  adaptiveConfig := cfg.adaptive.getD .default
  healthCheck := cfg.healthCheck

end BalancerConfig

inductive Outbound where
  | freedom (cfg : OutboundConfig) (profile : ProfileMode) (fast : Option Json)
      (dns : Option DnsModule)
  | quic (cfg : OutboundConfig) (quic : Option Json)
  | stream (cfg : OutboundConfig)
  | balancer (b : Balancer)

abbrev OutboundMap := List (String × Outbound)

def buildOutbound (env : Env) (config : Config) (dns : Option DnsModule) (cfg : OutboundConfig)
    : Except String Outbound := do
  env.buildOutbound cfg config.quic
  match cfg.protocol with
  | .freedom => return .freedom cfg config.profile config.fast dns
  | .hysteria2 | .tuic => return .quic cfg config.quic
  | .vless | .trojan | .vmess | .shadowsocks => return .stream cfg
  | p => .error ("outbound protocol " ++ p.debug ++ " not yet implemented")

def buildOutbounds (env : Env) (config : Config) (dns : Option DnsModule) (map : OutboundMap)
    : List OutboundConfig → Except String OutboundMap
  | [] => .ok map
  | cfg :: cfgs => do
    let handler ← buildOutbound env config dns cfg
    buildOutbounds env config dns ((cfg.tag, handler) :: map) cfgs

def selectBalancerOutbounds (cfg : BalancerConfig) (map : OutboundMap) : Except String Unit :=
  if cfg.selectedTags.isEmpty then
    .error ("balancer '" ++ cfg.tag ++ "' selector/profiles must not be empty")
  else
    match cfg.selectedTags.find? (fun tag => (map.lookup tag).isNone) with
    | some tag =>
      .error ("balancer '" ++ cfg.tag ++ "' references missing outbound '" ++ tag ++ "'")
    | none => .ok ()

def checkHealth (env : Env) (cfg : BalancerConfig) : Except String Unit :=
  match cfg.healthCheck with
  | none => .ok ()
  | some health =>
    match env.parseProbe health.url with
    | .error e => .error ("invalid health check for balancer '" ++ cfg.tag ++ "': " ++ e)
    | .ok _ => .ok ()

def buildBalancers (env : Env) (map : OutboundMap) : List BalancerConfig → Except String OutboundMap
  | [] => .ok map
  | cfg :: cfgs =>
    if (map.lookup cfg.tag).isSome then
      .error ("balancer tag '" ++ cfg.tag ++ "' conflicts with an existing outbound")
    else do
      selectBalancerOutbounds cfg map
      checkHealth env cfg
      buildBalancers env ((cfg.tag, .balancer cfg.balancer) :: map) cfgs

def withContext {α : Type} (text : String) (x : Except String α) : Except String α :=
  match x with
  | .error _ => .error text
  | .ok a => .ok a

def accepted {α : Type} (r : α × Except String Unit) : Except String α :=
  match r with
  | (_, .error e) => .error e
  | (a, .ok _) => .ok a

def validateVlessInboundSettings (cfg : InboundConfig) : Except String Unit :=
  match cfg.settings.decryption with
  | none => .ok ()
  | some decryption =>
    if decryption ≠ "none" then
      .error ("VLESS inbound '" ++ cfg.tag ++ "' supports only settings.decryption = \"none\"")
    else
      .ok ()

def requireHysteria2Auth (cfg : InboundConfig) : Except String Unit :=
  match cfg.settings.auth with
  | none => .error ("Hysteria2 inbound '" ++ cfg.tag ++ "' missing string settings.auth")
  | some auth =>
    if auth = "" then
      .error ("Hysteria2 inbound '" ++ cfg.tag ++ "' settings.auth must not be empty")
    else
      .ok ()

def requireTuicUsers (c : Credentials) (cfg : InboundConfig) : Except String (List TuicUser) := do
  let users ← parseUsers c cfg.settings
  if users.isEmpty then
    .error ("TUIC inbound '" ++ cfg.tag ++ "' requires users")
  else
    return users

def initialContent (c : Credentials) (cfg : InboundConfig)
    : (k : StoreKind) → Except String k.Content
  | .vless => withContext ("building VLESS inbound '" ++ cfg.tag ++ "'") do
    validateVlessInboundSettings cfg
    accepted (populateVlessRegistry c cfg)
  | .vmess => withContext ("building VMess inbound '" ++ cfg.tag ++ "'")
    (accepted (populateVmessRegistry c cfg))
  | .trojan => withContext ("building Trojan inbound '" ++ cfg.tag ++ "'") (trojanTokens c cfg)
  | .ss2022 =>
    -- A listener for UDP fills the store itself, without a text of its own.
    if cfg.settings.network ∈ [some "udp", some "tcp,udp", some "udp,tcp"] then
      ss2022Auth c cfg
    else
      withContext ("building SS-2022 inbound '" ++ cfg.tag ++ "'") (ss2022Auth c cfg)
  | .hysteria2 => withContext ("starting Hysteria2 inbound '" ++ cfg.tag ++ "'") do
    requireHysteria2Auth cfg
    return hysteria2Auth cfg
  | .tuic => withContext ("starting TUIC inbound '" ++ cfg.tag ++ "'") (requireTuicUsers c cfg)

def fillStore (c : Credentials) (stores : Stores) (cfg : InboundConfig) : Except String Stores :=
  match cfg.protocol.storeKind with
  | some k => do
    let content ← initialContent c cfg k
    return stores.set k cfg.tag content
  | none =>
    if cfg.protocol = .socks ∨ cfg.protocol = .http then
      return stores
    else
      .error ("inbound protocol " ++ cfg.protocol.debug ++ " not yet implemented")

def startInbound (c : Credentials) (env : Env) (config : Config) (stores : Stores)
    (cfg : InboundConfig) : Except String Stores := do
  env.rejectUnfinished cfg
  let stores ← fillStore c stores cfg
  env.startInbound cfg config
  return stores

def startInbounds (c : Credentials) (env : Env) (config : Config) (stores : Stores)
    : List InboundConfig → Except String Stores
  | [] => .ok stores
  | cfg :: cfgs => do
    let stores ← startInbound c env config stores cfg
    startInbounds c env config stores cfgs

structure Instance where
  dns : Option DnsModule
  outbounds : OutboundMap
  reload : ReloadState

def startMetricsServer (env : Env) (config : Config) : Except String Unit :=
  match config.metricsAddr with
  | none => .ok ()
  | some addr =>
    withContext ("starting metrics server on '" ++ addr ++ "'") (env.startMetrics addr)

def Instance.fromConfig (host : Host) (files : GeoFiles) (env : Env) (config : Config)
    : Except String Instance :=
  if config.tun.isSome then
    .error "TUN configuration is client-owned; start it through blackwire-client"
  else do
    let dns ← buildDnsModule env config.dns
    let handlers ← buildOutbounds env config dns [] config.outbounds
    let outbounds ← buildBalancers env handlers config.balancers
    let rules ← buildRules host.toPatterns config.rules (outbounds.map (·.fst))
    let stores ← startInbounds host.toCredentials env config Stores.empty config.inbounds
    startMetricsServer env config
    return {
      dns := dns
      outbounds := outbounds
      reload := {
        router := RouterInner.new rules config.defaultTag (loadGeoData files config)
          config.domainStrategy
        sniffing := buildSniffingMap config.inbounds
        maxConnectionsPerUser := userConnectionCap config
        stores := stores
        geoCache := GeoCache.empty
      }
    }

open List Fallible

theorem withContext_eq_ok {α : Type} {text : String} {x : Except String α} {a : α}
    : withContext text x = .ok a ↔ x = .ok a := by
  cases x <;> simp [withContext]

theorem accepted_eq_ok {α : Type} {r : α × Except String Unit} {a : α}
    : accepted r = .ok a ↔ r = (a, .ok ()) := by
  obtain ⟨b, result⟩ := r
  cases result <;> simp [accepted]

section Stores

variable (c : Credentials) (s : Stores)

theorem populate_of_initialContent {content : k.Content}
    (h : initialContent c cfg k = .ok content) (old : k.Content)
    : populate c cfg k old = (content, .ok ()) := by
  cases k with
  | vless =>
    rw [initialContent, withContext_eq_ok, bind_eq_ok] at h
    obtain ⟨_, _, h⟩ := h
    exact accepted_eq_ok.mp h
  | vmess =>
    rw [initialContent, withContext_eq_ok] at h
    exact accepted_eq_ok.mp h
  | trojan =>
    rw [initialContent, withContext_eq_ok] at h
    rw [populate, h, replaceWith]
  | ss2022 =>
    have hauth : ss2022Auth c cfg = .ok content := by
      rw [initialContent] at h
      split at h
      . assumption
      . exact withContext_eq_ok.mp h
    rw [populate, hauth, replaceWith]
  | hysteria2 =>
    rw [initialContent, withContext_eq_ok, bind_eq_ok] at h
    obtain ⟨_, _, h⟩ := h
    cases h
    rfl
  | tuic =>
    rw [initialContent, withContext_eq_ok, requireTuicUsers, bind_eq_ok] at h
    obtain ⟨users, husers, h⟩ := h
    split at h
    . cases h
    . cases h
      rw [populate, husers, replaceWith]

def Buildable (cfg : InboundConfig) : Prop :=
  ∀ k, cfg.protocol.storeKind = some k → ∃ content, initialContent c cfg k = .ok content

def Stores.write (s : Stores) (cfg : InboundConfig) : Stores :=
  match cfg.protocol.storeKind with
  | none => s
  | some k => s.set k cfg.tag (populate c cfg k k.new).1

theorem fillStore_eq_ok {s s' : Stores} (h : fillStore c s cfg = .ok s')
    : s' = s.write c cfg ∧ Buildable c cfg := by
  unfold fillStore at h
  unfold Stores.write Buildable
  split at h
  . next k hk =>
    rw [bind_eq_ok] at h
    obtain ⟨content, hcontent, h⟩ := h
    rw [pure_eq_ok] at h
    simp only [hk, populate_of_initialContent c hcontent]
    constructor
    . exact h.symm
    . intro k' hk'
      cases hk'
      exact ⟨content, hcontent⟩
  . next hk =>
    rw [hk]
    split at h
    . cases h
      simp
    . cases h

theorem startInbound_eq_ok {env : Env} {config : Config} {s s' : Stores}
    (h : startInbound c env config s cfg = .ok s')
    : s' = s.write c cfg ∧ Buildable c cfg := by
  unfold startInbound at h
  rw [bind_eq_ok] at h
  obtain ⟨_, _, h⟩ := h
  rw [bind_eq_ok] at h
  obtain ⟨stores, hstores, h⟩ := h
  rw [bind_eq_ok] at h
  obtain ⟨_, _, h⟩ := h
  rw [pure_eq_ok] at h
  rw [← h]
  apply fillStore_eq_ok
  assumption

theorem startInbounds_eq_ok (env : Env) {config : Config} (s s' : Stores)
    (cfgs : List InboundConfig) (h : startInbounds c env config s cfgs = .ok s')
    : s' = cfgs.foldl (Stores.write c) s ∧ ∀ cfg ∈ cfgs, Buildable c cfg := by
  induction cfgs generalizing s with
  | nil =>
    cases h
    simp
  | cons cfg cfgs ih =>
    rw [startInbounds, bind_eq_ok] at h
    obtain ⟨t, ht, h⟩ := h
    obtain ⟨hwrite, hbuildable⟩ := startInbound_eq_ok c ht
    obtain ⟨hfold, hall⟩ := ih t h
    rw [foldl_cons, forall_mem_cons]
    rw [hwrite] at hfold
    exact ⟨hfold, hbuildable, hall⟩

def Keyed (k : StoreKind) (tag : String) (cfg : InboundConfig) : Prop :=
  cfg.protocol.storeKind = some k ∧ cfg.tag = tag

theorem Stores.write_of_keyed {tag : String} (h : Keyed k tag cfg)
    : s.write c cfg k tag = some (populate c cfg k k.new).1 := by
  obtain ⟨hk, htag⟩ := h
  simp [Stores.write, hk, ← htag, Stores.set_self]

theorem Stores.write_of_not_keyed {tag : String} (h : ¬ Keyed k tag cfg)
    : s.write c cfg k tag = s k tag := by
  cases hk' : cfg.protocol.storeKind with
  | none => simp [Stores.write, hk']
  | some k' =>
    simp only [Stores.write, hk']
    by_cases hk : k' = k
    . subst hk
      rw [Stores.set_self, Table.insert_of_ne]
      intro htag
      exact h ⟨hk', htag.symm⟩
    . rw [Stores.set_of_ne _ _ hk]

theorem Stores.foldl_write_of_not_keyed (k : StoreKind) (tag : String)
    {cfgs : List InboundConfig} (h : ∀ cfg ∈ cfgs, ¬ Keyed k tag cfg)
    : cfgs.foldl (Stores.write c) s k tag = s k tag := by
  induction cfgs generalizing s with
  | nil => rfl
  | cons cfg cfgs ih =>
    rw [forall_mem_cons] at h
    rw [foldl_cons, ih _ h.right, Stores.write_of_not_keyed c s h.left]

theorem Stores.foldl_write_congr (s' : Stores) (k : StoreKind) (tag : String)
    (cfgs : List InboundConfig) (h : s k tag = s' k tag ∨ ∃ cfg ∈ cfgs, Keyed k tag cfg)
    : cfgs.foldl (Stores.write c) s k tag = cfgs.foldl (Stores.write c) s' k tag := by
  induction cfgs generalizing s s' with
  | nil => simpa using h
  | cons cfg cfgs ih =>
    apply ih
    by_cases hkeyed : Keyed k tag cfg
    . left
      rw [Stores.write_of_keyed c s hkeyed, Stores.write_of_keyed c s' hkeyed]
    . rw [Stores.write_of_not_keyed c s hkeyed, Stores.write_of_not_keyed c s' hkeyed]
      simpa [hkeyed] using h

theorem Stores.isSome_foldl_write (k : StoreKind) (tag : String) (cfgs : List InboundConfig)
    : (cfgs.foldl (Stores.write c) Stores.empty k tag).isSome ↔ ∃ cfg ∈ cfgs, Keyed k tag cfg := by
  constructor
  . intro h
    by_contra hnone
    rw [Stores.foldl_write_of_not_keyed c _ k tag] at h
    . simp [Stores.empty, Table.empty] at h
    . intro cfg hmem hkeyed
      exact hnone ⟨cfg, hmem, hkeyed⟩
  . intro h
    rw [Stores.foldl_write_congr c Stores.empty (fun k _ => some k.new) k tag cfgs (Or.inr h)]
    have keeps (s : Stores) (hs : (s k tag).isSome) (cfgs : List InboundConfig)
        : (cfgs.foldl (Stores.write c) s k tag).isSome := by
      induction cfgs generalizing s with
      | nil => exact hs
      | cons cfg cfgs ih =>
        apply ih
        by_cases hkeyed : Keyed k tag cfg
        . simp [Stores.write_of_keyed c s hkeyed]
        . rw [Stores.write_of_not_keyed c s hkeyed]
          exact hs
    exact keeps _ rfl cfgs

theorem ReloadState.refreshInbounds_of_buildable (s : ReloadState) (cfgs : List InboundConfig)
    (hstore : ∀ cfg ∈ cfgs, ∀ k, cfg.protocol.storeKind = some k → (s.stores k cfg.tag).isSome)
    (hbuildable : ∀ cfg ∈ cfgs, Buildable c cfg)
    : s.refreshInbounds c cfgs
        =
      ({ s with stores := cfgs.foldl (Stores.write c) s.stores }, .ok ()) := by
  induction cfgs generalizing s with
  | nil => rfl
  | cons cfg cfgs ih =>
    rw [forall_mem_cons] at hstore hbuildable
    rw [refreshInbounds, foldl_cons]
    cases hk : cfg.protocol.storeKind with
    | none =>
      have hwrite : s.stores.write c cfg = s.stores := by simp [Stores.write, hk]
      simp only [refreshInbound, hk, hwrite]
      exact ih s hstore.right hbuildable.right
    | some k =>
      obtain ⟨content, hcontent⟩ := hbuildable.left k hk
      have hsome := hstore.left k hk
      obtain ⟨old, hold⟩ := Option.isSome_iff_exists.mp hsome
      have hpopulate := populate_of_initialContent c hcontent
      have hwrite : s.stores.write c cfg = s.stores.set k cfg.tag content := by
        simp [Stores.write, hk, hpopulate]
      simp only [refreshInbound_of_store c s cfg k hk hold, hpopulate, hwrite]
      rw [ih]
      . intro cfg' hmem k' hk'
        simp only [Stores.isSome_set k hsome]
        exact hstore.right cfg' hmem k' hk'
      . exact hbuildable.right

end Stores

section Outbounds

theorem buildDnsModule_eq_ok (h : buildDnsModule env dns = .ok m)
    : m = dns.map (·.toModule) := by
  unfold buildDnsModule at h
  split at h
  . cases h
    rfl
  dsimp only at h
  split at h
  . cases h
  . cases h
    rfl

structure SameHandlerSettings (config config' : Config) : Prop where
  profile : config.profile = config'.profile
  fast : config.fast = config'.fast
  quic : config.quic = config'.quic

variable (env : Env) (map m : OutboundMap)

theorem buildOutbound_unique (dns : Option DnsModule) (cfg : OutboundConfig) (o o' : Outbound)
    (hsame : SameHandlerSettings config config') (h : buildOutbound env config dns cfg = .ok o)
    (h' : buildOutbound env' config' dns cfg = .ok o')
    : o = o' := by
  unfold buildOutbound at h h'
  rw [bind_eq_ok] at h h'
  obtain ⟨_, _, h⟩ := h
  obtain ⟨_, _, h'⟩ := h'
  rw [← hsame.profile, ← hsame.fast, ← hsame.quic, h] at h'
  cases h'
  rfl

theorem buildOutbounds_unique (env' : Env) (config config' : Config) (cfgs : List OutboundConfig)
    (map m m' : OutboundMap) (hsame : SameHandlerSettings config config')
    (h : buildOutbounds env config dns map cfgs = .ok m)
    (h' : buildOutbounds env' config' dns map cfgs = .ok m')
    : m = m' := by
  induction cfgs generalizing map with
  | nil =>
    cases h
    cases h'
    rfl
  | cons cfg cfgs ih =>
    rw [buildOutbounds, bind_eq_ok] at h h'
    obtain ⟨o, ho, h⟩ := h
    obtain ⟨o', ho', h'⟩ := h'
    rw [← buildOutbound_unique env dns cfg o o' hsame ho ho'] at h'
    exact ih _ h h'

theorem buildOutbounds_keys (cfgs : List OutboundConfig) (map : OutboundMap) {m : OutboundMap}
    (h : buildOutbounds env config dns map cfgs = .ok m) (tag : String)
    : tag ∈ m.map (·.fst) ↔ tag ∈ map.map (·.fst) ∨ tag ∈ cfgs.map (·.tag) := by
  induction cfgs generalizing map with
  | nil =>
    cases h
    simp
  | cons cfg cfgs ih =>
    rw [buildOutbounds, bind_eq_ok] at h
    obtain ⟨o, _, h⟩ := h
    rw [ih _ h]
    simp only [map_cons, mem_cons]
    tauto

theorem buildBalancers_cons_eq_ok (h : buildBalancers env map (cfg :: cfgs) = .ok m)
    : map.lookup cfg.tag = none
        ∧ buildBalancers env ((cfg.tag, .balancer cfg.balancer) :: map) cfgs = .ok m := by
  unfold buildBalancers at h
  split at h
  . cases h
  . next hnone =>
    rw [bind_eq_ok] at h
    obtain ⟨_, _, h⟩ := h
    rw [bind_eq_ok] at h
    obtain ⟨_, _, h⟩ := h
    exact ⟨Option.not_isSome_iff_eq_none.mp hnone, h⟩

theorem buildBalancers_fresh (h : buildBalancers env map cfgs = .ok m)
    : ∀ cfg ∈ cfgs, map.lookup cfg.tag = none := by
  induction cfgs generalizing map with
  | nil => simp
  | cons cfg cfgs ih =>
    obtain ⟨hnone, h⟩ := buildBalancers_cons_eq_ok env map m h
    rw [forall_mem_cons]
    refine ⟨hnone, ?_⟩
    intro cfg' hmem
    have hfresh := ih _ h cfg' hmem
    rw [lookup_cons] at hfresh
    split at hfresh
    . cases hfresh
    . assumption

theorem buildBalancers_keys (h : buildBalancers env map cfgs = .ok m) (tag : String)
    : tag ∈ m.map (·.fst) ↔ tag ∈ map.map (·.fst) ∨ tag ∈ cfgs.map (·.tag) := by
  induction cfgs generalizing map with
  | nil =>
    cases h
    simp
  | cons cfg cfgs ih =>
    obtain ⟨_, h⟩ := buildBalancers_cons_eq_ok env map m h
    rw [ih _ h]
    simp only [map_cons, mem_cons]
    tauto

def balancerAt (cfgs : List BalancerConfig) (tag : String) : Option Balancer :=
  (cfgs.find? (·.tag = tag)).map (·.balancer)

theorem buildBalancers_fresh_at
    (h : buildBalancers env map cfgs = .ok m) (tag : String) (b : Balancer)
    (hb : balancerAt cfgs tag = some b)
    : map.lookup tag = none := by
  unfold balancerAt at hb
  rw [Option.map_eq_some_iff] at hb
  obtain ⟨cfg, hfind, _⟩ := hb
  have htag : cfg.tag = tag := by simpa using find?_some hfind
  rw [← htag]
  exact buildBalancers_fresh env map m h cfg (mem_of_find?_eq_some hfind)

theorem buildBalancers_lookup (h : buildBalancers env map cfgs = .ok m) (tag : String)
    : m.lookup tag
        =
      match balancerAt cfgs tag with
      | some b => some (.balancer b)
      | none => map.lookup tag := by
  induction cfgs generalizing map with
  | nil =>
    cases h
    rfl
  | cons cfg cfgs ih =>
    obtain ⟨hnone, h⟩ := buildBalancers_cons_eq_ok env map m h
    have hfresh := buildBalancers_fresh env _ m h
    rw [ih _ h]
    unfold balancerAt
    rw [find?_cons]
    by_cases htag : cfg.tag = tag
    . -- No later balancer has the same tag.
      have hlater : cfgs.find? (·.tag = tag) = none := by
        rw [find?_eq_none]
        intro cfg' hmem heq
        have := hfresh cfg' hmem
        simp_all [lookup_cons]
      simp [hlater, htag]
    . have hne : (tag == cfg.tag) = false := by
        simpa using Ne.symm htag
      simp only [htag, decide_false, lookup_cons, hne]

end Outbounds

structure Compatible (old new : Config) : Prop where
  settings : SameHandlerSettings old new
  outbounds : old.outbounds = new.outbounds
  inbound : ∀ newIn ∈ new.inbounds, ∃ oldIn ∈ old.inbounds,
    oldIn.tag = newIn.tag ∧ oldIn.protocol = newIn.protocol

theorem compatible_of_no_handover (h : requiresInstanceHandover old new = false)
    : Compatible old new := by
  unfold requiresInstanceHandover at h
  split at h
  . cases h
  split at h
  . cases h
  next hsettings =>
  split at h
  . cases h
  split at h
  . cases h
  next houtbounds =>
  split at h
  . cases h
  simp only [not_or, not_not] at hsettings houtbounds
  obtain ⟨_, hprofile, hfast, _, _, _, _, hquic⟩ := hsettings
  refine ⟨⟨hprofile, hfast, hquic⟩, houtbounds, ?_⟩
  intro newIn hmem
  have hnew := any_eq_false.mp h newIn hmem
  cases hfind : old.inbounds.find? (·.tag = newIn.tag) with
  | none => simp [hfind] at hnew
  | some oldIn =>
    have hvalue : normalizedInboundValue oldIn = normalizedInboundValue newIn := by
      simpa [hfind] using hnew
    have htag := congrArg InboundConfig.tag hvalue
    have hprotocol := congrArg InboundConfig.protocol hvalue
    exact ⟨oldIn, mem_of_find?_eq_some hfind, htag, hprotocol⟩

namespace Instance

structure Built (host : Host) (files : GeoFiles) (env : Env) (config : Config) (i : Instance)
    : Prop where
  dns : i.dns = config.dns.map (·.toModule)
  outbounds : ∃ handlers, buildOutbounds env config i.dns [] config.outbounds = .ok handlers
    ∧ buildBalancers env handlers config.balancers = .ok i.outbounds
  router : ∃ rules,
    buildRules host.toPatterns config.rules (i.outbounds.map (·.fst)) = .ok rules
      ∧ i.reload.router
        = RouterInner.new rules config.defaultTag (loadGeoData files config) config.domainStrategy
  sniffing : i.reload.sniffing = buildSniffingMap config.inbounds
  maxConnectionsPerUser : i.reload.maxConnectionsPerUser = userConnectionCap config
  stores : i.reload.stores = config.inbounds.foldl (Stores.write host.toCredentials) Stores.empty
  geoCache : i.reload.geoCache = GeoCache.empty
  buildable : ∀ cfg ∈ config.inbounds, Buildable host.toCredentials cfg

theorem built_of_fromConfig (h : fromConfig host files env config = .ok i)
    : Built host files env config i := by
  unfold fromConfig at h
  split at h
  . cases h
  simp only [bind_eq_ok] at h
  obtain ⟨dns, hdns, handlers, hhandlers, outbounds, houtbounds, rules, hrules, stores, hstores, _,
    _, h⟩ := h
  rw [pure_eq_ok] at h
  obtain ⟨hfold, hbuildable⟩ := startInbounds_eq_ok _ env _ _ _ hstores
  rw [← h]
  exact {
    dns := buildDnsModule_eq_ok hdns
    outbounds := ⟨handlers, hhandlers, houtbounds⟩
    router := ⟨rules, hrules, rfl⟩
    sniffing := rfl
    maxConnectionsPerUser := rfl
    stores := hfold
    geoCache := rfl
    buildable := hbuildable
  }

theorem Built.rules (h : Built host files env config i)
    : ∃ rules,
        buildRules host.toPatterns config.rules (collectOutboundTags config) = .ok rules
          ∧ i.reload.router
            = RouterInner.new rules config.defaultTag (loadGeoData files config)
                config.domainStrategy := by
  obtain ⟨rules, hrules, hrouter⟩ := h.router
  obtain ⟨handlers, hhandlers, houtbounds⟩ := h.outbounds
  refine ⟨rules, ?_, hrouter⟩
  rw [← hrules]
  apply buildRules_congr
  intro tag
  rw [buildBalancers_keys env handlers i.outbounds houtbounds]
  rw [buildOutbounds_keys env _ _ hhandlers]
  simp [collectOutboundTags]

structure Agree (i i' : Instance) : Prop where
  router : i.reload.router = i'.reload.router
  outbounds : ∀ tag, i.outbounds.lookup tag = i'.outbounds.lookup tag
  dns : i.dns = i'.dns
  sniffing : i.reload.sniffing = i'.reload.sniffing
  stores : i.reload.stores = i'.reload.stores
  maxConnectionsPerUser : i.reload.maxConnectionsPerUser = i'.reload.maxConnectionsPerUser

end Instance

structure HotSwappable (old new : Config) : Prop where
  dns : old.dns.map (·.toModule) = new.dns.map (·.toModule)
  balancers : ∀ tag, balancerAt old.balancers tag = balancerAt new.balancers tag
  stores : ∀ k tag, (∃ cfg ∈ old.inbounds, Keyed k tag cfg) → ∃ cfg ∈ new.inbounds, Keyed k tag cfg

theorem loadGeoDataCached_empty
    : (loadGeoDataCached files config GeoCache.empty).1 = loadGeoData files config := by
  cases hip : config.geoipFile <;> cases hsite : config.geositeFile <;>
    simp [loadGeoDataCached, loadGeoData, cacheHit, GeoCache.empty, GeoData.empty, hip, hsite]

section

section

variable (h : Instance.Built host files₀ env₀ old i)
include h

theorem Instance.Built.isSome_stores (hcompatible : Compatible old new)
    : ∀ cfg ∈ new.inbounds, ∀ k,
        cfg.protocol.storeKind = some k → (i.reload.stores k cfg.tag).isSome := by
  intro cfg hmem k hk
  obtain ⟨oldIn, hold, htag, hprotocol⟩ := hcompatible.inbound cfg hmem
  rw [h.stores, Stores.isSome_foldl_write]
  exact ⟨oldIn, hold, hprotocol ▸ hk, htag⟩

theorem Instance.Built.apply_eq
    (h' : Built host files env new i') (hcompatible : Compatible old new)
    : ∃ geoCache,
        i.reload.apply host files new
          =
        ({ router := i'.reload.router
           sniffing := i'.reload.sniffing
           maxConnectionsPerUser := i'.reload.maxConnectionsPerUser
           stores := new.inbounds.foldl (Stores.write host.toCredentials) i.reload.stores
           geoCache := geoCache }, .ok ()) := by
  obtain ⟨rules, hrules, hrouter⟩ := h'.rules
  refine ⟨(loadGeoDataCached files new i.reload.geoCache).2, ?_⟩
  unfold ReloadState.apply
  rw [hrules]
  dsimp only
  rw [ReloadState.refreshInbounds_of_buildable]
  . rw [hrouter, h'.sniffing, h'.maxConnectionsPerUser]
    rw [← loadGeoDataCached_empty, ← h.geoCache]
    rfl
  . exact h.isSome_stores hcompatible
  . exact h'.buildable

theorem Instance.Built.lookup_eq_iff
    (h' : Built host files env new i') (hcompatible : Compatible old new) (hdns : i.dns = i'.dns)
    : (∀ tag, i.outbounds.lookup tag = i'.outbounds.lookup tag)
        ↔
      ∀ tag, balancerAt old.balancers tag = balancerAt new.balancers tag := by
  obtain ⟨handlers, hhandlers, houtbounds⟩ := h.outbounds
  obtain ⟨handlers', hhandlers', houtbounds'⟩ := h'.outbounds
  have hlookup := buildBalancers_lookup env₀ handlers i.outbounds houtbounds
  have hlookup' := buildBalancers_lookup env handlers' i'.outbounds houtbounds'
  have hsame : handlers = handlers' := by
    rw [← hdns, ← hcompatible.outbounds] at hhandlers'
    exact buildOutbounds_unique env₀ env old new _ _ _ _ hcompatible.settings hhandlers hhandlers'
  subst hsame
  have hfresh := buildBalancers_fresh_at env₀ handlers i.outbounds houtbounds
  have hfresh' := buildBalancers_fresh_at env handlers i'.outbounds houtbounds'
  constructor
  . intro hall tag
    have htag := hall tag
    rw [hlookup, hlookup'] at htag
    cases hb : balancerAt old.balancers tag with
    | none =>
      cases hb' : balancerAt new.balancers tag with
      | none => rfl
      | some b' => simp [hb, hb', hfresh' tag b' hb'] at htag
    | some b =>
      cases hb' : balancerAt new.balancers tag with
      | none => simp [hb, hb', hfresh tag b hb] at htag
      | some b' => simpa [hb, hb'] using htag
  . intro hall tag
    rw [hlookup, hlookup', hall]

theorem Instance.Built.stores_eq_iff (h' : Built host files env new i')
    : new.inbounds.foldl (Stores.write host.toCredentials) i.reload.stores = i'.reload.stores
        ↔
      ∀ k tag, (∃ cfg ∈ old.inbounds, Keyed k tag cfg) → ∃ cfg ∈ new.inbounds, Keyed k tag cfg := by
  let write := Stores.write host.toCredentials
  constructor
  . intro heq k tag hold
    by_contra hnew
    have hkept : new.inbounds.foldl write i.reload.stores k tag = i.reload.stores k tag := by
      apply Stores.foldl_write_of_not_keyed
      intro cfg hmem hkeyed
      exact hnew ⟨cfg, hmem, hkeyed⟩
    have hsome : (i.reload.stores k tag).isSome := by
      rw [h.stores, Stores.isSome_foldl_write]
      assumption
    rw [← hkept, heq, h'.stores, Stores.isSome_foldl_write] at hsome
    exact hnew hsome
  . intro hall
    funext k tag
    rw [h'.stores]
    apply Stores.foldl_write_congr
    by_cases hnew : ∃ cfg ∈ new.inbounds, Keyed k tag cfg
    . right
      assumption
    left
    rw [h.stores]
    apply Stores.foldl_write_of_not_keyed
    intro cfg hmem hkeyed
    exact hnew (hall k tag ⟨cfg, hmem, hkeyed⟩)

end

theorem hotReload_agrees_iff (host : Host) (files₀ files : GeoFiles) (env₀ env : Env)
    (old new : Config) (i i' : Instance)
    (hold : Instance.fromConfig host files₀ env₀ old = .ok i)
    (hnew : Instance.fromConfig host files env new = .ok i')
    (hswap : requiresInstanceHandover old new = false)
    : (i.reload.apply host files new).2 = .ok ()
        ∧ (Instance.Agree { i with reload := (i.reload.apply host files new).1 } i'
            ↔
          HotSwappable old new) := by
  have h := Instance.built_of_fromConfig hold
  have h' := Instance.built_of_fromConfig hnew
  have hcompatible := compatible_of_no_handover hswap
  obtain ⟨geoCache, happly⟩ := h.apply_eq h' hcompatible
  rw [happly]
  refine ⟨rfl, ?_, ?_⟩
  . intro hagree
    have hdns : i.dns = i'.dns := hagree.dns
    exact {
      dns := by rw [← h.dns, ← h'.dns, hdns]
      balancers := (h.lookup_eq_iff h' hcompatible hdns).mp hagree.outbounds
      stores := (h.stores_eq_iff h').mp hagree.stores
    }
  . intro hswappable
    have hdns : i.dns = i'.dns := by rw [h.dns, h'.dns, hswappable.dns]
    exact {
      router := rfl
      outbounds := (h.lookup_eq_iff h' hcompatible hdns).mpr hswappable.balancers
      dns := hdns
      sniffing := rfl
      stores := (h.stores_eq_iff h').mpr hswappable.stores
      maxConnectionsPerUser := rfl
    }

end

def resolving (servers : List String) (member : String) (cap : Option Nat) : Config where
  profile := .compat
  fast := none
  vision := none
  firstPacketBoost := none
  quic := none
  log := ⟨""⟩
  dns := some ⟨servers, none⟩
  routing := some {
    domainStrategy := none, geoipFile := none, geositeFile := none, rules := []
    balancers := [⟨"auto", [member], "random", [], none, none⟩]
  }
  tun := none
  limits := ⟨none, none, cap, none, none⟩
  inbounds := []
  outbounds := ["one", "two"].map fun tag => ⟨tag, .freedom, .default, none⟩
  stats := none
  metricsAddr := none

def permissiveEnv : Env where
  newResolver := fun _ => .ok ()
  newFakeIpPool := fun _ => .ok ()
  buildOutbound := fun _ _ => .ok ()
  parseProbe := fun _ => .ok ()
  rejectUnfinished := fun _ => .ok ()
  startInbound := fun _ _ => .ok ()
  startMetrics := fun _ => .ok ()

theorem fromConfig_resolving (host : Host) (files : GeoFiles) (servers : List String)
    (cap : Option Nat) (hmember : member = "one" ∨ member = "two")
    : ∃ i,
        Instance.fromConfig host files permissiveEnv (resolving servers member cap) = .ok i
          ∧ i.dns = some ⟨servers, none, ["localhost"]⟩
          ∧ i.outbounds.lookup "auto"
            = some (.balancer ⟨"auto", [⟨member, member⟩], .random, .default, none⟩) := by
  cases hmember with
  | inl h =>
    subst h
    exact ⟨_, rfl, rfl, rfl⟩
  | inr h =>
    subst h
    exact ⟨_, rfl, rfl, rfl⟩

theorem hotReload_agrees_on_new_cap
    : ∃ i i',
        Instance.fromConfig ReloadState.bareHost ReloadState.noFiles permissiveEnv
            (resolving ["8.8.8.8"] "one" none) = .ok i
          ∧ Instance.fromConfig ReloadState.bareHost ReloadState.noFiles permissiveEnv
            (resolving ["8.8.8.8"] "one" (some 5)) = .ok i'
          ∧ Instance.Agree
              { i with
                reload := (i.reload.apply ReloadState.bareHost ReloadState.noFiles
                  (resolving ["8.8.8.8"] "one" (some 5))).1 }
              i' := by
  obtain ⟨i, hi, _, _⟩ :=
    fromConfig_resolving ReloadState.bareHost ReloadState.noFiles ["8.8.8.8"] none (Or.inl rfl)
  obtain ⟨i', hi', _, _⟩ := fromConfig_resolving ReloadState.bareHost ReloadState.noFiles
    ["8.8.8.8"] (some 5) (Or.inl rfl)
  refine ⟨i, i', hi, hi', ?_⟩
  apply (hotReload_agrees_iff _ _ _ _ _ _ _ i i' hi hi' (by decide)).right.mpr
  exact ⟨rfl, fun _ => rfl, fun _ _ h => h⟩

theorem hotReload_keeps_dns_and_balancer
    : ∃ old new, ∀ (host : Host) (files : GeoFiles), ∃ i i',
        Instance.fromConfig host files permissiveEnv old = .ok i
          ∧ Instance.fromConfig host files permissiveEnv new = .ok i'
          ∧ requiresInstanceHandover old new = false
          ∧ (i.reload.apply host files new).2 = .ok ()
          ∧ i.dns = some ⟨["8.8.8.8"], none, ["localhost"]⟩
          ∧ i'.dns = some ⟨["1.1.1.1"], none, ["localhost"]⟩
          ∧ i.outbounds.lookup "auto"
            = some (.balancer ⟨"auto", [⟨"one", "one"⟩], .random, .default, none⟩)
          ∧ i'.outbounds.lookup "auto"
            = some (.balancer ⟨"auto", [⟨"two", "two"⟩], .random, .default, none⟩) := by
  refine ⟨resolving ["8.8.8.8"] "one" none, resolving ["1.1.1.1"] "two" none, ?_⟩
  intro host files
  obtain ⟨i, hi, hdns, hbalancer⟩ :=
    fromConfig_resolving host files ["8.8.8.8"] none (Or.inl rfl)
  obtain ⟨i', hi', hdns', hbalancer'⟩ :=
    fromConfig_resolving host files ["1.1.1.1"] none (Or.inr rfl)
  exact ⟨i, i', hi, hi', by decide, rfl, hdns, hdns', hbalancer, hbalancer'⟩

end Blackwire
