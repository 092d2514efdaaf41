import Blackwire.Core.Instance
import Blackwire.Lib.Machine

/-!
This module contains the reconcile loop of the server, which activates a new desired revision by a
hot reload or by the handover to a replacement instance, and proves in which runs a failed
activation leaves an instance that runs the configuration which was active before.
-/

namespace Blackwire.Reconcile

structure RunningInstance where
  config : Config
  inst : Instance

structure RuntimeServices where
  metricsAddr : Option String
  metricsTask : Bool

abbrev StartMetrics := String → Except String Unit

def startRuntimeMetrics (start : StartMetrics) (addr : Option String) : Except String Bool :=
  match addr with
  | none => .ok false
  | some addr =>
    match start addr with
    | .error e => .error e
    | .ok _ => .ok true

def RuntimeServices.apply (s : RuntimeServices) (start restart : StartMetrics) (config : Config)
    : RuntimeServices × Except String Unit :=
  if config.metricsAddr = s.metricsAddr then
    (s, .ok ())
  else
    match startRuntimeMetrics start config.metricsAddr with
    | .ok task => (⟨config.metricsAddr, task⟩, .ok ())
    | .error e =>
      match startRuntimeMetrics restart s.metricsAddr with
      | .error e' => (⟨s.metricsAddr, false⟩, .error e')
      | .ok task => (⟨s.metricsAddr, task⟩, .error e)

structure Server where
  host : Host
  validate : Config → Except String Unit
  validateFastProfile : Config → List String
  profileOverride : Option ProfileMode

def effectiveConfig (base : Config) (override : Option ProfileMode) : Config :=
  match override with
  | none => base
  | some profile => if base.profile = profile then base else { base with profile := profile }

def instanceRuntimeConfig (base : Config) : Config :=
  if base.metricsAddr.isNone ∧ base.tun.isNone then
    base
  else
    { base with metricsAddr := none, tun := none }

def applyProfileOverrideAndValidate (server : Server) (config : Config) : Except String Unit :=
  let effectiveProfile := server.profileOverride.getD config.profile
  if effectiveProfile ≠ .fast then
    .ok ()
  else
    let errors := server.validateFastProfile { config with profile := effectiveProfile }
    if errors.isEmpty then
      .ok ()
    else
      .error ("config rejected by Fast Profile (" ++ toString errors.length ++ " error(s)):"
        ++ String.join (errors.map fun e => "\n  • " ++ e))

def validateRevision (server : Server) (config : Config) : Except String Unit := do
  server.validate config
  applyProfileOverrideAndValidate server config

structure Build where
  files : GeoFiles
  env : Env

def Build.fromConfig (b : Build) (host : Host) (config : Config) : Except String Instance :=
  Instance.fromConfig host b.files b.env config

structure Round where
  desiredRevision : Option Nat
  loaded : Except String Config
  prepare : Build
  exclusiveConflict : Bool
  retry : Build
  restore : Build
  startMetrics : StartMetrics
  restartMetrics : StartMetrics
  files : GeoFiles

def prepareInstanceHandover (host : Host) (r : Round) (running : RunningInstance)
    (newConfig : Config) : Option RunningInstance × Except String Instance :=
  match r.prepare.fromConfig host newConfig with
  | .ok i => (some running, .ok i)
  | .error e =>
    if r.exclusiveConflict then
      match r.retry.fromConfig host newConfig with
      | .ok i => (none, .ok i)
      | .error e =>
        match r.restore.fromConfig host (instanceRuntimeConfig running.config) with
        | .error _ =>
          (none, .error "new instance and last-known-good restoration both failed")
        | .ok restored => (some ⟨running.config, restored⟩, .error e)
    else
      (some running, .error e)

structure State where
  running : Bool
  observedRevision : Nat
  liveInstance : Option RunningInstance
  services : RuntimeServices
  active : Config
  failures : List (Nat × String)

namespace State

def fail (s : State) (revision : Nat) (error : String) : State :=
  { s with observedRevision := revision, failures := (revision, error) :: s.failures }

def succeed (s : State) (revision : Nat) (effective : Config) (i : Instance) : State :=
  { s with
    observedRevision := revision
    liveInstance := some ⟨effective, i⟩
    active := effective }

section

variable (host : Host) (s : State) (r : Round) (revision : Nat)

def handover (live : RunningInstance) (effective : Config) : State :=
  match prepareInstanceHandover host r live (instanceRuntimeConfig effective) with
  | (live, .error e) => fail { s with liveInstance := live } revision e
  | (live, .ok replacement) =>
    match s.services.apply r.startMetrics r.restartMetrics effective with
    | (services, .error e) => fail { s with liveInstance := live, services := services } revision e
    | (services, .ok _) => succeed { s with services := services } revision effective replacement

-- The reload works on tables that the running instance shares, so a failure leaves its mark there.
def reload (host : Host) (s : State) (r : Round) (revision : Nat) (live : RunningInstance)
    (effective : Config) : State :=
  match live.inst.reload.apply host r.files (instanceRuntimeConfig effective) with
  | (tables, .error e) =>
    let live := { live with inst := { live.inst with reload := tables } }
    fail { s with liveInstance := some live } revision e
  | (tables, .ok _) => s.succeed revision effective { live.inst with reload := tables }

def activate (effective : Config) : State :=
  match s.liveInstance with
  | none => { s with running := false }
  | some live =>
    if requiresInstanceHandover live.config effective then
      s.handover host r revision live effective
    else
      s.reload host r revision live effective

end

def round (server : Server) (s : State) (r : Round) : State :=
  if s.running = false then
    s
  else
    match r.desiredRevision with
    | none => s
    | some desired =>
      if desired = s.observedRevision then
        s
      else
        match r.loaded with
        | .error e => s.fail desired e
        | .ok config =>
          match validateRevision server config with
          | .error e => s.fail desired e
          | .ok _ =>
            s.activate server.host r desired (effectiveConfig config server.profileOverride)

def start (config : Config) (i : Instance) (services : RuntimeServices) (revision : Nat)
    : State where
  running := true
  observedRevision := revision
  liveInstance := some ⟨config, i⟩
  services := services
  active := config
  failures := []

end State

open Machine

inductive Runs (host : Host) : Config → Instance → Prop where
  | built (b : Build) (config : Config) (i : Instance)
      (h : b.fromConfig host (instanceRuntimeConfig config) = .ok i)
      : Runs host config i
  | reloaded (old config : Config) (i : Instance) (files : GeoFiles) (tables : ReloadState)
      (hold : Runs host old i) (hhandover : requiresInstanceHandover old config = false)
      (happly : i.reload.apply host files (instanceRuntimeConfig config) = (tables, .ok ()))
      : Runs host config { i with reload := tables }

structure State.Serves (host : Host) (s : State) (config : Config) : Prop where
  running : s.running = true
  live : ∃ i, s.liveInstance = some ⟨config, i⟩ ∧ Runs host config i

namespace Round

def candidate (server : Server) (r : Round) : Option Config :=
  match r.loaded with
  | .error _ => none
  | .ok config =>
    match validateRevision server config with
    | .error _ => none
    | .ok _ => some (effectiveConfig config server.profileOverride)

structure ReplacesDropped (host : Host) (r : Round) (effective : Config) : Prop where
  conflict : r.exclusiveConflict = true
  prepare : ¬ (r.prepare.fromConfig host (instanceRuntimeConfig effective)).isOk
  retry : (r.retry.fromConfig host (instanceRuntimeConfig effective)).isOk

end Round

/--
What the rounds of a run have to meet. The running configuration can be built again, the services
accept what the new instance was built from once the running one is gone, and a hot reload fails
before it writes or not at all.
-/
structure Safe (server : Server) (s : State) (r : Round) : Prop where
  restore : ∀ live, s.liveInstance = some live →
    (r.restore.fromConfig server.host (instanceRuntimeConfig live.config)).isOk
  services : ∀ live effective, s.liveInstance = some live → r.candidate server = some effective →
    requiresInstanceHandover live.config effective = true →
    r.ReplacesDropped server.host effective →
    (s.services.apply r.startMetrics r.restartMetrics effective).2.isOk
  reload : ∀ live effective, s.liveInstance = some live → r.candidate server = some effective →
    requiresInstanceHandover live.config effective = false →
    ¬ effective.RulesCompile server.host
      ∨ ∀ inbound ∈ effective.inbounds, inbound.CredentialsAccepted server.host.toCredentials

theorem rules_instanceRuntimeConfig (config : Config)
    : (instanceRuntimeConfig config).rules = config.rules := by
  unfold instanceRuntimeConfig
  split <;> rfl

theorem collectOutboundTags_instanceRuntimeConfig (config : Config)
    : collectOutboundTags (instanceRuntimeConfig config) = collectOutboundTags config := by
  unfold instanceRuntimeConfig
  split <;> rfl

theorem inbounds_instanceRuntimeConfig (config : Config)
    : (instanceRuntimeConfig config).inbounds = config.inbounds := by
  unfold instanceRuntimeConfig
  split <;> rfl

theorem rulesCompile_instanceRuntimeConfig (host : Host) (config : Config)
    : (instanceRuntimeConfig config).RulesCompile host ↔ config.RulesCompile host := by
  unfold Config.RulesCompile
  rw [rules_instanceRuntimeConfig]
  rw [collectOutboundTags_instanceRuntimeConfig]

section

variable (host : Host) (r : Round)

theorem prepareInstanceHandover_cases
    : (∃ i, r.prepare.fromConfig host newConfig = .ok i
          ∧ prepareInstanceHandover host r running newConfig = (some running, .ok i))
        ∨ (∃ e, prepareInstanceHandover host r running newConfig = (some running, .error e))
        ∨ (∃ i, r.retry.fromConfig host newConfig = .ok i
          ∧ r.exclusiveConflict = true
          ∧ ¬ (r.prepare.fromConfig host newConfig).isOk
          ∧ prepareInstanceHandover host r running newConfig = (none, .ok i))
        ∨ (∃ e i, r.restore.fromConfig host (instanceRuntimeConfig running.config) = .ok i
          ∧ prepareInstanceHandover host r running newConfig
            = (some ⟨running.config, i⟩, .error e))
        ∨ ¬ (r.restore.fromConfig host (instanceRuntimeConfig running.config)).isOk := by
  unfold prepareInstanceHandover
  cases hprepare : r.prepare.fromConfig host newConfig with
  | ok i => simp
  | error e =>
    by_cases hconflict : r.exclusiveConflict = true
    . cases hretry : r.retry.fromConfig host newConfig with
      | ok i => simp [hconflict]
      | error e' =>
        cases r.restore.fromConfig host (instanceRuntimeConfig running.config) with
        | error e'' => simp
        | ok i => simp [hconflict]
    . simp [hconflict]

end

namespace State

variable (server : Server) (s : State) (r : Round)

theorem round_cases
    : s.round server r = s
        ∨ (∃ revision e, s.round server r = s.fail revision e)
        ∨ (∃ revision effective, r.candidate server = some effective
          ∧ s.round server r = s.activate server.host r revision effective) := by
  unfold round Round.candidate
  split
  . simp
  split
  . simp
  . next desired _ =>
    split
    . simp
    cases hloaded : r.loaded with
    | error e =>
      right; left
      exists desired, e
    | ok config =>
      cases hvalid : validateRevision server config with
      | error e =>
        right; left
        refine ⟨desired, e, ?_⟩
        simp only [hvalid]
      | ok _ =>
        right; right
        refine ⟨desired, effectiveConfig config server.profileOverride, ?_⟩
        simp only [hvalid, and_self]

structure Settles (host : Host) (s s' : State) : Prop where
  serves : s'.Serves host s'.active
  failed : s'.failures ≠ s.failures → s'.active = s.active

variable {server s r} {s' : State}

theorem settles_fail (hrunning : s'.running = true) (hactive : s'.active = s.active)
    (hlive : s'.liveInstance = some ⟨s.active, i⟩) (hruns : Runs host s.active i)
    : Settles host s (s'.fail revision e) where
  serves := ⟨hrunning, i, hactive ▸ hlive, hactive ▸ hruns⟩
  failed _ := hactive

theorem settles_succeed (hrunning : s'.running = true) (hfailures : s'.failures = s.failures)
    (hruns : Runs host effective i)
    : Settles host s (s'.succeed revision effective i) where
  serves := ⟨hrunning, i, rfl, hruns⟩
  failed h := absurd hfailures h

section

variable (hrunning : s.running = true) (hlive : s.liveInstance = some ⟨s.active, i⟩)
  (hruns : Runs server.host s.active i) (hsafe : Safe server s r) (revision : Nat)
  (effective : Config) (hcandidate : r.candidate server = some effective)

include hrunning hlive hruns hsafe hcandidate

theorem settles_handover (hhandover : requiresInstanceHandover s.active effective = true)
    : Settles server.host s (s.handover server.host r revision ⟨s.active, i⟩ effective) := by
  unfold handover
  rcases prepareInstanceHandover_cases server.host r with
    ⟨new, hnew, heq⟩ | ⟨e, heq⟩ | ⟨new, hnew, hconflict, hprepare, heq⟩
      | ⟨e, old, hold, heq⟩ | hnone
  . rw [heq]
    cases happly : s.services.apply r.startMetrics r.restartMetrics effective with
    | mk services result =>
      cases result with
      | error e => exact settles_fail hrunning rfl rfl hruns
      | ok _ => exact settles_succeed hrunning rfl (.built _ _ _ hnew)
  . rw [heq]
    exact settles_fail hrunning rfl rfl hruns
  . -- The running instance is gone, so the services must not refuse.
    rw [heq]
    have hreplaces : r.ReplacesDropped server.host effective :=
      ⟨hconflict, hprepare, by simp [hnew]⟩
    have hok := hsafe.services _ effective hlive hcandidate hhandover hreplaces
    cases happly : s.services.apply r.startMetrics r.restartMetrics effective with
    | mk services result =>
      cases result with
      | error e => simp [happly] at hok
      | ok _ => exact settles_succeed hrunning rfl (.built _ _ _ hnew)
  . rw [heq]
    exact settles_fail hrunning rfl rfl (.built _ _ _ hold)
  . exact absurd (hsafe.restore _ hlive) hnone

theorem settles_reload (hhandover : requiresInstanceHandover s.active effective = false)
    : Settles server.host s (s.reload server.host r revision ⟨s.active, i⟩ effective) := by
  have hreload := hsafe.reload _ effective hlive hcandidate hhandover
  unfold reload
  cases happly : i.reload.apply server.host r.files (instanceRuntimeConfig effective) with
  | mk tables result =>
    cases result with
    | ok _ =>
      apply settles_succeed hrunning rfl
      exact .reloaded s.active effective i r.files tables hruns hhandover happly
    | error e =>
      -- Complete credentials are not refused, so the rules have not compiled.
      have hrules : ¬ (instanceRuntimeConfig effective).RulesCompile server.host := by
        intro hrules
        have hfails : ¬ (i.reload.apply server.host r.files
            (instanceRuntimeConfig effective)).2.isOk := by
          simp [happly]
        rw [ReloadState.isOk_apply server.host _ hrules] at hfails
        rw [inbounds_instanceRuntimeConfig] at hfails
        rw [rulesCompile_instanceRuntimeConfig] at hrules
        apply hfails
        intro inbound hmem _
        exact hreload.resolve_left (not_not_intro hrules) inbound hmem
      have hsame := ReloadState.apply_of_not_rulesCompile server.host r.files i.reload hrules
      rw [happly] at hsame
      dsimp only at hsame
      rw [hsame]
      exact settles_fail hrunning rfl rfl hruns

end

theorem settles_round (hserves : s.Serves server.host s.active) (hsafe : Safe server s r)
    : Settles server.host s (s.round server r) := by
  obtain ⟨hrunning, i, hlive, hruns⟩ := hserves
  rcases round_cases server s r with
    heq | ⟨revision, e, heq⟩ | ⟨revision, effective, hcandidate, heq⟩
  . rw [heq]
    exact ⟨⟨hrunning, i, hlive, hruns⟩, fun _ => rfl⟩
  . rw [heq]
    exact settles_fail hrunning rfl hlive hruns
  rw [heq]
  unfold activate
  rw [hlive]
  dsimp only
  split
  . next hhandover => exact settles_handover hrunning hlive hruns hsafe _ _ hcandidate hhandover
  . next hhandover =>
    rw [Bool.not_eq_true] at hhandover
    exact settles_reload hrunning hlive hruns hsafe _ _ hcandidate hhandover

theorem serves_of_reach {b : Build} {services : RuntimeServices}
    (hstart : b.fromConfig server.host (instanceRuntimeConfig config) = .ok i)
    (h : Reach (round server) (Safe server) (start config i services revision) s)
    : s.Serves server.host s.active := by
  apply Reach.invariant (fun s => s.Serves server.host s.active) _ _ ?_ ?_ h
  . exact ⟨rfl, i, rfl, .built b config i hstart⟩
  . intro t e hserves hsafe
    exact (settles_round hserves hsafe).serves

end State

def relaying (metricsAddr : Option String) : Config :=
  { resolving [] "one" none with
    inbounds := [{
      tag := "in"
      protocol := .shadowsocks
      listen := .v4 0
      port := 8388
      settings :=
        { EndpointSettings.default with password := some "secret", network := some "udp" }
      streamSettings := none
      limits := none
      sniffing := none
    }]
    metricsAddr := metricsAddr }

def bareServer : Server := ⟨ReloadState.bareHost, fun _ => .ok (), fun _ => [], none⟩

def free : Build := ⟨ReloadState.noFiles, permissiveEnv⟩

def occupied : Build :=
  ⟨ReloadState.noFiles,
    { permissiveEnv with startInbound := fun _ _ => .error "Address already in use" }⟩

def moving (revision : Nat) (retry : Build) : Round where
  desiredRevision := some revision
  loaded := .ok (relaying (some "203.0.113.1:9090"))
  prepare := occupied
  exclusiveConflict := true
  retry := retry
  restore := free
  startMetrics := fun addr =>
    .error ("metrics server failed to bind " ++ addr ++ ": Cannot assign requested address")
  restartMetrics := fun _ => .ok ()
  files := ReloadState.noFiles

theorem fromConfig_relaying
    : ∃ i, free.fromConfig ReloadState.bareHost (relaying none) = .ok i :=
  ⟨_, rfl⟩

def noServices : RuntimeServices := ⟨none, false⟩

end Blackwire.Reconcile
