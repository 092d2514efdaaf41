import Blackwire.Lib.Bytes
import Blackwire.Lib.Table
import Blackwire.Config.Impl.Schema
import Blackwire.Lib.Fallible

/-!
This module contains the user stores of the inbounds and the functions that fill them from the
settings of an inbound. A store is shared with the listeners, so a function that fails leaves behind
what it has written, and a running inbound sees its registry while it is filled again.
-/

namespace Blackwire

open Bytes

abbrev Uuid := Vector UInt8 16

structure Credentials where
  parseUuid : String → Option Uuid
  cmdKey : Uuid → Bytes
  computeToken : String → Bytes
  passwordToPsk : String → Bytes

namespace Credentials

def parseUuidOrFail (c : Credentials) (s : String) : Except String Uuid :=
  match c.parseUuid s with
  | none => .error ("invalid UUID '" ++ s ++ "'")
  | some uuid => .ok uuid

end Credentials

structure VlessUser where
  email : String
  uuid : Uuid
  flow : String

abbrev VlessUserRegistry := Table Uuid VlessUser

def normaliseUuid (uuid : Uuid) : Uuid :=
  (uuid.set 6 ((uuid[6] &&& 0x0F) ||| 0x40)).set 8 ((uuid[8] &&& 0x3F) ||| 0x80)

namespace VlessUserRegistry

def addUser (r : VlessUserRegistry) (user : VlessUser) : VlessUserRegistry :=
  Table.insert r (normaliseUuid user.uuid) user

def validate (r : VlessUserRegistry) (uuid : Uuid) : Option VlessUser :=
  r (normaliseUuid uuid)

end VlessUserRegistry

structure VmessUser where
  uuid : Uuid
  cmdKey : Bytes
  email : String

abbrev VmessUserRegistry := Table Bytes VmessUser

namespace VmessUserRegistry

def addUser (c : Credentials) (r : VmessUserRegistry) (uuid : Uuid) (email : String)
    : VmessUserRegistry :=
  let key := c.cmdKey uuid
  Table.insert r key ⟨uuid, key, email⟩

end VmessUserRegistry

structure TrojanToken where
  token : Bytes
  user : Option String

structure Ss2022AuthState where
  psk : Bytes
  user : Option String

structure Hysteria2AuthState where
  password : String
  user : Option String

structure TuicUser where
  uuid : Uuid
  password : String
  label : Option String

inductive StoreKind where
  | vless
  | vmess
  | trojan
  | ss2022
  | hysteria2
  | tuic
deriving DecidableEq

def Protocol.storeKind : Protocol → Option StoreKind
  | .vless => some .vless
  | .vmess => some .vmess
  | .trojan => some .trojan
  | .shadowsocks => some .ss2022
  | .hysteria2 => some .hysteria2
  | .tuic => some .tuic
  | _ => none

@[reducible]
def StoreKind.Content : StoreKind → Type
  | .vless => VlessUserRegistry
  | .vmess => VmessUserRegistry
  | .trojan => List TrojanToken
  | .ss2022 => Option Ss2022AuthState
  | .hysteria2 => Option Hysteria2AuthState
  | .tuic => List TuicUser

def StoreKind.new : (k : StoreKind) → k.Content
  | .vless => Table.empty
  | .vmess => Table.empty
  | .trojan => ([] : List TrojanToken)
  | .ss2022 => (none : Option Ss2022AuthState)
  | .hysteria2 => (none : Option Hysteria2AuthState)
  | .tuic => ([] : List TuicUser)

def Stores := (k : StoreKind) → Table String k.Content

namespace Stores

def empty : Stores := fun _ => Table.empty

def set (s : Stores) (k : StoreKind) (tag : String) (content : k.Content) : Stores :=
  fun k' => if h : k = k' then (s k').insert tag (h ▸ content) else s k'

theorem set_self (s : Stores) (k : StoreKind) (tag : String) (content : k.Content)
    : s.set k tag content k = (s k).insert tag content := by
  simp [set]

theorem set_of_ne (s : Stores) (k : StoreKind) {content : k.Content} (h : k ≠ k')
    : s.set k tag content k' = s k' := by
  simp [set, h]

end Stores

section Populate

variable (c : Credentials)

def vlessUser (client : EndpointUser) : Except String VlessUser :=
  match client.identifier with
  | none => .error "VLESS client missing 'id'"
  | some id => do
    let uuid ← c.parseUuidOrFail id
    return ⟨client.email.getD "", uuid, client.flow⟩

-- The loop of `populate_vless_registry`: a client that is rejected ends it.
def addVlessClients (registry : VlessUserRegistry)
    : List EndpointUser → VlessUserRegistry × Except String Unit
  | [] => (registry, .ok ())
  | client :: clients =>
    match vlessUser c client with
    | .error e => (registry, .error e)
    | .ok user => addVlessClients (registry.addUser user) clients

variable (cfg : InboundConfig)

def populateVlessRegistry : VlessUserRegistry × Except String Unit :=
  let registry : VlessUserRegistry := Table.empty
  if cfg.settings.clients.isEmpty then
    (registry, .error ("VLESS inbound '" ++ cfg.tag ++ "' has no configured clients"))
  else
    addVlessClients c registry cfg.settings.clients

def vmessUuid (i : Nat) (client : EndpointUser) : Except String Uuid :=
  match client.identifier with
  | none => .error ("VMess client #" ++ toString i ++ " missing 'id'")
  | some id =>
    match c.parseUuidOrFail id with
    | .error _ => .error ("invalid UUID in VMess client #" ++ toString i)
    | .ok uuid => .ok uuid

def addVmessClients (registry : VmessUserRegistry) (i : Nat)
    : List EndpointUser → VmessUserRegistry × Except String Unit
  | [] => (registry, .ok ())
  | client :: clients =>
    match vmessUuid c i client with
    | .error e => (registry, .error e)
    | .ok uuid => addVmessClients (registry.addUser c uuid (client.email.getD "")) (i + 1) clients

def populateVmessRegistry : VmessUserRegistry × Except String Unit :=
  let registry : VmessUserRegistry := Table.empty
  if cfg.settings.clients.isEmpty then
    (registry, .error ("VMess inbound '" ++ cfg.tag ++ "' has no configured clients"))
  else
    addVmessClients c registry 0 cfg.settings.clients

def trojanToken (tag : String) (i : Nat) (client : EndpointUser) : Except String TrojanToken :=
  match client.password with
  | none =>
    .error ("Trojan client #" ++ toString i ++ " in '" ++ tag ++ "' missing 'password'")
  | some password => .ok ⟨c.computeToken password, client.label⟩

def trojanTokens : Except String (List TrojanToken) := do
  let users ← cfg.settings.clients.zipIdx.mapM fun (client, i) => trojanToken c cfg.tag i client
  if users.isEmpty then
    .error ("Trojan inbound '" ++ cfg.tag ++ "' has no configured clients")
  else
    return users

section

variable (settings : EndpointSettings)

def ss2022UserLabel (password : String) : Option String :=
  match (settings.email.or settings.name).filter (· ≠ "") with
  | some label => some label
  | none =>
    settings.clients.findSome? fun client =>
      if client.password = some password then
        client.label.filter (· ≠ "")
      else
        none

def ss2022Auth : Except String (Option Ss2022AuthState) :=
  match cfg.settings.password with
  | none => .error ("SS-2022 inbound '" ++ cfg.tag ++ "' missing 'password'")
  | some password => .ok (some ⟨c.passwordToPsk password, ss2022UserLabel cfg.settings password⟩)

def hysteria2UserLabel (password : String) : Option String :=
  settings.clients.findSome? fun client =>
    match client.auth.or client.password with
    | none => none
    | some auth => if auth = password then client.label else none

-- The hot reload does not check that there is a password.
def hysteria2Auth : Option Hysteria2AuthState :=
  let password := cfg.settings.auth.getD ""
  some ⟨password, hysteria2UserLabel cfg.settings password⟩

def parseTuicUuid (uuid : String) : Except String Uuid :=
  match c.parseUuid uuid with
  | none => .error ("invalid TUIC uuid '" ++ uuid ++ "'")
  | some uuid => .ok uuid

def tuicUser (user : EndpointUser) : Except String TuicUser :=
  match user.identifier, user.password with
  | none, _ => .error "TUIC user missing uuid"
  | some _, none => .error "TUIC user missing password"
  | some id, some password => do
    let uuid ← parseTuicUuid c id
    return ⟨uuid, password, some (user.label.getD id)⟩

def parseUsers : Except String (List TuicUser) :=
  if settings.users.isEmpty then
    match settings.uuid, settings.password with
    | some id, some password => do
      let uuid ← parseTuicUuid c id
      return [⟨uuid, password, some ((settings.email.or settings.name).getD id)⟩]
    | _, _ => .ok []
  else
    settings.users.mapM (tuicUser c)

end

def replaceWith {α : Type} (old : α) (new : Except String α) : α × Except String Unit :=
  match new with
  | .error e => (old, .error e)
  | .ok new => (new, .ok ())

def populate : (k : StoreKind) → k.Content → k.Content × Except String Unit
  | .vless, _ => populateVlessRegistry c cfg
  | .vmess, _ => populateVmessRegistry c cfg
  | .trojan, old => replaceWith old (trojanTokens c cfg)
  | .ss2022, old => replaceWith old (ss2022Auth c cfg)
  | .hysteria2, _ => (hysteria2Auth cfg, .ok ())
  | .tuic, old => replaceWith old (parseUsers c cfg.settings)

end Populate

open List Fallible

variable (c : Credentials)

def EndpointUser.HasUuid (user : EndpointUser) : Prop :=
  ∃ id, user.id = some id ∧ (c.parseUuid id).isSome

def InboundConfig.CredentialsAccepted (inbound : InboundConfig) : Prop :=
  let settings := inbound.settings
  match inbound.protocol with
  | .vless | .vmess => settings.clients ≠ [] ∧ ∀ client ∈ settings.clients, client.HasUuid c
  | .trojan => settings.clients ≠ [] ∧ ∀ client ∈ settings.clients, client.password.isSome
  | .shadowsocks => settings.password.isSome
  | .tuic =>
    (∀ user ∈ settings.users, user.HasUuid c ∧ user.password.isSome)
      ∧ (settings.users = [] → settings.password.isSome →
          ∀ id, settings.uuid = some id → (c.parseUuid id).isSome)
  | _ => True

theorem isOk_parseUuidOrFail (id : String)
    : (c.parseUuidOrFail id).isOk ↔ (c.parseUuid id).isSome := by
  unfold Credentials.parseUuidOrFail
  cases c.parseUuid id <;> simp

variable (i : Nat) (client : EndpointUser)

theorem isOk_vlessUser
    : (vlessUser c client).isOk ↔ client.HasUuid c := by
  unfold vlessUser EndpointUser.HasUuid EndpointUser.identifier
  cases client.id with
  | none => simp
  | some id =>
    rw [isOk_bind_pure]
    simp [isOk_parseUuidOrFail]

theorem isOk_vmessUuid
    : (vmessUuid c i client).isOk ↔ client.HasUuid c := by
  unfold vmessUuid EndpointUser.HasUuid EndpointUser.identifier
  cases client.id with
  | none => simp
  | some id =>
    have h := isOk_parseUuidOrFail c id
    cases huuid : c.parseUuidOrFail id with
    | error e => simp_all
    | ok uuid => simp_all

theorem isOk_addVlessClients (registry : VlessUserRegistry) (clients : List EndpointUser)
    : (addVlessClients c registry clients).2.isOk ↔ ∀ client ∈ clients, client.HasUuid c := by
  induction clients generalizing registry with
  | nil => simp [addVlessClients]
  | cons client clients ih =>
    rw [forall_mem_cons]
    rw [← isOk_vlessUser]
    rw [addVlessClients]
    cases vlessUser c client with
    | error e => simp
    | ok user =>
      rw [← ih (registry.addUser user)]
      simp

theorem isOk_addVmessClients (registry : VmessUserRegistry) (i : Nat) (clients : List EndpointUser)
    : (addVmessClients c registry i clients).2.isOk ↔ ∀ client ∈ clients, client.HasUuid c := by
  induction clients generalizing registry i with
  | nil => simp [addVmessClients]
  | cons client clients ih =>
    rw [forall_mem_cons]
    rw [← isOk_vmessUuid c i]
    rw [addVmessClients]
    cases vmessUuid c i client with
    | error e => simp
    | ok uuid =>
      rw [← ih (registry.addUser c uuid (client.email.getD "")) (i + 1)]
      simp

theorem isOk_populateVlessRegistry
    : (populateVlessRegistry c cfg).2.isOk
        ↔
      cfg.settings.clients ≠ [] ∧ ∀ client ∈ cfg.settings.clients, client.HasUuid c := by
  unfold populateVlessRegistry
  split
  . next h => simp_all
  . next h =>
    rw [isOk_addVlessClients]
    simp_all

theorem isOk_populateVmessRegistry
    : (populateVmessRegistry c cfg).2.isOk
        ↔
      cfg.settings.clients ≠ [] ∧ ∀ client ∈ cfg.settings.clients, client.HasUuid c := by
  unfold populateVmessRegistry
  split
  . next h => simp_all
  . next h =>
    rw [isOk_addVmessClients]
    simp_all

theorem isOk_trojanToken (tag : String) (i : Nat) (client : EndpointUser)
    : (trojanToken c tag i client).isOk ↔ client.password.isSome := by
  unfold trojanToken
  cases client.password <;> simp

theorem isOk_trojanTokens
    : (trojanTokens c cfg).isOk
        ↔
      cfg.settings.clients ≠ [] ∧ ∀ client ∈ cfg.settings.clients, client.password.isSome := by
  let clients := cfg.settings.clients
  let token := fun (client, i) => trojanToken c cfg.tag i client
  have hmap : (clients.zipIdx.mapM token).isOk ↔ ∀ client ∈ clients, client.password.isSome := by
    rw [isOk_mapM]
    conv => rhs; rw [← zipIdx_map_fst 0 clients]
    rw [forall_mem_map]
    simp only [token, isOk_trojanToken]
  change (clients.zipIdx.mapM token >>= _).isOk ↔ clients ≠ [] ∧ _
  rw [← hmap]
  cases husers : clients.zipIdx.mapM token with
  | error e => simp [bind, Except.bind]
  | ok users =>
    have hlength := length_of_mapM _ _ _ husers
    rw [length_zipIdx] at hlength
    have hempty : users = [] ↔ clients = [] := by
      rw [← length_eq_zero_iff, hlength, length_eq_zero_iff]
    cases users with
    | nil => simp [bind, Except.bind, hempty.mp rfl]
    | cons user users => simp [bind, Except.bind, pure, Except.pure, ← hempty]

theorem isOk_ss2022Auth
    : (ss2022Auth c cfg).isOk ↔ cfg.settings.password.isSome := by
  unfold ss2022Auth
  cases cfg.settings.password <;> simp

theorem isOk_parseTuicUuid (id : String)
    : (parseTuicUuid c id).isOk ↔ (c.parseUuid id).isSome := by
  unfold parseTuicUuid
  cases c.parseUuid id <;> simp

theorem isOk_tuicUser (user : EndpointUser)
    : (tuicUser c user).isOk ↔ user.HasUuid c ∧ user.password.isSome := by
  unfold tuicUser EndpointUser.HasUuid EndpointUser.identifier
  cases user.id with
  | none => simp
  | some id =>
    cases user.password with
    | none => simp
    | some password =>
      rw [isOk_bind_pure]
      simp [isOk_parseTuicUuid]

theorem isOk_parseUsers (settings : EndpointSettings)
    : (parseUsers c settings).isOk
        ↔
      (∀ user ∈ settings.users, user.HasUuid c ∧ user.password.isSome)
        ∧ (settings.users = [] → settings.password.isSome →
            ∀ id, settings.uuid = some id → (c.parseUuid id).isSome) := by
  unfold parseUsers
  cases husers : settings.users with
  | nil =>
    cases huuid : settings.uuid with
    | none => simp
    | some id =>
      cases hpassword : settings.password with
      | none => simp
      | some password =>
        simp only [isEmpty_nil, if_true]
        rw [isOk_bind_pure]
        simp [isOk_parseTuicUuid]
  | cons user users =>
    simp only [isEmpty_cons, Bool.false_eq_true, if_false]
    rw [isOk_mapM]
    simp [isOk_tuicUser]

theorem isOk_replaceWith {α : Type} {old : α} {new : Except String α}
    : (replaceWith old new).2.isOk ↔ new.isOk := by
  cases new <;> simp [replaceWith]

theorem isOk_populate (k : StoreKind) (old : k.Content) (hk : cfg.protocol.storeKind = some k)
    : (populate c cfg k old).2.isOk ↔ cfg.CredentialsAccepted c := by
  unfold InboundConfig.CredentialsAccepted
  cases hprotocol : cfg.protocol <;> rw [hprotocol] at hk <;> cases hk
  . apply isOk_populateVlessRegistry
  . apply isOk_populateVmessRegistry
  . apply Iff.trans isOk_replaceWith
    apply isOk_trojanTokens
  . apply Iff.trans isOk_replaceWith
    apply isOk_ss2022Auth
  . simp [populate]
  . apply Iff.trans isOk_replaceWith
    apply isOk_parseUsers

theorem Stores.isSome_set {s : Stores} (k : StoreKind) {k' : StoreKind} {tag tag' : String}
    {content : k.Content}
    (h : (s k tag).isSome)
    : (s.set k tag content k' tag').isSome = (s k' tag').isSome := by
  by_cases hk : k = k'
  . subst hk
    rw [set_self]
    by_cases htag : tag' = tag
    . simp [htag, h]
    . rw [Table.insert_of_ne htag]
  . rw [set_of_ne s k hk]

namespace VlessUserRegistry

variable {c}

inductive Operation where
  | clear
  | addUser (user : VlessUser)

def perform (r : VlessUserRegistry) : Operation → VlessUserRegistry
  | .clear => Table.empty
  | .addUser user => r.addUser user

-- The users of the clients before the first one that is rejected.
def admitted (c : Credentials) : List EndpointUser → List VlessUser
  | [] => []
  | client :: clients =>
    match vlessUser c client with
    | .error _ => []
    | .ok user => user :: admitted c clients

/--
What `populate_vless_registry` does to the shared map, one operation after the other.
-/
def operations (c : Credentials) (cfg : InboundConfig) : List Operation :=
  .clear :: (admitted c cfg.settings.clients).map .addUser

def addUsers (r : VlessUserRegistry) (users : List VlessUser) : VlessUserRegistry :=
  (users.map .addUser).foldl perform r

theorem addUsers_admitted (r : VlessUserRegistry) (clients : List EndpointUser)
    : r.addUsers (admitted c clients) = (addVlessClients c r clients).fst := by
  induction clients generalizing r with
  | nil => rfl
  | cons client clients ih =>
    unfold admitted addVlessClients
    cases vlessUser c client with
    | error e => rfl
    | ok user => exact ih (r.addUser user)

theorem foldl_operations (r : VlessUserRegistry)
    : (operations c cfg).foldl perform r = (populateVlessRegistry c cfg).fst := by
  refine (addUsers_admitted Table.empty _).trans ?_
  unfold populateVlessRegistry
  dsimp only
  split
  . next h => rw [isEmpty_iff.mp h, addVlessClients]
  . rfl

def Same (uuid : Uuid) (user : VlessUser) : Prop :=
  normaliseUuid uuid = normaliseUuid user.uuid

theorem isSome_validate_addUsers (r : VlessUserRegistry) (users : List VlessUser) (uuid : Uuid)
    : ((r.addUsers users).validate uuid).isSome
        ↔ (r.validate uuid).isSome ∨ ∃ user ∈ users, Same uuid user := by
  induction users generalizing r with
  | nil => simp [addUsers]
  | cons user users ih =>
    simp only [mem_cons, exists_eq_or_imp, ← or_assoc]
    refine (ih (r.addUser user)).trans (or_congr_left ?_)
    unfold validate VlessUserRegistry.addUser Same Table.insert
    split
    . next h => simp [h]
    . next h => simp [h]

theorem exists_of_mem_admitted (h : user ∈ admitted c clients)
    : ∃ client ∈ clients, vlessUser c client = .ok user := by
  induction clients with
  | nil => cases h
  | cons client clients ih =>
    unfold admitted at h
    split at h
    . cases h
    . next user' hclient =>
      rcases mem_cons.mp h with rfl | h
      . exact ⟨client, mem_cons_self, hclient⟩
      . rcases ih h with ⟨client', hmem, huser⟩
        exact ⟨client', mem_cons_of_mem _ hmem, huser⟩

def Lists (c : Credentials) (cfg : InboundConfig) (uuid : Uuid) : Prop :=
  ∃ client ∈ cfg.settings.clients, ∃ user, vlessUser c client = .ok user ∧ Same uuid user

/--
A user that the registry has and the new list keeps is turned away from the moment when the map is
cleared until the user is added again. A user that neither of them has is always turned away.
-/
theorem validate_refilled (c : Credentials) (r : VlessUserRegistry) (new : InboundConfig)
    (uuid : Uuid) (n : Nat)
    : let seen := (((operations c new).take n).foldl perform r).validate uuid
      ((r.validate uuid).isSome → Lists c new uuid → (seen.isSome
        ↔ n = 0 ∨ ∃ user ∈ (admitted c new.settings.clients).take (n - 1), Same uuid user))
      ∧ (r.validate uuid = none → ¬Lists c new uuid → seen = none) := by
  cases n with
  | zero => exact ⟨fun h _ => iff_of_true h (.inl rfl), fun h _ => h⟩
  | succ k =>
    have hseen := isSome_validate_addUsers Table.empty
      ((admitted c new.settings.clients).take k) uuid
    rw [or_iff_right (by nofun), addUsers, map_take] at hseen
    refine ⟨fun _ _ => hseen.trans (by simp), fun _ h => ?_⟩
    rw [← Option.not_isSome_iff_eq_none]
    refine mt hseen.mp ?_
    rintro ⟨user, hmem, hsame⟩
    rcases exists_of_mem_admitted (mem_of_mem_take hmem) with ⟨client, hclient, huser⟩
    exact h ⟨client, hclient, user, huser, hsame⟩

def nilUuid : Credentials :=
  ⟨fun _ => some (.replicate 16 0), fun _ => [], fun _ => [], fun _ => []⟩

def oneClient : InboundConfig :=
  let client : EndpointUser := ⟨some "id", none, none, none, none, "", none, none⟩
  ⟨"in", .vless, .v4 0, 443, { EndpointSettings.default with clients := [client] }, none, none,
    none⟩

theorem kept_user_turned_away
    : Lists nilUuid oneClient (.replicate 16 0)
        ∧ ((populateVlessRegistry nilUuid oneClient).fst.validate (.replicate 16 0)).isSome
        ∧ (((operations nilUuid oneClient).take 1).foldl perform
          (populateVlessRegistry nilUuid oneClient).fst).validate (.replicate 16 0) = none :=
  ⟨⟨_, mem_cons_self, _, rfl, rfl⟩, rfl, rfl⟩

end VlessUserRegistry

end Blackwire
