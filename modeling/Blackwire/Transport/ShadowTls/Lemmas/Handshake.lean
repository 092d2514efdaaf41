import Mathlib.Data.List.GetD
import Blackwire.Lib.Machine
import Blackwire.Transport.ShadowTls.Impl.Handshake

/-!
This module contains the verification of the handshake relay from
`Transport.ShadowTls.Impl.Handshake`.
-/

namespace Blackwire.ShadowTls

open List Machine

theorem u16At_append (p x : Bytes) (i : Nat) (h : i + 2 ≤ p.length)
    : Bytes.u16At (p ++ x) i = Bytes.u16At p i := by
  unfold Bytes.u16At Bytes.byteAt
  rw [getD_append _ _ _ _ (by omega), getD_append _ _ _ _ (by omega)]

variable {c : Crypto} {version : Version} {s : Relay} {peer : Peer}
  {cut : Option (Nat × ProxyError)} {p : Endpoint}

theorem length_of_record {p x : Bytes} (hp : readTlsRecord p = .more k) (hx : x.length ≤ k)
    (hr : readTlsRecord (p ++ x) = .record r)
    : (p ++ x).length = 5 + Bytes.u16At (p ++ x) 3 := by
  have hlen : (p ++ x).length = p.length + x.length := length_append
  unfold readTlsRecord at hp hr
  split at hr
  next => cases hr
  next h5 =>
    simp only at hr
    split at hr
    next => cases hr
    split at hr
    next => cases hr
    next hge =>
      split at hp
      next hshort =>
        cases hp
        omega
      next hlong =>
        have hu := u16At_append p x 3 (by omega)
        simp only at hp
        split at hp
        next => cases hp
        split at hp
        next =>
          cases hp
          omega
        next => cases hp

theorem exists_header (q : Bytes) (h : 5 ≤ q.length)
    : ∃ b0 b1 b2 b3 b4 rest, q = b0 :: b1 :: b2 :: b3 :: b4 :: rest := by
  match q, h with
  | b0 :: b1 :: b2 :: b3 :: b4 :: rest, _ => exact ⟨b0, b1, b2, b3, b4, rest, rfl⟩

theorem encode_eq (hlen : rest.length = 256 * b3.toNat + b4.toNat)
    : Record.encode ⟨b0, (b1, b2), rest⟩ = b0 :: b1 :: b2 :: b3 :: b4 :: rest := by
  have h3 := b3.toNat_lt
  have h4 := b4.toNat_lt
  have hmod : rest.length % 2 ^ 16 = rest.length := by omega
  have hhigh : UInt8.ofNat (rest.length / 256) = b3 := by
    rw [← UInt8.toNat_inj, UInt8.toNat_ofNat']
    omega
  have hlow : UInt8.ofNat rest.length = b4 := by
    rw [← UInt8.toNat_inj, UInt8.toNat_ofNat']
    omega
  unfold Record.encode
  dsimp only
  rw [hmod, hhigh, hlow]
  rfl

theorem encode_of_record (hr : readTlsRecord q = .record r) (hlen : q.length = 5 + Bytes.u16At q 3)
    : r.encode = q ∧ r.payload.length ≤ 16384 + 2048 := by
  rcases exists_header q (by omega) with ⟨b0, b1, b2, b3, b4, rest, rfl⟩
  have hu : Bytes.u16At (b0 :: b1 :: b2 :: b3 :: b4 :: rest) 3 = 256 * b3.toNat + b4.toNat := rfl
  have hrest : rest.length = 256 * b3.toNat + b4.toNat := by
    simp only [length_cons] at hlen
    omega
  unfold readTlsRecord at hr
  rw [hu, ← hrest] at hr
  simp only [length_cons] at hr
  rw [if_neg (by omega)] at hr
  split at hr
  next => cases hr
  next hsmall =>
    rw [if_neg (by omega)] at hr
    cases hr
    simp only [drop_succ_cons, drop_zero, take_length]
    exact ⟨encode_eq hrest, by omega⟩

theorem applicationPayload_encode (r : Record) (htype : r.recordType = tlsRecordApplicationData)
    (hlen : r.payload.length ≤ 16384 + 2048)
    : applicationPayload r.encode = .ok r.payload := by
  have hmod : r.payload.length % 2 ^ 16 = r.payload.length := by omega
  have hu : Bytes.u16At r.encode 3 = r.payload.length := by
    simp only [Record.encode, Bytes.u16At, Bytes.byteAt, cons_append,
      getD_cons_succ, getD_cons_zero, UInt8.toNat_ofNat']
    omega
  have hlength : r.encode.length = 5 + r.payload.length := by
    simp only [Record.encode, length_append, length_cons, length_nil]
  have hzero : r.encode.getD 0 0 = r.recordType := rfl
  unfold applicationPayload
  rw [hu, hlength, hzero, if_neg (by omega), if_neg (by simpa using htype)]
  simp [Record.encode]

structure Taint where
  random : Option Bytes
  absorbed : Bytes

namespace Taint

def serverRandomOf (r : Record) : Option Bytes :=
  if r.recordType = tlsRecordHandshake then extractServerRandom r.payload else none

variable (c : Crypto) (psk : Bytes) (t : Taint)

def next (r : Record) : Taint × Bytes :=
  match t.random.or (serverRandomOf r) with
  | none => (⟨none, t.absorbed⟩, r.encode)
  | some random =>
    if r.recordType = tlsRecordApplicationData then
      let masked := xorWithHandshakeMask c psk random r.payload
      let tag := (c.hmacSha1 psk (random ++ t.absorbed ++ masked)).take tagLen
      (⟨some random, t.absorbed ++ masked⟩,
        Record.encode ⟨tlsRecordApplicationData, (0x03, 0x03), tag ++ masked⟩)
    else
      (⟨some random, t.absorbed⟩, r.encode)

def after (records : List Record) : Taint :=
  records.foldl (fun t r => (t.next c psk r).fst) t

end Taint

def tainted (c : Crypto) (psk : Bytes) (t : Taint) : List Record → List Bytes
  | [] => []
  | r :: records => (t.next c psk r).snd :: tainted c psk (t.next c psk r).fst records

theorem tainted_concat (t : Taint) (records : List Record) (r : Record)
    : tainted c psk t (records ++ [r])
        = tainted c psk t records ++ [((t.after c psk records).next c psk r).snd] := by
  induction records generalizing t with
  | nil => rfl
  | cons r' records ih =>
    simp only [cons_append, tainted]
    rw [ih]
    rfl

theorem after_concat (t : Taint) (records : List Record) (r : Record)
    : t.after c psk (records ++ [r]) = ((t.after c psk records).next c psk r).fst := by
  simp [Taint.after]

def Tracks (psk : Bytes) (s : Sniffer) (t : Taint) : Prop :=
  match t.random with
  | none => s.foundServerRandom = false ∧ t.absorbed = []
  | some random =>
    s.foundServerRandom = true ∧ s.serverRandom = random
      ∧ s.residualMac = some ⟨psk, random ++ t.absorbed⟩

theorem sniff_of_found {s : Sniffer} (h : s.foundServerRandom = true)
    : s.sniff version r = s := by
  simp [Sniffer.sniff, h]

theorem sniff_of_none {s : Sniffer} (h : Taint.serverRandomOf r = none)
    : s.sniff version r = s := by
  unfold Sniffer.sniff
  split
  next hcond =>
    simp only [Bool.and_eq_true, decide_eq_true_eq] at hcond
    rw [Taint.serverRandomOf, if_pos hcond.left.right] at h
    rw [h]
  next => rfl

theorem sniff_of_some (psk : Bytes) {s : Sniffer} (hs : s.foundServerRandom = false)
    (h : Taint.serverRandomOf r = some random)
    : r.recordType = tlsRecordHandshake
        ∧ s.sniff (.v3 psk) r = { s with
          serverRandom := random
          foundServerRandom := true
          residualMac := some ⟨psk, random⟩ } := by
  unfold Taint.serverRandomOf at h
  split at h
  next htype =>
    have hhead : r.payload.head? = some tlsHandshakeServerHello := by
      unfold extractServerRandom at h
      split at h
      next => cases h
      split at h
      next => cases h
      next hhead => simpa using hhead
    simp [Sniffer.sniff, hs, htype, hhead, h, residualHandshakeMac]
  next => cases h

theorem onBackendRecord_v3 {s : Sniffer} (hlen : r.payload.length ≤ 16384 + 2048)
    (h : Tracks psk s t)
    : (onBackendRecord c (.v3 psk) s r).snd = .forward (t.next c psk r).snd
        ∧ Tracks psk (onBackendRecord c (.v3 psk) s r).fst (t.next c psk r).fst := by
  unfold Tracks at h
  unfold onBackendRecord Taint.next
  cases hrandom : t.random with
  | some random =>
    rw [hrandom] at h
    rcases h with ⟨hfound, hserver, hmac⟩
    simp only [sniff_of_found hfound, hfound]
    split
    next htype =>
      have happ : r.recordType = tlsRecordApplicationData := by simpa using htype
      simp [hmac, taintBackendApplicationData, applicationPayload_encode r happ hlen, happ, hserver,
        ShadowHmac.nextTag, ShadowHmac.update, Tracks, bind, Except.bind, pure, Except.pure]
    next htype =>
      have happ : r.recordType ≠ tlsRecordApplicationData := by simpa using htype
      simp [happ, Tracks, hfound, hserver, hmac]
  | none =>
    rw [hrandom] at h
    rcases h with ⟨hfound, habsorbed⟩
    cases hnew : Taint.serverRandomOf r with
    | none => simp [sniff_of_none hnew, hfound, Tracks, habsorbed]
    | some random =>
      rcases sniff_of_some psk hfound hnew with ⟨htype, hsniff⟩
      have happ : r.recordType ≠ tlsRecordApplicationData := by
        rw [htype]
        decide
      simp [hsniff, happ, Tracks, habsorbed]

def encodeAll (records : List Record) : List Bytes :=
  records.map (·.encode)

def relayed (c : Crypto) (version : Version) (records : List Record) : List Bytes :=
  match version with
  | .v2 => encodeAll records
  | .v3 psk => tainted c psk ⟨none, []⟩ records

def TracksAll (c : Crypto) (version : Version) (s : Sniffer) (records : List Record) : Prop :=
  match version with
  | .v2 => True
  | .v3 psk => Tracks psk s (Taint.after c psk ⟨none, []⟩ records)

theorem onBackendRecord_relayed {s : Sniffer} (hlen : r.payload.length ≤ 16384 + 2048)
    (h : TracksAll c version s records)
    : ∃ bytes, (onBackendRecord c version s r).snd = .forward bytes
        ∧ relayed c version (records ++ [r]) = relayed c version records ++ [bytes]
        ∧ TracksAll c version (onBackendRecord c version s r).fst (records ++ [r]) := by
  cases version with
  | v2 =>
    refine ⟨r.encode, rfl, ?_, trivial⟩
    simp [relayed, encodeAll]
  | v3 psk =>
    rcases onBackendRecord_v3 (c := c) hlen h with ⟨haction, htracks⟩
    refine ⟨_, haction, ?_, ?_⟩
    . simp only [relayed]
      rw [tainted_concat]
    . simp only [TracksAll]
      rw [after_concat]
      exact htracks

namespace Endpoint

-- Every byte of the peer is in a record that was read, with the pending read, or unread.
def Accounted (p : Endpoint) : Prop :=
  (encodeAll p.records).flatten ++ p.reading ++ p.unread = p.sent

def Waits (p : Endpoint) : Prop :=
  ∃ k, readTlsRecord p.reading = .more k

end Endpoint

section

variable (c : Crypto) (version : Version) (s : Relay)

def expected : Peer → List Bytes
  | .backend => encodeAll (s.peers .client).records
  | .client => relayed c version (s.peers .backend).records

def Forwarded : Prop :=
  ∀ peer, (s.peers peer).Accounted ∧ (s.peers peer).written = expected c version s peer

def Exact : Prop :=
  match s.outcome with
  | none => Forwarded c version s
  | some (.switched _) => Forwarded c version s
  | some (.switchedAt _ record) =>
    (∀ peer, (s.peers peer).Accounted)
      ∧ (s.peers .backend).written ++ [record] = expected c version s .backend
      ∧ (s.peers .client).written = expected c version s .client
  | some (.failed _) =>
    ∀ peer, (encodeAll (s.peers peer).records).flatten <+: (s.peers peer).sent
      ∧ (s.peers peer).written.flatten <+: (expected c version s peer).flatten

end

structure Inv (c : Crypto) (version : Version) (s : Relay) : Prop where
  exact : Exact c version s
  waits : s.outcome = none → ∀ peer, (s.peers peer).Waits
  tracks : TracksAll c version s.sniffer (s.peers .backend).records

theorem inv_new : Inv c version .new where
  exact := by
    intro peer
    refine ⟨rfl, ?_⟩
    cases peer with
    | backend => rfl
    | client => cases version <;> rfl
  waits := fun _ _ => ⟨5, rfl⟩
  tracks := by
    cases version with
    | v2 => trivial
    | v3 psk => exact ⟨rfl, rfl⟩

theorem Peer.other_ne (peer : Peer) : peer.other ≠ peer := by
  cases peer <;> decide

theorem peers_setPeer (other : Peer)
    : (s.setPeer peer f).peers other
        = if other = peer then f (s.peers peer) else s.peers other := by
  simp [Relay.setPeer, Function.update_apply]

theorem peers_setPeer_other (h : other ≠ peer)
    : (s.setPeer peer f).peers other = s.peers other := by
  rw [peers_setPeer, if_neg h]

theorem forall_setPeer {p : Peer → Endpoint → Prop} (hpeer : p peer (f (s.peers peer)))
    (h : ∀ other, p other (s.peers other)) (other : Peer)
    : p other ((s.setPeer peer f).peers other) := by
  rw [peers_setPeer]
  split
  next heq =>
    rw [heq]
    exact hpeer
  next => exact h other

theorem Endpoint.Accounted.isPrefix (h : p.Accounted)
    : (encodeAll p.records).flatten <+: p.sent := by
  rw [← h, append_assoc]
  apply prefix_append

theorem Endpoint.Accounted.arrive (h : p.Accounted)
    : { p with sent := p.sent ++ bytes, unread := p.unread ++ bytes : Endpoint }.Accounted := by
  unfold Accounted at *
  rw [← h]
  simp

theorem Endpoint.Accounted.read (n : Nat) (h : p.Accounted)
    : (p.read n).Accounted := by
  unfold Accounted Endpoint.read at *
  rw [← h]
  simp

theorem Endpoint.Accounted.take (h : p.Accounted) (hr : r.encode = p.reading)
    : { p with reading := [], records := p.records ++ [r] : Endpoint }.Accounted := by
  unfold Accounted encodeAll at *
  simp only [map_append, map_cons]
  rw [hr, ← h]
  simp

theorem exact_failed (s : Relay) (hacc : ∀ peer, (s.peers peer).Accounted)
    (hwritten : ∀ peer, (s.peers peer).written.flatten <+: (expected c version s peer).flatten)
    : Exact c version { s with outcome := some (.failed e) } := by
  exact fun peer => ⟨(hacc peer).isPrefix, hwritten peer⟩

theorem Forwarded.isPrefix (h : Forwarded c version s) (peer : Peer)
    : (s.peers peer).written.flatten <+: (expected c version s peer).flatten := by
  exact (h peer).right ▸ prefix_rfl

theorem exact_setPeer (h : Exact c version s)
    (hrecords : (f (s.peers peer)).records = (s.peers peer).records)
    (hwritten : (f (s.peers peer)).written = (s.peers peer).written)
    (hsent : (s.peers peer).sent <+: (f (s.peers peer)).sent)
    (haccounted : (s.peers peer).Accounted → (f (s.peers peer)).Accounted)
    : Exact c version (s.setPeer peer f) := by
  have hrecords' :=
    forall_setPeer (p := fun other e => e.records = (s.peers other).records) hrecords
      fun _ => rfl
  have hwritten' :=
    forall_setPeer (p := fun other e => e.written = (s.peers other).written) hwritten
      fun _ => rfl
  have hsent' :=
    forall_setPeer (p := fun other e => (s.peers other).sent <+: e.sent) hsent
      fun _ => prefix_rfl
  have haccounted' (hall : ∀ other, (s.peers other).Accounted) :=
    forall_setPeer (p := fun _ e => e.Accounted) (haccounted (hall peer)) hall
  have hexpected (other : Peer)
      : expected c version (s.setPeer peer f) other = expected c version s other := by
    cases other with
    | client => simp only [expected, hrecords']
    | backend => simp only [expected, hrecords']
  have houtcome : (s.setPeer peer f).outcome = s.outcome := rfl
  unfold Exact Forwarded at *
  rw [houtcome]
  simp only [hrecords', hwritten', hexpected]
  split
  next ho =>
    rw [ho] at h
    exact fun other => ⟨haccounted' (fun p => (h p).left) other, (h other).right⟩
  next ho =>
    rw [ho] at h
    exact fun other => ⟨haccounted' (fun p => (h p).left) other, (h other).right⟩
  next ho =>
    rw [ho] at h
    exact ⟨haccounted' h.left, h.right⟩
  next ho =>
    rw [ho] at h
    exact fun other => ⟨(h other).left.trans (hsent' other), (h other).right⟩

theorem tracks_setPeer (peer) (hrecords : (f (s.peers peer)).records = (s.peers peer).records)
    (h : TracksAll c version s.sniffer (s.peers .backend).records)
    : TracksAll c version (s.setPeer peer f).sniffer
        ((s.setPeer peer f).peers .backend).records := by
  rw [forall_setPeer (p := fun other e => e.records = (s.peers other).records) hrecords
    (fun _ => rfl) .backend]
  exact h

theorem inv_arrive (h : Inv c version s)
    : Inv c version (s.step c version (.arrive peer bytes)) := by
  refine ⟨?_, ?_, ?_⟩
  . apply exact_setPeer h.exact
    . rfl
    . rfl
    . apply prefix_append
    . exact fun hacc => hacc.arrive
  . intro hnone
    simp only [Relay.step]
    apply forall_setPeer (p := fun _ e => e.Waits)
    . exact h.waits hnone peer
    . exact h.waits hnone
  . apply tracks_setPeer
    . rfl
    . exact h.tracks

theorem Peer.forall_of_other (peer : Peer) {p : Peer → Prop} (h : p peer) (hother : p peer.other)
    : ∀ other, p other := by
  intro other
  cases peer <;> cases other <;> assumption

def passed (bytes : Bytes) (cut : Option (Nat × ProxyError)) : Bytes :=
  match cut with
  | none => bytes
  | some (n, _) => bytes.take n

theorem peers_write (p : Peer)
    : (s.write peer bytes cut).peers p
        = if p = peer then
            { s.peers peer with written := (s.peers peer).written ++ [passed bytes cut] }
          else
            s.peers p := by
  cases cut with
  | none => simp only [Relay.write, passed, peers_setPeer]
  | some cut => simp only [Relay.write, passed, peers_setPeer]

theorem sniffer_write : (s.write peer bytes cut).sniffer = s.sniffer := by
  cases cut <;> rfl

theorem exact_forwarded (h : Forwarded c version s)
    (houtcome : outcome = none ∨ (∃ random, outcome = some (.switched random))
      ∨ ∃ e, outcome = some (.failed e))
    : Exact c version { s with outcome := outcome } := by
  rcases houtcome with rfl | ⟨random, rfl⟩ | ⟨e, rfl⟩
  . exact h
  . exact h
  . exact exact_failed s (fun peer => (h peer).left) h.isPrefix

theorem records_write {p : Peer}
    : ((s.write peer bytes cut).peers p).records = (s.peers p).records := by
  rw [peers_write]
  split
  next heq => rw [heq]
  next => rfl

theorem expected_write (p : Peer)
    : expected c version (s.write peer bytes cut) p = expected c version s p := by
  cases p <;> simp only [expected, records_write]

theorem accounted_write (h : ∀ p, (s.peers p).Accounted) (p : Peer)
    : ((s.write peer bytes cut).peers p).Accounted := by
  rw [peers_write]
  split
  next => exact h peer
  next => exact h p

section

variable (hdue : (s.peers peer).written ++ [bytes] = expected c version s peer)
  (hother : (s.peers peer.other).written = expected c version s peer.other)

include hdue hother

theorem written_write {p : Peer}
    : ((s.write peer bytes none).peers p).written = expected c version s p := by
  apply Peer.forall_of_other (p := fun p =>
    ((s.write peer bytes none).peers p).written = expected c version s p) peer
  . rw [peers_write, if_pos rfl]
    exact hdue
  . rw [peers_write, if_neg peer.other_ne]
    exact hother

theorem flatten_write (p : Peer)
    : ((s.write peer bytes cut).peers p).written.flatten <+: (expected c version s p).flatten := by
  apply Peer.forall_of_other (p := fun p =>
    ((s.write peer bytes cut).peers p).written.flatten <+: (expected c version s p).flatten) peer
  . rw [peers_write, if_pos rfl, ← hdue]
    simp only [flatten_append, flatten_singleton]
    rw [prefix_append_right_inj]
    unfold passed
    split
    . exact prefix_rfl
    . apply take_prefix
  . rw [peers_write, if_neg peer.other_ne]
    exact hother ▸ prefix_rfl

theorem forwarded_write (hacc : ∀ p, (s.peers p).Accounted)
    : Forwarded c version (s.write peer bytes none) := by
  intro p
  refine ⟨accounted_write hacc p, ?_⟩
  rw [expected_write]
  exact written_write hdue hother

theorem exact_cut (n : Nat) (e : ProxyError) (hacc : ∀ p, (s.peers p).Accounted)
    : Exact c version (s.write peer bytes (some (n, e))) := by
  apply exact_failed (s.write peer bytes (some (n, e)))
  . exact accounted_write hacc
  . intro p
    rw [expected_write]
    exact flatten_write hdue hother p

theorem exact_act (hacc : ∀ p, (s.peers p).Accounted) (houtcome : s.outcome = none)
    (haction : action = .forward bytes
      ∨ (∃ random, action = .forwardAndReturn bytes (.switched random))
      ∨ (∃ e, action = .forwardAndReturn bytes (.failed e)))
    : Exact c version (s.act peer action cut) := by
  cases cut with
  | some cut =>
    have hexact := exact_cut hdue hother cut.fst cut.snd hacc
    rcases haction with rfl | ⟨random, rfl⟩ | ⟨e, rfl⟩
    . exact hexact
    . exact hexact
    . exact hexact
  | none =>
    have hforwarded := forwarded_write hdue hother hacc
    have hnone : (s.write peer bytes none).outcome = none := houtcome
    rcases haction with rfl | ⟨random, rfl⟩ | ⟨e, rfl⟩
    . exact exact_forwarded hforwarded (.inl hnone)
    . apply exact_forwarded hforwarded
      rw [hnone]
      exact .inr (.inl ⟨random, rfl⟩)
    . apply exact_forwarded hforwarded
      rw [hnone]
      exact .inr (.inr ⟨e, rfl⟩)

end

variable (s peer cut) in
theorem frame_act (action : Action)
    : (s.act peer action cut).sniffer = s.sniffer
        ∧ ∀ p, ((s.act peer action cut).peers p).records = (s.peers p).records
          ∧ ((s.act peer action cut).peers p).reading = (s.peers p).reading := by
  have hreading (bytes : Bytes) (p : Peer)
      : ((s.write peer bytes cut).peers p).reading = (s.peers p).reading := by
    rw [peers_write]
    split
    next heq => rw [heq]
    next => rfl
  have hwrite (bytes : Bytes) (p : Peer)
      : ((s.write peer bytes cut).peers p).records = (s.peers p).records
          ∧ ((s.write peer bytes cut).peers p).reading = (s.peers p).reading :=
    ⟨records_write, hreading bytes p⟩
  cases action with
  | forward bytes => exact ⟨sniffer_write, hwrite bytes⟩
  | forwardAndReturn bytes outcome => exact ⟨sniffer_write, hwrite bytes⟩
  | «return» outcome => exact ⟨rfl, fun p => ⟨rfl, rfl⟩⟩

structure Took (s s' : Relay) (peer : Peer) (r : Record) : Prop where
  accounted : ∀ p, (s'.peers p).Accounted
  waits : ∀ p, (s'.peers p).Waits
  records : (s'.peers peer).records = (s.peers peer).records ++ [r]
  recordsOther : (s'.peers peer.other).records = (s.peers peer.other).records
  written : ∀ p, (s'.peers p).written = (s.peers p).written
  sniffer : s'.sniffer = s.sniffer
  outcome : s'.outcome = s.outcome

theorem took_takeRecord (hacc : ∀ p, (s.peers p).Accounted) (hwaits : (s.peers peer.other).Waits)
    (hr : r.encode = (s.peers peer).reading) (hother : (s.peers peer.other).reading = [])
    : Took s (s.takeRecord peer r) peer r := by
  have hne := peer.other_ne
  have hself : (s.takeRecord peer r).peers peer
      = { s.peers peer with reading := [], records := (s.peers peer).records ++ [r] } := by
    simp only [Relay.takeRecord, peers_setPeer, hne.symm, if_false, if_true]
  have hrest : (s.takeRecord peer r).peers peer.other = s.peers peer.other := by
    simp only [Relay.takeRecord, peers_setPeer, hne, if_false, if_true]
    rw [← hother]
  refine ⟨?_, ?_, ?_, ?_, ?_, rfl, rfl⟩
  . apply Peer.forall_of_other (p := fun p => ((s.takeRecord peer r).peers p).Accounted) peer
    . rw [hself]
      exact (hacc peer).take hr
    . rw [hrest]
      exact hacc peer.other
  . apply Peer.forall_of_other (p := fun p => ((s.takeRecord peer r).peers p).Waits) peer
    . rw [hself]
      exact ⟨5, rfl⟩
    . rw [hrest]
      exact hwaits
  . rw [hself]
  . rw [hrest]
  . apply Peer.forall_of_other (p := fun p =>
      ((s.takeRecord peer r).peers p).written = (s.peers p).written) peer
    . rw [hself]
    . rw [hrest]

theorem Exact.forwarded (h : Exact c version s) (hnone : s.outcome = none)
    : Forwarded c version s := by
  unfold Exact at h
  rw [hnone] at h
  exact h

variable (c version) in
theorem onClientRecord_cases (s : Sniffer) (r : Record)
    : (onClientRecord c version s r = .forward r.encode
        ∨ (∃ random, onClientRecord c version s r = .forwardAndReturn r.encode (.switched random))
        ∨ (∃ e, onClientRecord c version s r = .forwardAndReturn r.encode (.failed e)))
      ∨ (∃ e, onClientRecord c version s r = .return (.failed e))
      ∨ (∃ random, onClientRecord c version s r = .return (.switchedAt random r.encode)) := by
  unfold onClientRecord
  cases version with
  | v2 =>
    dsimp only
    split
    . split
      . exact .inl (.inr (.inr ⟨_, rfl⟩))
      . exact .inl (.inr (.inl ⟨_, rfl⟩))
    . exact .inl (.inl rfl)
  | v3 psk =>
    dsimp only
    split
    . split
      . exact .inr (.inl ⟨_, rfl⟩)
      . split
        . exact .inr (.inr ⟨_, rfl⟩)
        . exact .inl (.inl rfl)
    . exact .inl (.inl rfl)

section

section

variable (hs : Forwarded c version s) (hnone : s.outcome = none)
include hs hnone

theorem exact_client (h : Took s s' .client r)
    : Exact c version (s'.onRecord c version .client r cut) := by
  have hdue : (s'.peers .backend).written ++ [r.encode] = expected c version s' .backend := by
    simp only [expected]
    rw [h.records, h.written, (hs .backend).right]
    simp [expected, encodeAll]
  have hother : (s'.peers .client).written = expected c version s' .client := by
    have hrecords := h.recordsOther
    simp only [Peer.other] at hrecords
    simp only [expected]
    rw [hrecords, h.written]
    exact (hs .client).right
  have hnone' : s'.outcome = none := h.outcome.trans hnone
  rcases onClientRecord_cases c version s'.sniffer r with haction | ⟨e, haction⟩ | ⟨random, haction⟩
  . exact exact_act hdue hother h.accounted hnone' haction
  . simp only [Relay.onRecord]
    rw [haction]
    apply exact_failed s' h.accounted
    apply Peer.forall_of_other (p := fun p =>
      (s'.peers p).written.flatten <+: (expected c version s' p).flatten) .client
    . exact hother ▸ prefix_rfl
    . simp only [Peer.other]
      rw [← hdue, flatten_append]
      apply prefix_append
  . simp only [Relay.onRecord]
    rw [haction]
    exact ⟨h.accounted, hdue, hother⟩

theorem exact_backend (htracks : TracksAll c version s.sniffer (s.peers .backend).records)
    (hlen : r.payload.length ≤ 16384 + 2048) (h : Took s s' .backend r)
    : Exact c version (s'.onRecord c version .backend r cut)
        ∧ TracksAll c version (onBackendRecord c version s'.sniffer r).fst
          (s'.peers .backend).records := by
  rw [← h.sniffer] at htracks
  rcases onBackendRecord_relayed hlen htracks
    with ⟨bytes, haction, hrelayed, htracks'⟩
  rw [← h.records] at hrelayed htracks'
  refine ⟨?_, htracks'⟩
  have hrecords := h.recordsOther
  simp only [Peer.other] at hrecords
  have hdue : (s'.peers .client).written ++ [bytes] = expected c version s' .client := by
    simp only [expected]
    rw [hrelayed, h.written, (hs .client).right]
    rfl
  have hother : (s'.peers .backend).written = expected c version s' .backend := by
    simp only [expected]
    rw [hrecords, h.written]
    exact (hs .backend).right
  exact exact_act (s := { s' with sniffer := (onBackendRecord c version s'.sniffer r).fst })
    hdue hother h.accounted (h.outcome.trans hnone) (.inl haction)

theorem inv_onRecord (htracks : TracksAll c version s.sniffer (s.peers .backend).records)
    (hlen : r.payload.length ≤ 16384 + 2048) (h : Took s s' peer r)
    : Inv c version (s'.onRecord c version peer r cut) := by
  cases peer with
  | client =>
    have hframe := frame_act s' .backend cut (onClientRecord c version s'.sniffer r)
    refine ⟨exact_client hs hnone h, ?_, ?_⟩
    . intro _ p
      unfold Endpoint.Waits
      simp only [Relay.onRecord]
      rw [(hframe.right p).right]
      exact h.waits p
    . have hrecords := h.recordsOther
      simp only [Peer.other] at hrecords
      simp only [Relay.onRecord]
      rw [hframe.left, (hframe.right .backend).left, h.sniffer, hrecords]
      exact htracks
  | backend =>
    have hframe := frame_act { s' with sniffer := (onBackendRecord c version s'.sniffer r).fst }
      .client cut (onBackendRecord c version s'.sniffer r).snd
    rcases exact_backend hs hnone htracks hlen h with ⟨hexact, htracks'⟩
    refine ⟨hexact, ?_, ?_⟩
    . intro _ p
      unfold Endpoint.Waits
      simp only [Relay.onRecord]
      rw [(hframe.right p).right]
      exact h.waits p
    . simp only [Relay.onRecord]
      rw [hframe.left, (hframe.right .backend).left]
      exact htracks'

end

end

theorem encode_read {n : Nat} (hcan : Relay.canRead p n = true)
    (hr : readTlsRecord (p.read n).reading = .record r)
    : r.encode = (p.read n).reading ∧ r.payload.length ≤ 16384 + 2048 := by
  apply encode_of_record hr
  unfold Relay.canRead at hcan
  split at hcan
  next k hmore =>
    simp only [Bool.and_eq_true, decide_eq_true_eq] at hcan
    apply length_of_record hmore _ hr
    rw [length_take]
    omega
  next => cases hcan

theorem exact_read (peer : Peer) (n : Nat) (h : Exact c version s)
    : Exact c version (s.setPeer peer (·.read n)) := by
  apply exact_setPeer h
  . rfl
  . rfl
  . exact prefix_rfl
  . exact fun hacc => hacc.read n

theorem inv_failed (h : Exact c version s) (hnone : s.outcome = none)
    (htracks : TracksAll c version s.sniffer (s.peers .backend).records)
    : Inv c version { s with outcome := some (.failed e) } where
  exact :=
    have hforwarded := h.forwarded hnone
    exact_failed s (fun p => (hforwarded p).left) hforwarded.isPrefix
  waits := fun hsome => by cases hsome
  tracks := htracks

/--
If the step completes a record of one peer, the pending read of the other one has nothing yet.
-/
def undisturbed (s : Relay) (e : Event) : Bool :=
  match e with
  | .read peer n _ =>
    match readTlsRecord ((s.peers peer).read n).reading with
    | .record _ => (s.peers peer.other).reading.isEmpty
    | _ => true
  | _ => true

theorem inv_read {n : Nat} (h : Inv c version s)
    (henabled : s.enabled (.read peer n cut) = true)
    (hundisturbed : undisturbed s (.read peer n cut) = true)
    : Inv c version (s.step c version (.read peer n cut)) := by
  simp only [Relay.enabled, Bool.and_eq_true, Option.isNone_iff_eq_none] at henabled
  rcases henabled with ⟨hnone, hcan⟩
  have hexact := exact_read peer n h.exact
  have htracks := tracks_setPeer peer (f := (·.read n)) rfl h.tracks
  have hnone' : (s.setPeer peer (·.read n)).outcome = none := hnone
  simp only [undisturbed] at hundisturbed
  simp only [Relay.step]
  split
  next k hmore =>
    refine ⟨hexact, ?_, htracks⟩
    intro _
    exact forall_setPeer (p := fun _ e => e.Waits) ⟨k, hmore⟩ (h.waits hnone)
  next => exact inv_failed hexact hnone' htracks
  next r hr =>
    rw [hr] at hundisturbed
    rcases encode_read hcan hr with ⟨hencode, hlen⟩
    have hforwarded := hexact.forwarded hnone'
    apply inv_onRecord hforwarded hnone' htracks hlen
    apply took_takeRecord
    . exact fun p => (hforwarded p).left
    . rw [peers_setPeer_other peer.other_ne]
      exact h.waits hnone _
    . rw [peers_setPeer, if_pos rfl]
      exact hencode
    . rw [peers_setPeer_other peer.other_ne]
      simpa using hundisturbed

theorem inv_step (h : Inv c version s) (henabled : s.enabled e = true)
    (hundisturbed : undisturbed s e = true)
    : Inv c version (s.step c version e) := by
  cases e with
  | arrive peer bytes => exact inv_arrive h
  | read peer n cut => exact inv_read h henabled hundisturbed
  | failed e =>
    have hnone : s.outcome = none := by simpa [Relay.enabled] using henabled
    exact inv_failed h.exact hnone h.tracks

namespace Endpoint

def held (p : Endpoint) : Nat :=
  (encodeAll p.records).flatten.length + p.reading.length + p.unread.length

def Loses (k : Nat) (p q : Endpoint) : Prop :=
  q.held + p.sent.length + k ≤ p.held + q.sent.length

theorem loses_refl (p : Endpoint) : Loses 0 p p := by
  unfold Loses
  omega

theorem Loses.trans {p q r : Endpoint} (h : Loses j p q) (h' : Loses k q r)
    : Loses (j + k) p r := by
  unfold Loses at *
  omega

theorem Loses.mono (h : Loses k p q) (hle : j ≤ k) : Loses j p q := by
  unfold Loses at *
  omega

theorem loses_read (p : Endpoint) (n : Nat) : Loses 0 p (p.read n) := by
  have hsplit := congrArg List.length (take_append_drop n p.unread)
  rw [length_append] at hsplit
  simp only [Loses, held, read, length_append]
  omega

theorem Accounted.held_eq (h : p.Accounted) : p.held = p.sent.length := by
  rw [← h]
  simp only [held, length_append]

end Endpoint

theorem loses_write {p : Peer}
    : Endpoint.Loses 0 (s.peers p) ((s.write peer bytes cut).peers p) := by
  rw [peers_write]
  split
  next heq =>
    rw [heq]
    exact Endpoint.loses_refl (s.peers peer)
  next => apply Endpoint.loses_refl

theorem loses_act {p : Peer}
    : Endpoint.Loses 0 (s.peers p) ((s.act peer action cut).peers p) := by
  cases action with
  | forward bytes => exact loses_write
  | forwardAndReturn bytes outcome => exact loses_write
  | «return» outcome => apply Endpoint.loses_refl

variable (c version s peer r cut) in
theorem loses_onRecord (p : Peer)
    : Endpoint.Loses 0 (s.peers p) ((s.onRecord c version peer r cut).peers p) := by
  cases peer with
  | client => exact loses_act
  | backend => exact loses_act (s := { s with sniffer := _ })

theorem loses_takeRecord (hr : r.encode = (s.peers peer).reading)
    : Endpoint.Loses 0 (s.peers peer) ((s.takeRecord peer r).peers peer)
        ∧ Endpoint.Loses (s.peers peer.other).reading.length (s.peers peer.other)
          ((s.takeRecord peer r).peers peer.other) := by
  have hne := peer.other_ne
  have hlength := congrArg List.length hr
  simp only [Relay.takeRecord, peers_setPeer, hne, hne.symm, if_false, if_true, Endpoint.Loses,
    Endpoint.held, encodeAll, map_append, map_cons, map_nil, flatten_append,
    flatten_singleton, length_append, length_nil]
  omega

variable (c version) in
theorem loses_step {e : Event} (henabled : s.enabled e = true)
    : (∀ p, Endpoint.Loses 0 (s.peers p) ((s.step c version e).peers p))
        ∧ (undisturbed s e = false →
          ∃ p, Endpoint.Loses 1 (s.peers p) ((s.step c version e).peers p)) := by
  cases e with
  | arrive peer bytes =>
    refine ⟨?_, fun h => by cases h⟩
    simp only [Relay.step]
    apply forall_setPeer (p := fun p e => Endpoint.Loses 0 (s.peers p) e)
    . simp only [Endpoint.Loses, Endpoint.held, length_append]
      omega
    . exact fun p => Endpoint.loses_refl (s.peers p)
  | failed e => exact ⟨fun p => Endpoint.loses_refl (s.peers p), fun h => by cases h⟩
  | read peer n cut =>
    have hself : (s.setPeer peer (·.read n)).peers peer = (s.peers peer).read n := by
      rw [peers_setPeer, if_pos rfl]
    have hread :=
      forall_setPeer (p := fun p e => Endpoint.Loses 0 (s.peers p) e) (f := (·.read n))
        (Endpoint.loses_read (s.peers peer) n) fun p => Endpoint.loses_refl (s.peers p)
    simp only [undisturbed, Relay.step]
    cases hr : readTlsRecord ((s.peers peer).read n).reading with
    | more k => exact ⟨hread, fun h => by cases h⟩
    | tooLarge length => exact ⟨hread, fun h => by cases h⟩
    | record r =>
      simp only [Relay.enabled, Bool.and_eq_true] at henabled
      rcases encode_read henabled.right hr with ⟨hencode, _⟩
      rw [← hself] at hencode
      rcases loses_takeRecord hencode with ⟨htake, hdrop⟩
      have hafter (p : Peer) :=
        loses_onRecord c version ((s.setPeer peer (·.read n)).takeRecord peer r) peer cut r p
      have hlost := ((hread peer.other).trans hdrop).trans (hafter peer.other)
      rw [peers_setPeer_other peer.other_ne] at hlost
      refine ⟨?_, ?_⟩
      . apply Peer.forall_of_other (p := fun p => Endpoint.Loses 0 (s.peers p)
          ((((s.setPeer peer (·.read n)).takeRecord peer r).onRecord c version peer r cut).peers p))
          peer
        . exact ((hread peer).trans htake).trans (hafter peer)
        . exact hlost.mono (by omega)
      . intro hdisturbed
        have hpos : 0 < (s.peers peer.other).reading.length := by
          rw [length_pos_iff]
          simpa using hdisturbed
        exact ⟨peer.other, hlost.mono (by omega)⟩

theorem loses_run (hes : Allowed (Relay.step c version) (fun s e => s.enabled e) s es)
    : (∀ p, Endpoint.Loses 0 (s.peers p) ((es.foldl (Relay.step c version) s).peers p))
        ∧ (¬Allowed (Relay.step c version) (fun s e => undisturbed s e) s es →
          ∃ p, Endpoint.Loses 1 (s.peers p) ((es.foldl (Relay.step c version) s).peers p)) := by
  induction es generalizing s with
  | nil => exact ⟨fun p => Endpoint.loses_refl (s.peers p), fun h => absurd trivial h⟩
  | cons e es ih =>
    rcases loses_step c version hes.left with ⟨hstep, hstep'⟩
    rcases ih hes.right with ⟨hrun, hrun'⟩
    refine ⟨fun p => (hstep p).trans (hrun p), ?_⟩
    intro hnot
    by_cases hund : undisturbed s e = true
    . rcases hrun' (fun h => hnot ⟨hund, h⟩) with ⟨p, hp⟩
      exact ⟨p, (hstep p).trans hp⟩
    . rcases hstep' (by simpa using hund) with ⟨p, hp⟩
      exact ⟨p, hp.trans (hrun p)⟩

theorem inv_run (hs : Inv c version s)
    (hes : Allowed (Relay.step c version) (fun s e => s.enabled e) s es)
    (hund : Allowed (Relay.step c version) (fun s e => undisturbed s e) s es)
    : Inv c version (es.foldl (Relay.step c version) s) := by
  induction es generalizing s with
  | nil => exact hs
  | cons e es ih =>
    apply ih
    . exact inv_step hs hes.left hund.left
    . exact hes.right
    . exact hund.right

theorem Exact.accounted (h : Exact c version s) (hok : ∀ e, s.outcome ≠ some (.failed e))
    (p : Peer)
    : (s.peers p).Accounted := by
  unfold Exact at h
  split at h
  . exact (h p).left
  . exact (h p).left
  . exact h.left p
  next e he => exact absurd he (hok e)

theorem relay_forwards_records (c : Crypto) (version : Version) (es : List Event)
    (hes : Allowed (Relay.step c version) (fun s e => s.enabled e) .new es)
    : let s := es.foldl (Relay.step c version) .new
      let calm := Allowed (Relay.step c version) (fun s e => undisturbed s e) .new es
      (calm → Exact c version s)
        ∧ ((∀ e, s.outcome ≠ some (.failed e)) → (Exact c version s ↔ calm)) := by
  intro s calm
  have hcalm (h : calm) : Exact c version s :=
    (inv_run inv_new hes h).exact
  refine ⟨hcalm, fun hok => ⟨?_, hcalm⟩⟩
  intro hexact
  by_contra hnot
  rcases (loses_run hes).right hnot with ⟨p, hp⟩
  have hp : Endpoint.Loses 1 (Relay.new.peers p) (s.peers p) := hp
  have heq := (hexact.accounted hok p).held_eq
  have hnew : (Relay.new.peers p).held = 0 := rfl
  unfold Endpoint.Loses at hp
  omega

def identityCrypto : Crypto := ⟨fun _ data => data, fun data => data⟩

def segmentedHello : List Event :=
  [.arrive .client [22, 3, 1], .read .client 3 none, .arrive .client [0, 2, 1, 0],
    .read .client 2 none, .read .client 2 none, .arrive .backend [22, 3, 3, 0, 1, 2],
    .read .backend 5 none, .read .backend 1 none]

theorem relay_forwards_records_segmented
    : ((segmentedHello.foldl (Relay.step identityCrypto .v2) .new).peers .backend).written
          = [[22, 3, 1, 0, 2, 1, 0]]
        ∧ Exact identityCrypto .v2 (segmentedHello.foldl (Relay.step identityCrypto .v2) .new) :=
  ⟨by decide,
    (relay_forwards_records identityCrypto .v2 segmentedHello (by decide)).left (by decide)⟩

def interruptedHello : List Event :=
  [.arrive .client [22, 3, 1, 0, 5], .read .client 5 none, .arrive .backend [22, 3, 3, 0, 1, 2],
    .read .backend 5 none, .read .backend 1 none, .arrive .client [0, 0, 0, 0, 0],
    .read .client 5 none]

theorem relay_loses_header
    : let s := interruptedHello.foldl (Relay.step identityCrypto .v2) .new
      Allowed (Relay.step identityCrypto .v2) (fun s e => s.enabled e) .new interruptedHello
        ∧ s.outcome = none
        ∧ (s.peers .client).sent = [22, 3, 1, 0, 5, 0, 0, 0, 0, 0]
        ∧ (s.peers .backend).written = [[0, 0, 0, 0, 0]]
        ∧ ¬Exact identityCrypto .v2 s := by
  intro s
  refine ⟨by decide, by decide, by decide, by decide, ?_⟩
  intro h
  have hacc : (s.peers .client).Accounted := (h .client).left
  unfold Endpoint.Accounted at hacc
  revert hacc
  decide

end Blackwire.ShadowTls
