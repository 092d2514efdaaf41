import Blackwire.Lib.Table
import Blackwire.Common.Reading
import Blackwire.Transport.SplitHttp.PacketUp
import Blackwire.Lib.Machine
import Blackwire.Lib.Pool

/-!
This module contains the sessions of the packet-up mode of SplitHTTP: the requests of HTTP/1.1 and
HTTP/2 connections, each with the steps in which it uses the map of the sessions and a queue, and
which requests and pushes the two `expect`s rely on.
-/

namespace Blackwire.PacketUp

def maxPacketUpH2SessionsPerConn : Nat := 64
def maxPacketUpTotalSessions : Nat := 4096

-- The panics of `take_reader`: in its `expect`, and in the `unwrap` of a mutex that this poisoned.
inductive Panic where
  | readerTaken
  | poisoned
deriving DecidableEq

inductive Stage where
  | lookup
  | missed
  | entering
  | found (queue : Nat)
  | taking (queue : Nat)
  | tunnel (queue : Nat)
  | cleaned (queue : Nat)
  | locked (queue : Nat)
  | waking (queue : Nat)
  | done
  | refused (status : Nat)
  | failed (e : ProxyError)
  | panicked (p : Panic)
deriving DecidableEq

structure Request where
  conn : Option Nat
  session : String
  packet : Option UploadPacket
  stage : Stage

def Stage.handled : Stage → Bool
  | tunnel _ | cleaned _ | done | refused _ => true
  | _ => false

def Reader.inCall : Reader → Bool
  | trying _ | locking _ | receiving _ => true
  | _ => false

def Event.reads : Event → Bool
  | poll _ | tryLock | readLocked | pollRecv => true
  | _ => false

def Reader.isAbsent : Reader → Bool
  | absent => true
  | _ => false

structure Server where
  sessions : Table String Nat
  len : Nat
  queues : Nat → UploadQueue
  madeFor : Nat → String
  allocated : Nat
  poisoned : List Nat
  downloadSessions : Nat → List String
  requests : List Request

inductive ServerEvent where
  | get (conn : Option Nat) (session : String)
  | post (conn : Option Nat) (session : String) (packet : UploadPacket)
  | advance (i : Nat)
  | answer (i : Nat) (e : Option ProxyError)
  | dropBody (i : Nat) (status : Nat) (e : ProxyError)
  | read (i : Nat) (e : Event)
  | cleanup (i : Nat)

namespace Server

def new : Server where
  sessions := Table.empty
  len := 0
  queues := fun _ => .new 64
  madeFor := fun _ => ""
  allocated := 0
  poisoned := []
  downloadSessions := fun _ => []
  requests := []

variable (s : Server)

def start (r : Request) : Server :=
  { s with requests := s.requests ++ [r] }

section

variable (i : Nat) (r : Request)

def setStage (stage : Stage) : Server :=
  { s with requests := s.requests.set i { r with stage := stage } }

def stepQueue (queue : Nat) (e : Event) : Server :=
  { s with queues := fun q => if q = queue then (s.queues queue).step e else s.queues q }

def setDownloadSessions (conn : Nat) (sessions : List String) : Server :=
  { s with downloadSessions := fun c => if c = conn then sessions else s.downloadSessions c }

def get (conn : Option Nat) (session : String) : Server :=
  match conn with
  | none =>
    if session = "" then
      s.start ⟨none, session, none,
        .failed (.protocol "packet-up GET requires session id in path")⟩
    else
      s.start ⟨none, session, none, .lookup⟩
  | some c =>
    if session = "" then
      s.start ⟨conn, session, none, .refused 400⟩
    else if (s.downloadSessions c).length ≥ maxPacketUpH2SessionsPerConn then
      s.start ⟨conn, session, none, .refused 429⟩
    else if session ∈ s.downloadSessions c then
      s.start ⟨conn, session, none, .refused 409⟩
    else
      (s.setDownloadSessions c (session :: s.downloadSessions c)).start
        ⟨conn, session, none, .lookup⟩

def post (conn : Option Nat) (session : String) (packet : UploadPacket) : Server :=
  if session = "" then
    match conn with
    | none =>
      s.start ⟨none, session, some packet,
        .failed (.protocol "packet-up POST requires session id in path")⟩
    | some _ => s.start ⟨conn, session, some packet, .refused 400⟩
  else
    s.start ⟨conn, session, some packet, .lookup⟩

def lookup : Server :=
  match s.sessions r.session with
  | some queue => s.setStage i r (.found queue)
  | none => s.setStage i r .missed

def limitReached : Server :=
  match r.conn with
  | none => s.setStage i r (.failed (.protocol "packet-up session limit reached"))
  | some c =>
    let s := s.setStage i r (.refused 503)
    match r.packet with
    | none => s.setDownloadSessions c ((s.downloadSessions c).erase r.session)
    | some _ => s

-- `entry(session_id).or_insert_with(|| UploadQueue::new(64))`
def orInsert : Server :=
  match s.sessions r.session with
  | some queue => s.setStage i r (.found queue)
  | none =>
    { s with
      sessions := s.sessions.insert r.session s.allocated
      len := s.len + 1
      queues := fun q => if q = s.allocated then .new 64 else s.queues q
      madeFor := fun q => if q = s.allocated then r.session else s.madeFor q
      allocated := s.allocated + 1 }.setStage i r (.found s.allocated)

def takeReader (s : Server) (i : Nat) (r : Request) (queue : Nat) : Server :=
  if queue ∈ s.poisoned then
    s.setStage i r (.panicked .poisoned)
  else if (s.queues queue).reader.isAbsent then
    (s.stepQueue queue .takeReader).setStage i r (.tunnel queue)
  else
    { s with poisoned := queue :: s.poisoned }.setStage i r (.panicked .readerTaken)

def push (s : Server) (i : Nat) (r : Request) (queue : Nat) (packet : UploadPacket) : Server :=
  let pushed := s.stepQueue queue .push
  match ((s.queues queue).state.push packet).snd with
  | .ok () => pushed.setStage i r (.waking queue)
  | .error e =>
    match r.conn with
    | none =>
      pushed.setStage i r (.failed (.protocol ("packet-up push: " ++ e.message.getD "")))
    | some _ => pushed.setStage i r (.refused 503)

def advance : Server :=
  match r.stage, r.packet with
  | .lookup, _ => s.lookup i r
  | .missed, _ =>
    if s.len ≥ maxPacketUpTotalSessions then
      s.limitReached i r
    else
      s.setStage i r .entering
  | .entering, _ => s.orInsert i r
  | .taking queue, none => s.takeReader i r queue
  | .found queue, some packet => (s.stepQueue queue (.lock packet)).setStage i r (.locked queue)
  | .locked queue, some packet => s.push i r queue packet
  | .waking queue, _ => (s.stepQueue queue .bumpWake).setStage i r .done
  | _, _ => s

def answer (e : Option ProxyError) : Server :=
  match r.stage, e with
  | .found queue, none => s.setStage i r (.taking queue)
  | .found _, some e => s.setStage i r (.failed e)
  | _, _ => s

def dropBody (status : Nat) (e : ProxyError) : Server :=
  match r.conn with
  | none => s.setStage i r (.failed e)
  | some _ => s.setStage i r (.refused status)

def removePacketUpSession (session : String) : Server :=
  { s with
    sessions := s.sessions.erase session
    len := if (s.sessions session).isSome then s.len - 1 else s.len }

def cleanup : Server :=
  match r.stage, r.conn with
  | .tunnel _, none => (s.removePacketUpSession r.session).setStage i r .done
  | .tunnel queue, some _ =>
    (s.removePacketUpSession r.session).setStage i r (.cleaned queue)
  | _, _ => s

end

def read (r : Request) (e : Event) : Server :=
  match r.stage with
  | .tunnel queue | .cleaned queue => s.stepQueue queue e
  | _ => s

def step (e : ServerEvent) : Server :=
  let onRequest (i : Nat) (f : Request → Server) : Server := (s.requests[i]?.map f).getD s
  match e with
  | .get conn session => s.get conn session
  | .post conn session packet => s.post conn session packet
  | .advance i => onRequest i (s.advance i)
  | .answer i e => onRequest i (s.answer i · e)
  | .dropBody i status e => onRequest i (s.dropBody i · status e)
  | .read i e => onRequest i (s.read · e)
  | .cleanup i => onRequest i (s.cleanup i)

-- A connection of HTTP/2 handles its requests one after the other.
def connFree (conn : Option Nat) : Bool :=
  conn.isNone || s.requests.all fun r => r.conn ≠ conn || r.stage.handled

def canAdvance (r : Request) : Bool :=
  match r.stage, r.packet with
  | .lookup, _ | .missed, _ | .entering, _ | .taking _, none | .waking _, _ => true
  | .found queue, some _ => (s.queues queue).lock.isNone
  | .locked _, some _ => true
  | _, _ => false

def canRead (r : Request) (e : Event) : Bool :=
  match r.stage with
  | .tunnel queue | .cleaned queue => e.reads && (s.queues queue).enabled e
  | _ => false

def canCleanup (r : Request) : Bool :=
  match r.stage with
  | .tunnel queue => r.conn.isSome || !(s.queues queue).reader.inCall
  | _ => false

def isFound (r : Request) (post : Bool) : Bool :=
  match r.stage with
  | .found _ => r.packet.isSome = post
  | _ => false

def enabled (e : ServerEvent) : Bool :=
  match e with
  | .get conn _ => s.connFree conn
  | .post conn _ _ => s.connFree conn
  | .advance i => s.requests[i]?.any s.canAdvance
  | .answer i _ => s.requests[i]?.any (isFound · false)
  | .dropBody i _ _ => s.requests[i]?.any (isFound · true)
  | .read i e => s.requests[i]?.any (s.canRead · e)
  | .cleanup i => s.requests[i]?.any s.canCleanup

end Server

open Machine List

def Reader.isLocking : Reader → Bool
  | locking _ => true
  | _ => false

def Reader.isPanicked : Reader → Bool
  | panicked => true
  | _ => false

namespace UploadQueue

structure Sound (q : UploadQueue) : Prop where
  calm : q.reader.isPanicked = false
  free : q.reader.isLocking = true → q.lock = none

theorem sound_new : (UploadQueue.new maxBuffered).Sound :=
  ⟨rfl, fun h => by cases h⟩

variable {q : UploadQueue}

theorem reader_push : q.push.reader = q.reader := by
  unfold UploadQueue.push
  split
  . rfl
  . dsimp only
    split <;> rfl

theorem readLocked_reader
    : (∃ result, (q.readLocked room).reader = .ready result)
      ∨ (q.readLocked room).reader = .receiving room := by
  unfold UploadQueue.readLocked
  dsimp only
  split
  . split
    . exact Or.inl ⟨_, rfl⟩
    . exact Or.inl ⟨_, rfl⟩
  . split
    . exact Or.inl ⟨_, rfl⟩
    . split
      . exact Or.inl ⟨_, rfl⟩
      . exact Or.inr rfl

theorem sound_of_reader (hcalm : q.reader.isPanicked = false)
    (hlocking : q.reader.isLocking = false)
    : q.Sound := by
  refine ⟨hcalm, ?_⟩
  intro h
  rw [hlocking] at h
  cases h

theorem sound_readLocked : (q.readLocked room).Sound := by
  rcases q.readLocked_reader with ⟨result, h⟩ | h
  . apply sound_of_reader <;> rw [h] <;> rfl
  . apply sound_of_reader <;> rw [h] <;> rfl

theorem sound_push (h : q.Sound) : q.push.Sound := by
  refine ⟨?_, ?_⟩
  . rw [reader_push]
    exact h.calm
  . intro hlocking
    rw [reader_push] at hlocking
    unfold UploadQueue.push
    split
    . exact h.free hlocking
    . dsimp only
      split <;> rfl

theorem trying_of_enabled (h : q.enabled .tryLock = true)
    : ∃ room, q.reader = .trying room := by
  cases hreader : q.reader <;> simp [enabled, hreader] at h ⊢

theorem locking_of_enabled (h : q.enabled .readLocked = true)
    : ∃ room, q.reader = .locking room := by
  cases hreader : q.reader <;> simp [enabled, hreader] at h ⊢

theorem receiving_of_enabled (h : q.enabled .pollRecv = true)
    : ∃ room, q.reader = .receiving room := by
  cases hreader : q.reader <;> simp [enabled, hreader] at h ⊢

theorem sound_read (h : q.Sound) (he : q.enabled e = true) (hreads : e.reads = true)
    : (q.step e).Sound := by
  cases e with
  | lock packet => cases hreads
  | push => cases hreads
  | bumpWake => cases hreads
  | takeReader => cases hreads
  | poll room =>
    simp only [step]
    split
    . apply sound_of_reader <;> rfl
    . apply sound_of_reader <;> rfl
  | tryLock =>
    rcases q.trying_of_enabled he with ⟨room, hreader⟩
    simp only [step, hreader]
    split
    . next hnone => exact ⟨rfl, fun _ => by simpa using hnone⟩
    . apply sound_of_reader <;> rfl
  | readLocked =>
    rcases q.locking_of_enabled he with ⟨room, hreader⟩
    have hnone := h.free (by rw [hreader]; rfl)
    simp only [step, hreader, hnone]
    exact q.sound_readLocked
  | pollRecv =>
    rcases q.receiving_of_enabled he with ⟨room, hreader⟩
    simp only [step, hreader]
    split
    . apply sound_of_reader <;> rfl
    . apply sound_of_reader <;> rfl

theorem isAbsent_read (he : q.enabled e = true) (hreads : e.reads = true)
    : (q.step e).reader.isAbsent = q.reader.isAbsent := by
  cases e with
  | lock packet => cases hreads
  | push => cases hreads
  | bumpWake => cases hreads
  | takeReader => cases hreads
  | poll room =>
    have hpresent : q.reader.isAbsent = false := by
      cases hreader : q.reader <;> simp [enabled, hreader, Reader.isAbsent] at he ⊢
    rw [hpresent]
    simp only [step]
    split <;> rfl
  | tryLock =>
    rcases q.trying_of_enabled he with ⟨room, hreader⟩
    simp only [step, hreader]
    split <;> rfl
  | readLocked =>
    rcases q.locking_of_enabled he with ⟨room, hreader⟩
    simp only [step, hreader]
    split
    . rcases q.readLocked_reader with ⟨result, h⟩ | h
      . rw [h]
        rfl
      . rw [h]
        rfl
    . rfl
  | pollRecv =>
    rcases q.receiving_of_enabled he with ⟨room, hreader⟩
    simp only [step, hreader]
    split <;> rfl

end UploadQueue

def Stage.queue : Stage → Option Nat
  | found queue | taking queue | tunnel queue => some queue
  | _ => none

def Stage.underWay : Stage → Bool
  | missed | entering | found _ | taking _ | tunnel _ => true
  | _ => false

def Request.claims (session : String) (r : Request) : Bool :=
  r.packet.isNone && decide (r.session = session) && r.stage.underWay

theorem Request.claims_iff {session : String} {r : Request}
    : r.claims session = true
      ↔ r.packet = none ∧ r.session = session ∧ r.stage.underWay = true := by
  simp [claims, and_assoc]

namespace Server

/--
When a GET looks for its session, no other GET for the session is under way. No push takes the lock
between the two attempts of the reader.
-/
def apart (s : Server) (e : ServerEvent) : Bool :=
  match e with
  | .advance i =>
    s.requests[i]?.all fun r =>
      match r.stage, r.packet with
      | .lookup, none => s.requests.all fun r' => !r'.claims r.session
      | .found queue, some _ => !(s.queues queue).reader.isLocking
      | _, _ => true
  | _ => true

structure Inv (s : Server) : Prop where
  sound : ∀ queue, (s.queues queue).Sound
  calm : ∀ r ∈ s.requests, ∀ p, r.stage ≠ .panicked p
  unpoisoned : s.poisoned = []
  single : ∀ session, s.requests.countP (·.claims session) ≤ 1
  listed : ∀ session queue, s.sessions session = some queue →
    queue < s.allocated ∧ s.madeFor queue = session
  owned : ∀ r ∈ s.requests, ∀ queue, r.stage.queue = some queue →
    queue < s.allocated ∧ s.madeFor queue = r.session
  untaken : ∀ r ∈ s.requests, r.packet = none → ∀ queue,
    r.stage = .found queue ∨ r.stage = .taking queue →
    (s.queues queue).reader.isAbsent = true
  taken : ∀ session queue, s.sessions session = some queue →
    (s.queues queue).reader.isAbsent = false →
    ∃ r ∈ s.requests, r.packet = none ∧ r.session = session ∧ r.stage = .tunnel queue

theorem inv_new : new.Inv where
  sound := fun _ => UploadQueue.sound_new
  calm := by simp [new]
  unpoisoned := rfl
  single := by simp [new]
  listed := by simp [new, Table.empty]
  owned := by simp [new]
  untaken := by simp [new]
  taken := by simp [new, Table.empty]

variable {s : Server}

section

variable (h : s.Inv)
include h

theorem Inv.setDownloadSessions {sessions : List String}
    : (s.setDownloadSessions conn sessions).Inv :=
  ⟨h.sound, h.calm, h.unpoisoned, h.single, h.listed, h.owned, h.untaken, h.taken⟩

theorem Inv.start (hcalm : ∀ p, r.stage ≠ .panicked p)
    (hunderWay : r.stage.underWay = false) (hqueue : r.stage.queue = none)
    : (s.start r).Inv where
  sound := h.sound
  calm := Pool.forall_mem_concat r h.calm hcalm
  unpoisoned := h.unpoisoned
  single := by
    intro session
    have hclaims : r.claims session = false := by simp [Request.claims, hunderWay]
    simp only [Server.start]
    rw [Pool.countP_concat, hclaims]
    exact h.single session
  listed := h.listed
  owned := by
    apply Pool.forall_mem_concat r h.owned
    intro queue hq
    rw [hqueue] at hq
    cases hq
  untaken := by
    apply Pool.forall_mem_concat r h.untaken
    intro _ queue hstage
    rcases hstage with hstage | hstage <;> simp [hstage, Stage.queue] at hqueue
  taken := by
    intro session queue hentry habsent
    rcases h.taken session queue hentry habsent with ⟨r', hr', htunnel⟩
    exact ⟨r', mem_append_left _ hr', htunnel⟩

theorem inv_get : (s.get conn session).Inv := by
  unfold get
  split
  . split
    . apply h.start <;> simp [Stage.underWay, Stage.queue]
    . apply h.start <;> simp [Stage.underWay, Stage.queue]
  . split
    . apply h.start <;> simp [Stage.underWay, Stage.queue]
    split
    . apply h.start <;> simp [Stage.underWay, Stage.queue]
    . split
      . apply h.start <;> simp [Stage.underWay, Stage.queue]
      . apply h.setDownloadSessions.start <;> simp [Stage.underWay, Stage.queue]

theorem inv_post
    : (s.post conn session packet).Inv := by
  unfold post
  split
  . split
    . apply h.start <;> simp [Stage.underWay, Stage.queue]
    . apply h.start <;> simp [Stage.underWay, Stage.queue]
  . apply h.start <;> simp [Stage.underWay, Stage.queue]

theorem Inv.stepQueue (e : Event) (hsound : ((s.queues queue).step e).Sound)
    (habsent : ((s.queues queue).step e).reader.isAbsent = (s.queues queue).reader.isAbsent)
    : (s.stepQueue queue e).Inv := by
  have hall (q : Nat) : ((s.stepQueue queue e).queues q).reader.isAbsent
      = (s.queues q).reader.isAbsent := by
    simp only [Server.stepQueue]
    split
    . next hq =>
      rw [hq]
      exact habsent
    . rfl
  refine ⟨?_, h.calm, h.unpoisoned, h.single, h.listed, h.owned, ?_, ?_⟩
  . intro q
    simp only [Server.stepQueue]
    split
    . exact hsound
    . exact h.sound q
  . intro r hr hpacket q hstage
    rw [hall]
    exact h.untaken r hr hpacket q hstage
  . intro session q hentry hpresent
    rw [hall] at hpresent
    exact h.taken session q hentry hpresent

theorem Inv.setStage {i : Nat} {r : Request} (hr : s.requests[i]? = some r)
    (htunnel : ∀ queue, r.stage = .tunnel queue → s.sessions r.session = none)
    (hcalm : ∀ p, stage ≠ .panicked p) (hclaims : r.packet = none → stage.underWay = true →
      r.stage.underWay = true ∨ ∀ r' ∈ s.requests, r'.claims r.session = false)
    (hqueue : ∀ queue, stage.queue = some queue →
      queue < s.allocated ∧ s.madeFor queue = r.session)
    (huntaken : r.packet = none → ∀ queue, stage = .found queue ∨ stage = .taking queue →
      (s.queues queue).reader.isAbsent = true)
    : (s.setStage i r stage).Inv where
  sound := h.sound
  calm := Pool.forall_mem_set s.requests i _ h.calm hcalm
  unpoisoned := h.unpoisoned
  single := by
    intro session
    have hsum := Pool.countP_set_add (q := (·.claims session)) s.requests i r
      { r with stage := stage } hr
    have hsingle := h.single session
    simp only [Server.setStage]
    cases hnew : ({ r with stage := stage } : Request).claims session with
    | false =>
      rw [hnew] at hsum
      simp only [Bool.toNat_false] at hsum
      omega
    | true =>
      rcases Request.claims_iff.mp hnew with ⟨hpacket, hsession, hstage⟩
      rcases hclaims hpacket hstage with hold | hnone
      . have hold : r.claims session = true :=
          Request.claims_iff.mpr ⟨hpacket, hsession, hold⟩
        rw [hnew, hold] at hsum
        omega
      . have hzero : s.requests.countP (·.claims session) = 0 := by
          rw [countP_eq_zero, ← hsession]
          simpa using hnone
        rw [hnew, hzero] at hsum
        simp only [Bool.toNat_true] at hsum
        omega
  listed := h.listed
  owned := Pool.forall_mem_set s.requests i _ h.owned hqueue
  untaken := Pool.forall_mem_set s.requests i _ h.untaken huntaken
  taken := by
    intro session queue hentry hpresent
    rcases h.taken session queue hentry hpresent with ⟨r', hr', hpacket, hsession, hstage⟩
    refine ⟨r', ?_, hpacket, hsession, hstage⟩
    apply Pool.mem_set_of_ne i r _ r' hr hr'
    intro heq
    rw [heq] at hsession hstage
    have hnone := htunnel queue hstage
    rw [hsession] at hnone
    cases hnone.symm.trans hentry

theorem Inv.setStage_end (hr : s.requests[i]? = some r)
    (htunnel : ∀ queue, r.stage = .tunnel queue → s.sessions r.session = none)
    (hcalm : ∀ p, stage ≠ .panicked p) (hunderWay : stage.underWay = false)
    : (s.setStage i r stage).Inv := by
  apply h.setStage hr htunnel hcalm
  . intro _ hstage
    rw [hunderWay] at hstage
    cases hstage
  . intro queue hqueue
    cases stage <;> simp [Stage.queue, Stage.underWay] at hqueue hunderWay
  . intro _ queue hstage
    rcases hstage with hstage | hstage <;> simp [hstage, Stage.underWay] at hunderWay

theorem Inv.isAbsent_of_entry {queue : Nat} (hentry : s.sessions session = some queue)
    (hclaims : ∀ r ∈ s.requests, r.claims session = true → r.stage ≠ .tunnel queue)
    : (s.queues queue).reader.isAbsent = true := by
  rw [← Bool.not_eq_false]
  intro hpresent
  rcases h.taken session queue hentry hpresent with ⟨r, hr, hpacket, hsession, hstage⟩
  refine hclaims r hr ?_ hstage
  rw [Request.claims_iff, hstage]
  exact ⟨hpacket, hsession, rfl⟩

theorem Inv.found {r : Request} (hr : s.requests[i]? = some r)
    (htunnel : ∀ queue, r.stage ≠ .tunnel queue) (hentry : s.sessions r.session = some queue)
    (hclaims : r.packet = none →
      r.stage.underWay = true ∨ ∀ r' ∈ s.requests, r'.claims r.session = false)
    : (s.setStage i r (.found queue)).Inv := by
  apply h.setStage hr (fun q hq => absurd hq (htunnel q))
  . intro p hp
    cases hp
  . intro hpacket _
    exact hclaims hpacket
  . intro q hq
    cases hq
    exact h.listed r.session queue hentry
  . intro hpacket q hq
    rw [or_iff_left (by simp)] at hq
    cases hq
    apply h.isAbsent_of_entry hentry
    intro r' hr' hr'claims
    rcases hclaims hpacket with hunderWay | hnone
    . have hrclaims : r.claims r.session = true :=
        Request.claims_iff.mpr ⟨hpacket, rfl, hunderWay⟩
      rw [Pool.eq_of_countP_le_one r (h.single r.session) hr'
        (mem_of_getElem? hr) hr'claims hrclaims]
      exact htunnel queue
    . rw [hnone r' hr'] at hr'claims
      cases hr'claims

theorem Inv.allocate
    : Inv { s with
        sessions := s.sessions.insert session s.allocated
        len := s.len + 1
        queues := fun q => if q = s.allocated then .new 64 else s.queues q
        madeFor := fun q => if q = s.allocated then session else s.madeFor q
        allocated := s.allocated + 1 } where
  sound := by
    intro queue
    dsimp only
    split
    . exact UploadQueue.sound_new
    . exact h.sound queue
  calm := h.calm
  unpoisoned := h.unpoisoned
  single := h.single
  listed := by
    intro session' queue hentry
    rcases Table.insert_eq_some hentry with ⟨hsession, hqueue⟩ | hentry
    . rw [hqueue, hsession]
      exact ⟨Nat.lt_succ_self _, if_pos rfl⟩
    . rcases h.listed session' queue hentry with ⟨hlt, hmade⟩
      exact ⟨Nat.lt_succ_of_lt hlt, (if_neg (Nat.ne_of_lt hlt)).trans hmade⟩
  owned := by
    intro r hr queue hqueue
    rcases h.owned r hr queue hqueue with ⟨hlt, hmade⟩
    exact ⟨Nat.lt_succ_of_lt hlt, (if_neg (Nat.ne_of_lt hlt)).trans hmade⟩
  untaken := by
    intro r hr hpacket queue hstage
    dsimp only
    split
    . rfl
    . exact h.untaken r hr hpacket queue hstage
  taken := by
    intro session' queue hentry hpresent
    dsimp only at hpresent
    split at hpresent
    . cases hpresent
    . next hne =>
      rcases Table.insert_eq_some hentry with ⟨_, hqueue⟩ | hentry
      . exact absurd hqueue hne
      . exact h.taken session' queue hentry hpresent

end

variable {i : Nat}

theorem inv_orInsert (h : s.Inv) (hr : s.requests[i]? = some r) (hstage : r.stage = .entering)
    : (s.orInsert i r).Inv := by
  have htunnel (queue : Nat) : r.stage ≠ .tunnel queue := by simp [hstage]
  have hunderWay : r.stage.underWay = true := by simp [hstage, Stage.underWay]
  unfold orInsert
  split
  . next queue hentry => exact h.found hr htunnel hentry fun _ => Or.inl hunderWay
  . apply h.allocate.found hr htunnel
    . exact Table.insert_self
    . exact fun _ => Or.inl hunderWay

theorem inv_limitReached (h : s.Inv) (hr : s.requests[i]? = some r) (hstage : r.stage = .missed)
    : (s.limitReached i r).Inv := by
  have hend (stage : Stage) (hcalm : ∀ p, stage ≠ .panicked p) (hunderWay : stage.underWay = false)
      : (s.setStage i r stage).Inv := by
    apply h.setStage_end hr _ hcalm hunderWay
    simp [hstage]
  unfold limitReached
  split
  . apply hend <;> simp [Stage.underWay]
  have hrefused : (s.setStage i r (.refused 503)).Inv := by
    apply hend <;> simp [Stage.underWay]
  split
  . exact hrefused.setDownloadSessions
  . exact hrefused

-- The request with the tunnel is the only one for its session, so that no other has the queue.
theorem Inv.takeReader (h : s.Inv) (hr : r ∈ s.requests) (hpacket : r.packet = none)
    (hstage : r.stage = .tunnel queue)
    : (s.stepQueue queue .takeReader).Inv := by
  have hmade := (h.owned r hr queue (by simp [hstage, Stage.queue])).right
  have hother (q : Nat) (hne : q ≠ queue)
      : (s.stepQueue queue .takeReader).queues q = s.queues q := by
    simp only [Server.stepQueue, if_neg hne]
  refine ⟨?_, h.calm, h.unpoisoned, h.single, h.listed, h.owned, ?_, ?_⟩
  . intro q
    by_cases hq : q = queue
    . simp only [Server.stepQueue, if_pos hq]
      apply UploadQueue.sound_of_reader <;> rfl
    . rw [hother q hq]
      exact h.sound q
  . intro r' hr' hpacket' q hstage'
    by_cases hq : q = queue
    . have hmade' := (h.owned r' hr' q (by rcases hstage' with h | h <;> simp
        [h, Stage.queue])).right
      have hclaims : r.claims r.session = true := by
        simp [Request.claims, hpacket, hstage, Stage.underWay]
      have hclaims' : r'.claims r.session = true := by
        rw [← hmade, ← hq, hmade']
        rcases hstage' with h | h <;> simp [Request.claims, hpacket', h, Stage.underWay]
      rw [Pool.eq_of_countP_le_one r (h.single _) hr' hr hclaims' hclaims, hstage] at hstage'
      simp at hstage'
    . rw [hother q hq]
      exact h.untaken r' hr' hpacket' q hstage'
  . intro session q hentry hpresent
    by_cases hq : q = queue
    . have hsession := (h.listed session q hentry).right
      rw [hq, hmade] at hsession
      exact ⟨r, hr, hpacket, hsession, by rw [hq, hstage]⟩
    . rw [hother q hq] at hpresent
      exact h.taken session q hentry hpresent

theorem inv_takeReader (h : s.Inv) (hr : s.requests[i]? = some r) (hstage : r.stage = .taking queue)
    (hpacket : r.packet = none)
    : (s.takeReader i r queue).Inv := by
  have hmem := mem_of_getElem? hr
  have hset : (s.setStage i r (.tunnel queue)).Inv := by
    apply h.setStage hr
    . simp [hstage]
    . simp
    . exact fun _ _ => Or.inl (by rw [hstage]; rfl)
    . intro q hq
      cases hq
      exact h.owned r hmem queue (by rw [hstage]; rfl)
    . simp
  unfold Server.takeReader
  rw [h.unpoisoned, if_neg not_mem_nil,
    if_pos (h.untaken r hmem hpacket queue (Or.inr hstage))]
  apply hset.takeReader
  . apply mem_set
    exact (List.getElem?_eq_some_iff.mp hr).fst
  . exact hpacket
  . rfl

theorem Inv.removePacketUpSession (h : s.Inv)
    : (s.removePacketUpSession session).Inv where
  sound := h.sound
  calm := h.calm
  unpoisoned := h.unpoisoned
  single := h.single
  listed := by
    intro session' queue hentry
    exact h.listed session' queue (Table.erase_eq_some.mp hentry).right
  owned := h.owned
  untaken := h.untaken
  taken := by
    intro session' queue hentry
    exact h.taken session' queue (Table.erase_eq_some.mp hentry).right

theorem inv_cleanup (h : s.Inv) (hr : s.requests[i]? = some r) : (s.cleanup i r).Inv := by
  have hend (stage : Stage) (hcalm : ∀ p, stage ≠ .panicked p) (hunderWay : stage.underWay = false)
      : ((s.removePacketUpSession r.session).setStage i r stage).Inv := by
    apply h.removePacketUpSession.setStage_end hr _ hcalm hunderWay
    intro _ _
    exact Table.erase_self
  unfold Server.cleanup
  split
  . apply hend <;> simp [Stage.underWay]
  . apply hend <;> simp [Stage.underWay]
  . exact h

section

variable (h : s.Inv) (hr : s.requests[i]? = some r)
include h hr

theorem inv_lock (hstage : r.stage = .found queue)
    (hlocking : (s.queues queue).reader.isLocking = false)
    : ((s.stepQueue queue (.lock packet)).setStage i r (.locked queue)).Inv := by
  have hlock : (s.stepQueue queue (.lock packet)).Inv := by
    apply h.stepQueue
    . exact UploadQueue.sound_of_reader (h.sound queue).calm hlocking
    . rfl
  apply hlock.setStage_end hr <;> simp [hstage, Stage.underWay]

theorem inv_push (hstage : r.stage = .locked queue)
    : (s.push i r queue packet).Inv := by
  have hpush : (s.stepQueue queue .push).Inv := by
    apply h.stepQueue
    . exact UploadQueue.sound_push (h.sound queue)
    . exact congrArg Reader.isAbsent UploadQueue.reader_push
  have hend (stage : Stage) (hcalm : ∀ p, stage ≠ .panicked p) (hunderWay : stage.underWay = false)
      : ((s.stepQueue queue .push).setStage i r stage).Inv := by
    apply hpush.setStage_end hr _ hcalm hunderWay
    simp [hstage]
  unfold Server.push
  split
  . apply hend <;> simp [Stage.underWay]
  . split
    . apply hend <;> simp [Stage.underWay]
    . apply hend <;> simp [Stage.underWay]

theorem inv_bumpWake (hstage : r.stage = .waking queue)
    : ((s.stepQueue queue .bumpWake).setStage i r .done).Inv := by
  have hbump : (s.stepQueue queue .bumpWake).Inv := by
    apply h.stepQueue
    . exact ⟨(h.sound queue).calm, (h.sound queue).free⟩
    . rfl
  apply hbump.setStage_end hr <;> simp [hstage, Stage.underWay]

theorem inv_lookup (hstage : r.stage = .lookup)
    (hapart : r.packet = none → ∀ r' ∈ s.requests, r'.claims r.session = false)
    : (s.lookup i r).Inv := by
  have htunnel (queue : Nat) : r.stage ≠ .tunnel queue := by simp [hstage]
  unfold Server.lookup
  split
  . next queue hentry =>
    exact h.found hr htunnel hentry fun hpacket => Or.inr (hapart hpacket)
  apply h.setStage hr
  . exact fun queue hq => absurd hq (htunnel queue)
  . simp
  . exact fun hpacket _ => Or.inr (hapart hpacket)
  . simp [Stage.queue]
  . simp

theorem inv_advance (hapart : s.apart (.advance i) = true)
    : (s.advance i r).Inv := by
  simp only [apart, hr] at hapart
  unfold Server.advance
  split
  . next hstage =>
    apply inv_lookup h hr hstage
    intro hpacket
    simpa [hstage, hpacket] using hapart
  . next hstage =>
    split
    . exact inv_limitReached h hr hstage
    apply h.setStage hr
    . simp [hstage]
    . simp
    . exact fun _ _ => Or.inl (by rw [hstage]; rfl)
    . simp [Stage.queue]
    . simp
  . next hstage => exact inv_orInsert h hr hstage
  . next queue hstage hpacket => exact inv_takeReader h hr hstage hpacket
  . next queue packet hstage hpacket =>
    apply inv_lock h hr hstage
    simpa [hstage, hpacket] using hapart
  . next queue packet hstage _ => exact inv_push h hr hstage
  . next queue hstage => exact inv_bumpWake h hr hstage
  . exact h

theorem inv_answer
    : (s.answer i r e).Inv := by
  have hmem := mem_of_getElem? hr
  unfold Server.answer
  split
  . next queue hstage =>
    apply h.setStage hr
    . simp [hstage]
    . simp
    . exact fun _ _ => Or.inl (by rw [hstage]; rfl)
    . intro q hq
      cases hq
      exact h.owned r hmem queue (by rw [hstage]; rfl)
    . intro hpacket q hq
      rw [or_iff_right (by simp)] at hq
      cases hq
      exact h.untaken r hmem hpacket queue (Or.inl hstage)
  . next hstage => apply h.setStage_end hr <;> simp [hstage, Stage.underWay]
  . exact h

theorem inv_dropBody (hfound : isFound r true = true)
    : (s.dropBody i r status e).Inv := by
  have htunnel (queue : Nat) (hstage : r.stage = .tunnel queue) : s.sessions r.session = none := by
    simp [isFound, hstage] at hfound
  unfold Server.dropBody
  split
  . apply h.setStage_end hr htunnel <;> simp [Stage.underWay]
  . apply h.setStage_end hr htunnel <;> simp [Stage.underWay]

end

theorem inv_read (h : s.Inv) (hcan : s.canRead r e = true) : (s.read r e).Inv := by
  have hstep (queue : Nat) (hread : (e.reads && (s.queues queue).enabled e) = true)
      : (s.stepQueue queue e).Inv := by
    rw [Bool.and_eq_true] at hread
    apply h.stepQueue
    . exact UploadQueue.sound_read (h.sound queue) hread.right hread.left
    . exact UploadQueue.isAbsent_read hread.right hread.left
  unfold Server.read
  split
  . next queue hstage => exact hstep queue (by simpa [canRead, hstage] using hcan)
  . next queue hstage => exact hstep queue (by simpa [canRead, hstage] using hcan)
  . exact h

theorem inv_onRequest {act : Request → Server} (i : Nat) (h : s.Inv)
    (hact : ∀ r, s.requests[i]? = some r → (act r).Inv)
    : ((s.requests[i]?.map act).getD s).Inv := by
  cases hr : s.requests[i]? with
  | none => exact h
  | some r => exact hact r hr

theorem inv_step (s : Server) (e : ServerEvent) (h : s.Inv)
    (he : s.enabled e = true ∧ s.apart e = true)
    : (s.step e).Inv := by
  rcases he with ⟨henabled, hapart⟩
  cases e with
  | get conn session => exact inv_get h
  | post conn session packet => exact inv_post h
  | advance i => exact inv_onRequest i h fun r hr => inv_advance h hr hapart
  | answer i e => exact inv_onRequest i h fun r hr => inv_answer h hr
  | dropBody i status e =>
    refine inv_onRequest i h fun r hr => inv_dropBody h hr ?_
    simpa [enabled, hr] using henabled
  | read i e =>
    refine inv_onRequest i h fun r hr => inv_read h ?_
    simpa [enabled, hr] using henabled
  | cleanup i => exact inv_onRequest i h fun r hr => inv_cleanup h hr

theorem sessions_never_panic (s : Server)
    (hs : Reach step (fun s e => s.enabled e = true ∧ s.apart e = true) new s)
    : (∀ r ∈ s.requests, ∀ p, r.stage ≠ .panicked p)
      ∧ ∀ queue, (s.queues queue).reader.isPanicked = false := by
  have hinv : s.Inv := Reach.invariant Inv _ s inv_new inv_step hs
  exact ⟨hinv.calm, fun queue => (hinv.sound queue).calm⟩

def after (events : List ServerEvent) : Server :=
  events.foldl step new

def upserts (i : Nat) : List ServerEvent :=
  [.advance i, .advance i, .advance i]

def oneByOne : List ServerEvent :=
  [.post none "a" ⟨0, [65]⟩] ++ upserts 0 ++ [.advance 0, .advance 0, .advance 0, .get (some 0) "a",
    .advance 1, .answer 1 none, .advance 1, .read 1 (.poll 4), .read 1 .tryLock,
    .read 1 .readLocked, .get (some 0) "a", .cleanup 1, .get (some 1) "a"] ++ upserts 3
    ++ [.answer 3 none, .advance 3]

theorem sessions_never_panic_one_by_one
    : (after oneByOne).requests.map (·.stage) = [.done, .cleaned 0, .refused 409, .tunnel 1]
      ∧ (∀ r ∈ (after oneByOne).requests, ∀ p, r.stage ≠ .panicked p)
      ∧ ∀ queue, ((after oneByOne).queues queue).reader.isPanicked = false := by
  constructor
  . decide +kernel
  . apply sessions_never_panic
    apply Reach.foldl
    . exact Reach.start
    . decide +kernel

def secondGet : List ServerEvent :=
  [.get (some 0) "a"] ++ upserts 0 ++ [.answer 0 none, .advance 0, .get (some 1) "a", .advance 1,
    .answer 1 none, .advance 1]

def pushBetween : List ServerEvent :=
  [.get none "a"] ++ upserts 0 ++ [.answer 0 none, .advance 0, .read 0 (.poll 4),
    .read 0 .tryLock, .post none "a" ⟨0, [65]⟩, .advance 1, .advance 1, .read 0 .readLocked]

theorem sessions_panic
    : (Allowed step (fun s e => s.enabled e = true) new secondGet
        ∧ ∃ r ∈ (after secondGet).requests, r.stage = .panicked .readerTaken)
      ∧ Allowed step (fun s e => s.enabled e = true) new pushBetween
      ∧ ((after pushBetween).queues 0).reader.isPanicked = true := by
  decide +kernel

end Server
end Blackwire.PacketUp
