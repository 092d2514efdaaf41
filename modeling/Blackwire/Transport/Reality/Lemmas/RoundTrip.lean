import Blackwire.Transport.Reality.Handshake
import Blackwire.Transport.Reality.Stream

/-!
This module contains the round trip of a `Tls13Stream`: the records of a writer, a reader that
follows them, and what is left for a direct copy behind them.
-/

namespace Blackwire.Reality

open Bytes List Machine
open Script (Moved)

section

variable (p : Primitives) (cs : CipherSuite) (key iv : Bytes)

def streamRecords : Nat → List Bytes → List Record
  | _, [] => []
  | seq, chunk :: chunks =>
    sealedRecord p cs key iv seq chunk rtApplicationData (chunk.length + 17)
      :: streamRecords (seq + 1) chunks

def wires (records : List Record) : Bytes :=
  records.flatMap Record.wire

theorem streamRecords_append (seq : Nat) (chunks more : List Bytes)
    : streamRecords p cs key iv seq (chunks ++ more)
        = streamRecords p cs key iv seq chunks
          ++ streamRecords p cs key iv (seq + chunks.length) more := by
  induction chunks generalizing seq with
  | nil => rfl
  | cons chunk chunks ih =>
    simp only [cons_append, streamRecords, length_cons]
    rw [ih, Nat.add_right_comm, Nat.add_assoc]

theorem wires_append (records more : List Record)
    : wires (records ++ more) = wires records ++ wires more := by
  apply flatMap_append

theorem wires_concat (chunks : List Bytes) (chunk : Bytes)
    : wires (streamRecords p cs key iv 0 (chunks ++ [chunk]))
        = wires (streamRecords p cs key iv 0 chunks)
          ++ (sealedRecord p cs key iv chunks.length chunk rtApplicationData
            (chunk.length + 17)).wire := by
  rw [streamRecords_append, wires_append, Nat.zero_add]
  simp [streamRecords, wires]

end

structure WriteSession where
  out : Outbox WriteHalf UInt8
  accepted : List Bytes
  offered : Bytes

inductive WriteEvent (ε : Type) where
  | write (buf : Bytes) (answers : List (Poll (Except (RecordError ε) Nat)))
  | flush (inner : Poll (Except ε Unit))
  | shutdown (inner : Poll (Except ε Unit))

namespace WriteSession

variable {ε : Type}

def start (out : Outbox WriteHalf UInt8) : WriteSession :=
  ⟨out, [], []⟩

def report (s : WriteSession) (buf : Bytes)
    : Outbox WriteHalf UInt8 × Poll (Except (RecordError ε) Nat) → WriteSession
  | (out, .ready (.ok n)) => ⟨out, if n = 0 then s.accepted else s.accepted ++ [buf.take n], []⟩
  | (out, _) => ⟨out, s.accepted, buf⟩

def step (p : Primitives) (s : WriteSession) : WriteEvent ε → WriteSession
  | .write buf answers => s.report buf (WriteHalf.pollWrite p s.out buf answers)
  | .flush _ => s
  | .shutdown _ => s

def conforming (s : WriteSession) : WriteEvent ε → Prop
  | .write buf _ => s.offered <+: buf
  | _ => True

instance (s : WriteSession) (e : WriteEvent ε) : Decidable (s.conforming e) :=
  match e with
  | .write buf _ => inferInstanceAs (Decidable (s.offered <+: buf))
  | .flush _ => inferInstanceAs (Decidable True)
  | .shutdown _ => inferInstanceAs (Decidable True)

end WriteSession

def ChunkOk (chunk : Bytes) : Prop :=
  chunk ≠ [] ∧ chunk.length ≤ 16384

structure Busy (p : Primitives) (accepted : List Bytes) (offered : Bytes)
    (out : Outbox WriteHalf UInt8) (chunk part : Bytes) : Prop where
  chunkOk : ChunkOk chunk
  offered : chunk <+: offered
  seq : out.core.seq = accepted.length + 1
  len : out.core.writeChunkLen = chunk.length
  record : part ++ out.queue
    = (sealedRecord p out.core.cs out.core.key out.core.iv accepted.length chunk rtApplicationData
      (chunk.length + 17)).wire
  received : out.received
    = wires (streamRecords p out.core.cs out.core.key out.core.iv 0 accepted) ++ part

inductive Sending (p : Primitives) (s : WriteSession) : Prop where
  | idle (hseq : s.out.core.seq = s.accepted.length) (hqueue : s.out.queue = [])
      (hreceived : s.out.received
        = wires (streamRecords p s.out.core.cs s.out.core.key s.out.core.iv 0 s.accepted))
  | busy (chunk part : Bytes) (hbusy : Busy p s.accepted s.offered s.out chunk part)
      (hqueue : s.out.queue ≠ [])

structure Sealed (key core : WriteHalf) : Prop where
  keys : core.cs = key.cs ∧ core.key = key.key ∧ core.iv = key.iv
  uses : core.uses = (range core.seq).map (computeNonce core.iv)

structure Written (p : Primitives) (key : WriteHalf) (s : WriteSession) : Prop where
  core : Sealed key s.out.core
  chunks : ∀ chunk ∈ s.accepted, ChunkOk chunk
  sending : Sending p s

namespace Written

variable {ε : Type} {s : WriteSession}

theorem report_drained (hcore : Sealed key out.core) (hchunks : ∀ chunk ∈ s.accepted, ChunkOk chunk)
    (hbusy : Busy p s.accepted buf out chunk part)
    : Written p key (s.report buf (WriteHalf.drained out answers)) := by
  rcases out.drain_passes .writeZero answers with
    ⟨front, queue, result, rest, hdrain, hsum, hdone⟩
  have hpart : Busy p s.accepted buf ⟨out.core, queue, out.received ++ front⟩ chunk
    (part ++ front) := by
    refine ⟨hbusy.chunkOk, hbusy.offered, hbusy.seq, hbusy.len, ?_, ?_⟩
    . rw [append_assoc, hsum, hbusy.record]
    . rw [← append_assoc, ← hbusy.received]
  unfold WriteHalf.drained
  rw [hdrain]
  match result with
  | .pending =>
    refine ⟨hcore, hchunks, .busy chunk _ hpart ?_⟩
    intro hqueue
    cases hdone.mpr hqueue
  | .ready (.error e) =>
    refine ⟨hcore, hchunks, .busy chunk _ hpart ?_⟩
    intro hqueue
    cases hdone.mpr hqueue
  | .ready (.ok ()) =>
    obtain rfl : queue = [] := hdone.mp rfl
    have hlen := hbusy.len
    have hne : out.core.writeChunkLen ≠ 0 := by
      have hpos := length_pos_iff.mpr hbusy.chunkOk.left
      omega
    have htake : buf.take out.core.writeChunkLen = chunk := by
      rw [hlen]
      exact (prefix_iff_eq_take.mp hbusy.offered).symm
    have hrecord := hpart.record
    rw [append_nil] at hrecord
    dsimp only [WriteSession.report]
    rw [if_neg hne, htake]
    refine ⟨⟨hcore.keys, hcore.uses⟩, ?_, .idle ?_ rfl ?_⟩
    . intro c hc
      rcases mem_append.mp hc with hc | hc
      . exact hchunks c hc
      . rw [mem_singleton.mp hc]
        exact hbusy.chunkOk
    . dsimp only
      rw [hbusy.seq, length_append, length_singleton]
    . dsimp only
      rw [wires_concat, ← hrecord, ← hpart.received]

theorem busy_of_idle (h : Written p key s) (hseq : s.out.core.seq = s.accepted.length)
    (hreceived : s.out.received
      = wires (streamRecords p s.out.core.cs s.out.core.key s.out.core.iv 0 s.accepted))
    {buf : Bytes} (hbuf : buf ≠ [])
    : Sealed key
        { s.out.core with
          writeChunkLen := min buf.length 16384
          seq := s.out.core.seq + 1
          uses := s.out.core.uses ++ [computeNonce s.out.core.iv s.out.core.seq] }
      ∧ Busy p s.accepted buf
        ⟨{ s.out.core with
            writeChunkLen := min buf.length 16384
            seq := s.out.core.seq + 1
            uses := s.out.core.uses ++ [computeNonce s.out.core.iv s.out.core.seq] },
          (sealedRecord p s.out.core.cs s.out.core.key s.out.core.iv s.out.core.seq
            (buf.take (min buf.length 16384)) rtApplicationData
            ((buf.take (min buf.length 16384)).length + 17)).wire,
          s.out.received⟩
        (buf.take (min buf.length 16384)) [] := by
  have hpos := length_pos_iff.mpr hbuf
  have hlength : (buf.take (min buf.length 16384)).length = min buf.length 16384 := by
    rw [length_take, Nat.min_eq_left (Nat.min_le_left _ _)]
  refine ⟨⟨h.core.keys, ?_⟩, ⟨?_, ?_⟩, take_prefix _ _, ?_, hlength.symm, ?_, ?_⟩
  . dsimp only
    rw [h.core.uses, range_succ, map_append]
    rfl
  . rw [← length_pos_iff]
    omega
  . omega
  . exact congrArg (· + 1) hseq
  . dsimp only
    rw [nil_append, hseq]
  . dsimp only
    rw [append_nil, hreceived]

theorem step (h : Written p key s) (he : s.conforming e)
    : Written p key (s.step p e) := by
  match e with
  | .flush _ => exact h
  | .shutdown _ => exact h
  | .write buf answers =>
    dsimp only [WriteSession.step]
    unfold WriteHalf.pollWrite
    cases h.sending with
    | busy chunk part hbusy hqueue =>
      rw [if_pos (by simpa using hqueue)]
      apply report_drained h.core h.chunks
      exact { hbusy with offered := hbusy.offered.trans he }
    | idle hseq hqueue hreceived =>
      rw [if_neg (by simp [hqueue])]
      split
      next hempty =>
        exact ⟨h.core, h.chunks, .idle hseq hqueue hreceived⟩
      next hne =>
        rcases h.busy_of_idle hseq hreceived (by simpa using hne) with ⟨hcore, hbusy⟩
        dsimp only
        rw [encryptAppRecordWith_eq]
        exact report_drained hcore h.chunks hbusy

end Written

variable {ε : Type}

theorem ReadHalf.processRecord_sealedRecord (hp : p.Lawful)
    (s : ReadHalf) (hkey : p.aeadKeyOk s.cs s.key = true) (chunk : Bytes) (len : Nat)
    : s.processRecord (ε := ε) p
        (sealedRecord p s.cs s.key s.iv s.seq chunk rtApplicationData len).header
        (sealedRecord p s.cs s.key s.iv s.seq chunk rtApplicationData len).body
        = ({ s with seq := s.seq + 1, readPhase := .plaintext chunk }, none) := by
  unfold ReadHalf.processRecord
  rw [if_pos (by rfl), decryptAppRecordWith_sealedRecord hp s.iv s.seq chunk len hkey (by decide)]
  dsimp only
  rw [if_pos rfl]

theorem streamRecords_take_drop (hn : n ≤ chunks.length)
    : streamRecords p cs key iv 0 chunks
        = streamRecords p cs key iv 0 (chunks.take n)
          ++ streamRecords p cs key iv n (chunks.drop n) := by
  conv => lhs; rw [← take_append_drop n chunks]
  rw [streamRecords_append, Nat.zero_add, length_take, Nat.min_eq_left hn]

structure Followed {ε : Type} (p : Primitives) (key : ReadHalf) (chunks : List Bytes)
    (whole : Script UInt8 ε) (returned : Bytes) (s : ReadHalf) (script : Script UInt8 ε)
    : Prop where
  keys : s.cs = key.cs ∧ s.key = key.key ∧ s.iv = key.iv
  bound : s.seq ≤ chunks.length
  plain : returned ++ s.readPhase.avail = (chunks.take s.seq).flatten
  fits : s.readPhase.Fits
  wire : wires (streamRecords p key.cs key.key key.iv 0 (chunks.take s.seq))
      ++ (s.readPhase.raw ++ script.bytes) = whole.bytes
  errors : ∀ e, .ready (.error e) ∈ script → .ready (.error e) ∈ whole
  flowing : script.Flowing

namespace Followed

open ReadSession

variable {ε : Type} {p : Primitives} {key : ReadHalf} {chunks : List Bytes} {whole : Script UInt8 ε}
  {returned : Bytes} {script rest : Script UInt8 ε}

theorem moved (h : Followed p key chunks whole returned s script)
    (havail : phase.avail = s.readPhase.avail) (hfits : phase.Fits)
    (hmoved : Moved s.readPhase.raw script phase.raw rest)
    : Followed p key chunks whole returned { s with readPhase := phase } rest where
  keys := h.keys
  bound := h.bound
  plain := by
    rw [havail, h.plain]
  fits := hfits
  wire := by
    rw [hmoved.bytes, h.wire]
  errors e he := h.errors e (hmoved.errors e he)
  flowing := hmoved.flowing h.flowing

theorem todo (h : Followed p key chunks whole returned s script) {tail : Bytes}
    : (s.readPhase.raw ++ script.bytes
        <+: wires (streamRecords p key.cs key.key key.iv s.seq (chunks.drop s.seq)) ++ tail)
      ↔ whole.bytes <+: wires (streamRecords p key.cs key.key key.iv 0 chunks) ++ tail := by
  rw [← h.wire, streamRecords_take_drop h.bound, wires_append,
    append_assoc, prefix_append_right_inj]

section

variable (hp : p.Lawful) (hchunks : ∀ chunk ∈ chunks, ChunkOk chunk) {tail : Bytes}
  (hwhole : whole.bytes <+: wires (streamRecords p key.cs key.key key.iv 0 chunks) ++ tail)

include hp hchunks

theorem readRecord_todo (h : Followed p key chunks whole returned s script)
    (hseq : s.seq < chunks.length)
    : ∃ chunk, chunks[s.seq]? = some chunk
      ∧ ∃ rest, readRecord (wires (streamRecords p key.cs key.key key.iv s.seq
            (chunks.drop s.seq)) ++ tail)
          = some (sealedRecord p s.cs s.key s.iv s.seq chunk rtApplicationData (chunk.length + 17),
            rest) := by
  rcases h.keys with ⟨hcs, hkey, hiv⟩
  have hchunk := (hchunks chunks[s.seq] (getElem_mem hseq)).right
  refine ⟨chunks[s.seq], List.getElem?_eq_getElem hseq, ?_⟩
  rw [drop_eq_getElem_cons hseq, streamRecords, wires, flatMap_cons, append_assoc,
    readRecord_sealedRecord hp _ _ _ _ (Nat.le_refl _) (by omega), hcs, hkey, hiv]
  exact ⟨_, rfl⟩

include hwhole

theorem completed_eq (h : Followed p key chunks whole returned s script)
    (havail : s.readPhase.avail = []) (hread : readRecord tail = none ∨ returned ≠ chunks.flatten)
    (hcompleted : Completed s.readPhase script r rest)
    : ∃ chunk, chunks[s.seq]? = some chunk
      ∧ r = sealedRecord p s.cs s.key s.iv s.seq chunk rtApplicationData (chunk.length + 17) := by
  rcases hcompleted.fits h.fits with ⟨hheader, hbody⟩
  rcases h.todo.mpr hwhole with ⟨more, hmore⟩
  rw [← hcompleted.moved.bytes, append_assoc] at hmore
  have hrecord := readRecord_wire hheader hbody (rest.bytes ++ more)
  rw [hmore] at hrecord
  by_cases hseq : s.seq < chunks.length
  . rcases h.readRecord_todo hp hchunks hseq with ⟨chunk, hchunk, rest', hnext⟩
    rw [hrecord] at hnext
    cases hnext
    exact ⟨chunk, hchunk, rfl⟩
  . have hall : chunks.length ≤ s.seq := Nat.le_of_not_lt hseq
    have hplain := h.plain
    rw [havail, append_nil, take_of_length_le hall] at hplain
    rw [drop_eq_nil_of_le hall] at hrecord
    rcases hread with htail | hreturned
    . exact absurd (htail.symm.trans hrecord) (by simp)
    . exact absurd hplain hreturned

end

structure Progress (p : Primitives) (key : ReadHalf) (chunks : List Bytes)
    (whole : Script UInt8 ε) (returned : Bytes) (n : Nat) (s : ReadHalf)
    (result : Poll (Except (RecordError ε) Bytes)) (script : Script UInt8 ε) : Prop where
  followed : Followed p key chunks whole (returned ++ data result) s script
  sound : result ≠ .ready (.ok [])
    ∧ ∀ e, result = .ready (.error e) → ∃ e', e = .inner e' ∧ .ready (.error e') ∈ whole
  length : script.length ≤ n
  fewer : 0 < (data result).length ∨ script.length < n
    ∨ script = [] ∧ readRecord s.readPhase.raw = none ∧ s.readPhase.avail = []

variable (p key chunks whole) in
def Kept (returned : Bytes) (n : Nat) : ReadHalf.Turn ε → Prop
  | .next (s, script) => Followed p key chunks whole returned s script ∧ script.length ≤ n
  | .done (s, result, script) => Progress p key chunks whole returned n s result script

theorem serve (h : Followed p key chunks whole returned s script)
    (hphase : s.readPhase = .plaintext plainBuf)
    : Followed p key chunks whole (returned ++ plainBuf.take k)
        { s with readPhase := .plaintext (plainBuf.drop k) } script where
  keys := h.keys
  bound := h.bound
  plain := by
    have hplain := h.plain
    rw [hphase] at hplain
    dsimp only [ReadPhase.avail] at hplain ⊢
    rw [append_assoc, take_append_drop, hplain]
  fits := trivial
  wire := by
    have hwire := h.wire
    rw [hphase] at hwire
    exact hwire
  errors := h.errors
  flowing := h.flowing

theorem stop (h : Followed p key chunks whole returned s script) (havail : s.readPhase.avail = [])
    (hn : script.length ≤ n) (hstopped : Stopped s.readPhase script phase result rest)
    : Progress p key chunks whole returned n { s with readPhase := phase } result rest := by
  rcases hstopped.fits h.fits with ⟨hfits, hincomplete⟩
  have hnext := h.moved (hstopped.avail.trans havail.symm) hfits hstopped.moved
  have hlength := hstopped.moved.length
  have hfewer : rest.length < n
      ∨ rest = [] ∧ readRecord phase.raw = none ∧ phase.avail = [] := by
    rcases hstopped.fewer with hlt | hempty
    . exact .inl (by omega)
    . exact .inr ⟨hempty, hincomplete, hstopped.avail⟩
  rcases hstopped.result with rfl | ⟨e, rfl, hmem⟩ | ⟨message, rfl, hflowing⟩
  . refine ⟨?_, ⟨by simp, by simp⟩, by omega, .inr hfewer⟩
    rw [data_pending, append_nil]
    exact hnext
  . refine ⟨?_, ⟨by simp, ?_⟩, by omega, .inr hfewer⟩
    . rw [data_error, append_nil]
      exact hnext
    . intro e' he'
      cases he'
      exact ⟨e, rfl, h.errors e hmem⟩
  . exact absurd h.flowing hflowing

section

variable (hp : p.Lawful) (hkey : p.aeadKeyOk key.cs key.key = true)
  (hchunks : ∀ chunk ∈ chunks, ChunkOk chunk) (tail : Bytes)
  (hwhole : whole.bytes <+: wires (streamRecords p key.cs key.key key.iv 0 chunks) ++ tail)
  (hread : readRecord tail = none ∨ returned ≠ chunks.flatten)

include hp hkey hchunks hwhole hread

section

variable (h : Followed p key chunks whole returned s script)
include h

theorem process (havail : s.readPhase.avail = []) (hn : script.length ≤ n)
    (hcompleted : Completed s.readPhase script r rest)
    : Kept p key chunks whole returned n
        (ReadHalf.finish rest
          ({ s with readPhase := .body r.header r.body }.processRecord p r.header r.body)) := by
  rcases h.completed_eq hp hchunks hwhole havail hread hcompleted with ⟨chunk, hchunk, hr⟩
  rcases h.keys with ⟨hcs, hkey', hiv⟩
  have hprocess := ReadHalf.processRecord_sealedRecord (ε := ε) hp
    { s with readPhase := .body r.header r.body } (by rw [← hcs, ← hkey'] at hkey; exact hkey) chunk
    (chunk.length + 17)
  rw [← hr] at hprocess
  rw [hprocess]
  have hseq := (List.getElem?_eq_some_iff.mp hchunk).fst
  have hplain := h.plain
  rw [havail, append_nil] at hplain
  have htake : chunks.take (s.seq + 1) = chunks.take s.seq ++ [chunk] := by
    rw [take_add_one, hchunk]
    rfl
  refine ⟨⟨h.keys, hseq, ?_, trivial, ?_, ?_, ?_⟩, ?_⟩
  . dsimp only [ReadPhase.avail]
    rw [htake, flatten_append, hplain]
    simp
  . have hwire := h.wire
    rw [← hcompleted.moved.bytes, hr, hcs, hkey', hiv] at hwire
    dsimp only [ReadPhase.raw]
    rw [htake, wires_concat, length_take, Nat.min_eq_left (Nat.le_of_lt hseq),
      append_assoc, nil_append]
    exact hwire
  . exact fun e he => h.errors e (hcompleted.moved.errors e he)
  . exact hcompleted.moved.flowing h.flowing
  . exact Nat.le_trans hcompleted.moved.length hn

theorem kept_turn (hcap : 0 < cap)
    (hn : script.length ≤ n)
    : Kept p key chunks whole returned n (ReadHalf.turn p cap (s, script)) := by
  have hturned := ReadHalf.turned_turn p cap s script
  generalize ReadHalf.turn p cap (s, script) = out at hturned
  cases hturned with
  | serves plainBuf hphase hne =>
    have hpos := length_pos_iff.mpr hne
    have hlength : 0 < (plainBuf.take (min plainBuf.length cap)).length := by
      rw [length_take]
      omega
    refine ⟨h.serve hphase, ⟨?_, by simp⟩, hn, .inl hlength⟩
    intro hend
    rw [Poll.ready.injEq, Except.ok.injEq] at hend
    rw [hend] at hlength
    exact Nat.lt_irrefl _ hlength
  | stops phase result rest havail hstopped => exact h.stop havail hn hstopped
  | processes r rest havail hcompleted =>
    exact h.process hp hkey hchunks tail hwhole hread havail hn hcompleted

theorem progress_pollRead (hcap : 0 < cap)
    : Progress p key chunks whole returned script.length (s.pollRead p cap script).fst
        (s.pollRead p cap script).snd.fst (s.pollRead p cap script).snd.snd := by
  rcases ReadHalf.pollRead_invariant
    (fun s script' => Followed p key chunks whole returned s script'
      ∧ script'.length ≤ script.length) s script ⟨h, Nat.le_refl _⟩
    (fun s script₁ s' script' h hturn => by
      have hkept := h.left.kept_turn hp hkey hchunks tail hwhole hread hcap h.right
      rw [hturn] at hkept
      exact hkept) with ⟨s', script', h', hdone⟩
  have hkept := h'.left.kept_turn hp hkey hchunks tail hwhole hread hcap h'.right
  rw [hdone] at hkept
  exact hkept

end

end

end Followed

structure Trip {ε : Type} (p : Primitives) (key : ReadHalf) (chunks : List Bytes)
    (whole : Script UInt8 ε) (t : ReadSession ε) : Prop where
  followed : Followed p key chunks whole t.returned t.reader t.script
  sound : ∀ result ∈ t.log, result ≠ .ready (.ok [])
    ∧ ∀ e, result = .ready (.error e) → ∃ e', e = .inner e' ∧ .ready (.error e') ∈ whole

namespace Trip

variable {ε : Type} {key : ReadHalf} {whole : Script UInt8 ε}

theorem start (hseq : key.seq = 0) (hphase : key.readPhase = .header []) (hwhole : whole.Flowing)
    : Trip p key chunks whole (.start key whole) := by
  refine ⟨⟨⟨rfl, rfl, rfl⟩, ?_, ?_, ?_, ?_, fun _ => id, hwhole⟩, ?_⟩
  . exact hseq ▸ Nat.zero_le _
  . simp [ReadSession.start, ReadSession.returned, hseq, hphase, ReadPhase.avail]
  . simp [ReadSession.start, hphase, ReadPhase.Fits]
  . simp [ReadSession.start, hseq, hphase, ReadPhase.raw, streamRecords, wires]
  . simp [ReadSession.start]

theorem returned_prefix (h : Trip p key chunks whole t) : t.returned <+: chunks.flatten := by
  have hfront : t.returned <+: (chunks.take t.reader.seq).flatten := ⟨_, h.followed.plain⟩
  apply hfront.trans
  conv => rhs; rw [← take_append_drop t.reader.seq chunks, flatten_append]
  apply prefix_append

section

variable (hp : p.Lawful) (hkey : p.aeadKeyOk key.cs key.key = true)
  (hchunks : ∀ chunk ∈ chunks, ChunkOk chunk) {tail : Bytes}
  (hwhole : whole.bytes <+: wires (streamRecords p key.cs key.key key.iv 0 chunks) ++ tail)

include hp hkey hchunks hwhole

theorem step (h : Trip p key chunks whole t) (hcap : 0 < cap)
    (hread : readRecord tail = none ∨ t.returned ≠ chunks.flatten)
    : Trip p key chunks whole (t.step p cap) := by
  have hprogress := h.followed.progress_pollRead hp hkey hchunks tail hwhole hread hcap
  refine ⟨?_, ?_⟩
  . rw [ReadSession.returned_step]
    exact hprogress.followed
  . intro result hresult
    rcases mem_append.mp hresult with hresult | hresult
    . exact h.sound result hresult
    . rw [mem_singleton.mp hresult]
      exact hprogress.sound

end

section

variable (hp : p.Lawful) (hkey : p.aeadKeyOk key.cs key.key = true)
  (hchunks : ∀ chunk ∈ chunks, ChunkOk chunk) {tail : Bytes} (htail : readRecord tail = none)
  (hwhole : whole.bytes = wires (streamRecords p key.cs key.key key.iv 0 chunks) ++ tail)

include hp hchunks hwhole

theorem returned_all (h : Trip p key chunks whole t) (hscript : t.script = [])
    (hraw : readRecord t.reader.readPhase.raw = none) (havail : t.reader.readPhase.avail = [])
    : t.returned = chunks.flatten := by
  have hwire := h.followed.wire
  rw [hwhole, streamRecords_take_drop h.followed.bound,
    wires_append, append_assoc, append_cancel_left_eq, hscript] at hwire
  have hall : chunks.length ≤ t.reader.seq := by
    apply Nat.le_of_not_lt
    intro hseq
    rcases h.followed.readRecord_todo hp hchunks hseq with ⟨chunk, _, rest, hread⟩
    rw [← hwire, Script.bytes, append_nil, hraw] at hread
    cases hread
  have hplain := h.followed.plain
  rw [havail, append_nil, take_of_length_le hall] at hplain
  exact hplain

include hkey htail

theorem returned_foldl {caps : List Nat} (hcaps : ∀ cap ∈ caps, 0 < cap)
    (h : Trip p key chunks whole t)
    (hlong : chunks.flatten.length - t.returned.length + t.script.length ≤ caps.length)
    : (caps.foldl (ReadSession.step p) t).returned = chunks.flatten := by
  have hfront : whole.bytes <+: wires (streamRecords p key.cs key.key key.iv 0 chunks) ++ tail :=
    hwhole ▸ prefix_rfl
  induction caps generalizing t with
  | nil =>
    rw [length_nil] at hlong
    apply h.returned_prefix.eq_of_length_le
    omega
  | cons cap caps ih =>
    rw [forall_mem_cons] at hcaps
    have hnext := h.step hp hkey hchunks hfront hcaps.left (.inl htail)
    have hprogress := h.followed.progress_pollRead hp hkey hchunks tail hfront (.inl htail)
      hcaps.left
    have hreturned := t.returned_step p cap
    apply ih hcaps.right hnext
    have hle := hnext.returned_prefix.length_le
    have hlength : (t.step p cap).script.length ≤ t.script.length := hprogress.length
    rw [length_cons] at hlong
    rcases hprogress.fewer with hdata | hfewer | ⟨hscript, hraw, havail⟩
    . rw [hreturned, length_append] at hle ⊢
      omega
    . have hfewer : (t.step p cap).script.length < t.script.length := hfewer
      rw [hreturned, length_append] at hle ⊢
      omega
    . have hscript : (t.step p cap).script = [] := hscript
      rw [hnext.returned_all hp hchunks hwhole hscript hraw havail, hscript]
      simp

end

end Trip

theorem Tls13Stream.withRole_pair {keys : AppKeys} {isServer : Bool}
    (hclient : keys.clientIv.length = 12) (hserver : keys.serverIv.length = 12)
    {sender receiver : Tls13Stream} (hsender : Tls13Stream.withRole p keys isServer = some sender)
    (hreceiver : Tls13Stream.withRole p keys (!isServer) = some receiver)
    : ∃ cs key iv, sender.writer = ⟨⟨cs, key, iv, 0, 0, []⟩, [], []⟩
      ∧ receiver.reader = ⟨cs, key, iv, 0, .header []⟩ ∧ p.aeadKeyOk cs key = true
      ∧ iv.length = 12 := by
  unfold Tls13Stream.withRole at hsender hreceiver
  split at hsender
  next hkeys =>
    rw [if_pos hkeys] at hreceiver
    rw [Bool.and_eq_true] at hkeys
    match isServer with
    | true =>
      cases hsender
      cases hreceiver
      exact ⟨_, _, _, rfl, rfl, hkeys.right, hserver⟩
    | false =>
      cases hsender
      cases hreceiver
      exact ⟨_, _, _, rfl, rfl, hkeys.left, hclient⟩
  next => cases hsender

theorem Written.start
    : Written p ⟨cs, key, iv, 0, 0, []⟩ (.start ⟨⟨cs, key, iv, 0, 0, []⟩, [], []⟩) where
  core := ⟨⟨rfl, rfl, rfl⟩, rfl⟩
  chunks := by simp [WriteSession.start]
  sending := .idle rfl rfl rfl

theorem Written.received_eq (hp : p.Lawful) (h : Written p key w)
    : ∃ tail, w.out.received = wires (streamRecords p key.cs key.key key.iv 0 w.accepted) ++ tail
      ∧ readRecord tail = none ∧ (w.out.queue = [] → tail = []) := by
  rcases h.core.keys with ⟨hcs, hkey, hiv⟩
  rw [← hcs, ← hkey, ← hiv]
  cases h.sending with
  | idle hseq hqueue hreceived =>
    refine ⟨[], ?_, rfl, fun _ => rfl⟩
    rw [append_nil, hreceived]
  | busy chunk part hbusy hqueue =>
    have hchunk := hbusy.chunkOk.right
    rcases whole_sealedRecord hp w.out.core.cs w.out.core.key w.out.core.iv w.accepted.length chunk
      rtApplicationData (chunk.length + 17) (Nat.le_refl _) (by omega) with ⟨hheader, hbody⟩
    exact ⟨part, hbusy.received, readRecord_of_cut _ hheader hbody _ hbusy.record hqueue,
      fun hempty => absurd hempty hqueue⟩

theorem Written.uses_eq_iff (hiv : key.iv.length = 12) (h : Written p key w) (i j : Nat)
    (hi : i < w.out.core.uses.length) (hj : j < w.out.core.uses.length)
    : w.out.core.uses[i] = w.out.core.uses[j] ↔ i % 2 ^ 64 = j % 2 ^ 64 := by
  have huses (k : Nat) (hk : k < w.out.core.uses.length)
      : w.out.core.uses[k] = computeNonce key.iv k := by
    have hget : w.out.core.uses[k]? = some (computeNonce key.iv k) := by
      rw [h.core.uses, length_map, length_range] at hk
      rw [h.core.uses, getElem?_map, getElem?_range hk, h.core.keys.right.right]
      rfl
    exact (List.getElem?_eq_some_iff.mp hget).snd
  rw [huses i hi, huses j hj, computeNonce_eq_iff _ hiv]

theorem Trip.unwrap {key : ReadHalf} (h : Trip p key chunks whole t)
    (hready : Tls13Stream.directCopyReady ⟨t.reader, writer⟩ = true)
    : ∃ rest, Tls13Stream.tryUnwrapDirect ⟨t.reader, writer⟩ t.script = .ok (t.script, rest)
      ∧ t.returned ++ rest = (chunks.take t.reader.seq).flatten
      ∧ wires (streamRecords p key.cs key.key key.iv 0 (chunks.take t.reader.seq))
        ++ t.script.bytes = whole.bytes := by
  have hplain := h.followed.plain
  have hwire := h.followed.wire
  unfold Tls13Stream.tryUnwrapDirect
  rw [if_pos hready]
  dsimp only [Tls13Stream.directCopyReady] at hready
  match hphase : t.reader.readPhase with
  | .plaintext plainBuf =>
    rw [hphase] at hplain hwire
    exact ⟨plainBuf, rfl, hplain, hwire⟩
  | .header headerBuf =>
    rw [hphase] at hplain hwire hready
    obtain rfl : headerBuf = [] := by
      simp only [Bool.and_eq_true, List.isEmpty_iff] at hready
      exact hready.right
    exact ⟨[], rfl, hplain, hwire⟩
  | .body _ _ =>
    rw [hphase] at hready
    simp at hready

theorem tls13_stream_round_trip {ε : Type} (p : Primitives) (hp : p.Lawful) (keys : AppKeys)
    (hclient : keys.clientIv.length = 12) (hserver : keys.serverIv.length = 12) (isServer : Bool)
    (sender receiver : Tls13Stream) (hsender : Tls13Stream.withRole p keys isServer = some sender)
    (hreceiver : Tls13Stream.withRole p keys (!isServer) = some receiver) (w : WriteSession)
    (hw : Reach (WriteSession.step p) (WriteSession.conforming (ε := ε))
      (.start sender.writer) w)
    : (∀ script : Script UInt8 ε, script.Flowing → script.bytes <+: w.out.received →
        ∀ caps : List Nat, (∀ cap ∈ caps, 0 < cap) →
          let t := caps.foldl (ReadSession.step p) (.start receiver.reader script)
          t.returned <+: w.accepted.flatten
            ∧ .ready (.ok []) ∉ t.log
            ∧ (∀ e, .ready (.error e) ∈ t.log →
              ∃ e', e = .inner e' ∧ .ready (.error e') ∈ script)
            ∧ (script.bytes = w.out.received →
              w.accepted.flatten.length + script.length ≤ caps.length →
                t.returned = w.accepted.flatten))
      ∧ (∀ i j, ∀ hi : i < w.out.core.uses.length, ∀ hj : j < w.out.core.uses.length,
        w.out.core.uses[i] = w.out.core.uses[j] ↔ i % 2 ^ 64 = j % 2 ^ 64)
      ∧ (∀ (raw : Bytes) (script : Script UInt8 ε), w.out.queue = [] → script.Flowing →
        script.bytes <+: w.out.received ++ raw → ∀ t : ReadSession ε,
          Reach (ReadSession.step p)
            (fun t cap => 0 < cap ∧ t.returned ≠ w.accepted.flatten) (.start receiver.reader script)
            t →
          ∀ writer, Tls13Stream.directCopyReady ⟨t.reader, writer⟩ = true →
            ∃ rest, Tls13Stream.tryUnwrapDirect ⟨t.reader, writer⟩ t.script = .ok (t.script, rest)
              ∧ t.returned ++ rest = (w.accepted.take t.reader.seq).flatten
              ∧ wires (streamRecords p receiver.reader.cs receiver.reader.key receiver.reader.iv 0
                (w.accepted.take t.reader.seq)) ++ t.script.bytes = script.bytes) := by
  rcases Tls13Stream.withRole_pair hclient hserver hsender hreceiver with
    ⟨cs, key, iv, hwriter, hreader, hkey, hiv⟩
  rw [hwriter] at hw
  have hwritten := hw.invariant (Written p ⟨cs, key, iv, 0, 0, []⟩) _ _ Written.start
    (fun w e h he => h.step he)
  rcases hwritten.received_eq hp with ⟨tail, hreceived, htail, hidle⟩
  rw [hreader]
  refine ⟨?_, hwritten.uses_eq_iff hiv, ?_⟩
  . intro script hflowing hscript caps hcaps t
    rw [hreceived] at hscript
    have hstart : Trip p ⟨cs, key, iv, 0, .header []⟩ w.accepted script (.start _ script) :=
      Trip.start rfl rfl hflowing
    have hreach : Reach (ReadSession.step p) (fun _ cap => 0 < cap) (.start _ script) t :=
      Reach.foldl _ caps .start
        (allowed_of_forall _ (fun cap hcap _ => hcaps cap hcap))
    have htrip := hreach.invariant (Trip p ⟨cs, key, iv, 0, .header []⟩ w.accepted script) _ _
      hstart
      (fun t cap h hcap => h.step hp hkey hwritten.chunks hscript hcap (.inl htail))
    refine ⟨htrip.returned_prefix, ?_, ?_, ?_⟩
    . exact fun hend => (htrip.sound _ hend).left rfl
    . exact fun e he => (htrip.sound _ he).right e rfl
    . intro hall hlong
      rw [hreceived] at hall
      exact hstart.returned_foldl hp hkey hwritten.chunks htail hall hcaps (by
        simpa [ReadSession.start, ReadSession.returned] using hlong)
  . intro raw script hqueue hflowing hscript t ht writer hready
    rw [hreceived, hidle hqueue, append_nil] at hscript
    have htrip := ht.invariant (Trip p ⟨cs, key, iv, 0, .header []⟩ w.accepted script) _ _
      (Trip.start rfl rfl hflowing)
      (fun t cap h he => h.step hp hkey hwritten.chunks hscript he.left (.inr he.right))
    exact htrip.unwrap hready

def tripKey : AeadKey where
  algorithm := .aes128Gcm
  key := replicate 16 7
  length := rfl

-- What AES-128-GCM makes of two bytes of data and of one more.
def tripSeals : List KnownSeal :=
  [⟨tripKey, [3, 3, 3, 3, 3, 3, 3, 3, 3, 3, 3, 3], [104, 105, 23],
      [146, 14, 45, 148, 90, 251, 69, 183, 209, 147, 32, 179, 66, 96, 195, 18, 12, 42, 224]⟩,
    ⟨tripKey, [3, 3, 3, 3, 3, 3, 3, 3, 3, 3, 3, 2], [33, 23],
      [87, 42, 121, 111, 198, 249, 75, 243, 228, 121, 89, 158, 176, 177, 168, 208, 47, 175]⟩]

def tripPrimitives : Primitives :=
  plainPrimitives.withAead (Aead.ofTable tripSeals)

theorem lawful_tripPrimitives : tripPrimitives.Lawful := by
  apply Primitives.lawful_withAead
  apply Aead.lawful_ofTable
  decide +kernel

def tripKeys : AppKeys :=
  ⟨.aes128GcmSha256, replicate 16 5, replicate 12 4, replicate 16 7,
    replicate 12 3⟩

def tripWriter : Outbox WriteHalf UInt8 :=
  ⟨⟨.aes128GcmSha256, replicate 16 7, replicate 12 3, 0, 0, []⟩, [], []⟩

def tripReader : ReadHalf :=
  ⟨.aes128GcmSha256, replicate 16 7, replicate 12 3, 0, .header []⟩

def tripEvents : List (WriteEvent Unit) :=
  [.write [104, 105] [.ready (.ok 7)], .write [104, 105] [.pending], .flush .pending,
    .write [104, 105] [.ready (.ok 9), .ready (.ok 8)], .write [33] [.ready (.ok 23)]]

theorem tls13_stream_round_trip_retried
    : ∃ w : WriteSession,
        w = tripEvents.foldl (WriteSession.step tripPrimitives) (.start tripWriter)
          ∧ w.accepted = [[104, 105], [33]]
          ∧ ([1, 1, 1, 1, 1, 1].foldl (ReadSession.step tripPrimitives)
            (.start (ε := Unit) tripReader
              [.ready (.ok (w.out.received.take 30)), .pending,
                .ready (.ok (w.out.received.drop 30))])).returned = [104, 105, 33] := by
  refine ⟨_, rfl, by decide +kernel, ?_⟩
  apply (tls13_stream_round_trip tripPrimitives lawful_tripPrimitives tripKeys (by decide)
    (by decide) true
    ⟨⟨.aes128GcmSha256, replicate 16 5, replicate 12 4, 0, .header []⟩, tripWriter⟩
    ⟨tripReader, ⟨⟨.aes128GcmSha256, replicate 16 5, replicate 12 4, 0, 0, []⟩, [], []⟩⟩
    (by rfl) (by rfl) (tripEvents.foldl _ _)
    (Reach.foldl _ tripEvents .start (by decide +kernel))).left _ (by decide +kernel)
    (by decide +kernel) [1, 1, 1, 1, 1, 1] (by decide) |>.right.right.right
  . decide +kernel
  . decide +kernel

theorem WriteHalf.drained_at_once (h : o.queue ≠ [])
    : WriteHalf.drained (ε := ε) o [.ready (.ok (o.queue.length + 1))]
        = (⟨{ o.core with writeChunkLen := 0 }, [], o.received ++ o.queue⟩,
          .ready (.ok o.core.writeChunkLen)) := by
  unfold WriteHalf.drained
  rw [o.drain_at_once _ h _ (Nat.le_succ _)]

theorem WriteHalf.pollWrite_at_once (hqueue : o.queue = [])
    : ∃ answers out, WriteHalf.pollWrite (ε := ε) p o [0] answers = (out, .ready (.ok 1))
      ∧ out.queue = [] ∧ out.core.uses.length = o.core.uses.length + 1 := by
  let record :=
    (sealedRecord p o.core.cs o.core.key o.core.iv o.core.seq [0] rtApplicationData 18).wire
  have hne : record ≠ [] := by simp [record, Record.wire, sealedRecord]
  let uses := o.core.uses ++ [computeNonce o.core.iv o.core.seq]
  refine ⟨[.ready (.ok (record.length + 1))],
    ⟨{ o.core with writeChunkLen := 0, seq := o.core.seq + 1, uses := uses }, [],
      o.received ++ record⟩, ?_, rfl, by simp [uses]⟩
  unfold WriteHalf.pollWrite
  rw [if_neg (by simp [hqueue]), if_neg (by simp)]
  exact WriteHalf.drained_at_once
    hne

theorem WriteSession.exists_run (p : Primitives) (out : Outbox WriteHalf UInt8)
    (hqueue : out.queue = []) (n : Nat)
    : ∃ w, Reach (WriteSession.step p) (WriteSession.conforming (ε := ε)) (.start out) w
      ∧ w.out.queue = [] ∧ w.offered = [] ∧ w.out.core.uses.length = out.core.uses.length + n := by
  induction n with
  | zero => exact ⟨.start out, .start, hqueue, rfl, rfl⟩
  | succ n ih =>
    rcases ih with ⟨w, hreach, hidle, hoffered, hlength⟩
    rcases WriteHalf.pollWrite_at_once (ε := ε) hidle with ⟨answers, out', hwrite, hdone, huses⟩
    refine ⟨_, .step w (.write [0] answers) hreach ?_, ?_⟩
    . simp [WriteSession.conforming, hoffered]
    . dsimp only [WriteSession.step]
      rw [hwrite]
      exact ⟨hdone, rfl, by rw [← Nat.add_assoc, ← hlength]; exact huses⟩

theorem tls13_stream_nonce_repeats
    : ∃ sender w,
        Tls13Stream.withRole plainPrimitives
          ⟨.aes128GcmSha256, replicate 16 5, replicate 12 4, replicate 16 7,
            replicate 12 3⟩ true = some sender
        ∧ Reach (WriteSession.step plainPrimitives) (WriteSession.conforming (ε := Unit))
          (.start sender.writer) w
        ∧ ∃ nonce, w.out.core.uses[0]? = some nonce ∧ w.out.core.uses[2 ^ 64]? = some nonce := by
  rcases WriteSession.exists_run (ε := Unit) plainPrimitives
    ⟨⟨.aes128GcmSha256, replicate 16 7, replicate 12 3, 0, 0, []⟩, [], []⟩ rfl
    (2 ^ 64 + 1) with ⟨w, hreach, _, _, hlength⟩
  have hwritten := hreach.invariant (Written plainPrimitives _) _ _ Written.start
    (fun w e h he => h.step he)
  have hsame := (hwritten.uses_eq_iff (by rfl) 0 (2 ^ 64) (by omega) (by omega)).mpr (by decide)
  refine ⟨_, w, rfl, hreach, w.out.core.uses[0], ?_, ?_⟩
  . exact getElem?_eq_getElem _
  . rw [hsame]
    exact getElem?_eq_getElem _

end Blackwire.Reality
