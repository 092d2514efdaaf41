import Mathlib.Data.List.Nodup
import Blackwire.Transport.ShadowTls.Lemmas.Handshake
import Blackwire.Transport.ShadowTls.V3

/-!
This module contains the streams of version three of ShadowTLS from one end to the other.
-/

namespace Blackwire.ShadowTls
namespace V3

open Bytes RecordFormat List Machine

def wire (c : Crypto) (go : ShadowHmac → Bytes → ShadowHmac) (mac : ShadowHmac) : List Bytes → Bytes
  | [] => []
  | data :: rest => (frame c mac data).encode ++ wire c go (go mac data) rest

def inputs (go : ShadowHmac → Bytes → ShadowHmac) (mac : ShadowHmac) : List Bytes → List Bytes
  | [] => []
  | data :: rest => (mac.data ++ data) :: inputs go (go mac data) rest

def frames (c : Crypto) : ShadowHmac → List Bytes → Bytes :=
  wire c (next c)

def residuals (c : Crypto) : ShadowHmac → List Bytes → Bytes :=
  wire c ShadowHmac.update

def masked (c : Crypto) (psk serverRandom record : Bytes) : Bytes :=
  xorWithHandshakeMask c psk serverRandom ((record.drop 5).take (u16At record 3))

def taintAll (c : Crypto) (mac : ShadowHmac) (psk serverRandom : Bytes)
    : List Bytes → Except ProxyError (Bytes × ShadowHmac)
  | [] => .ok ([], mac)
  | record :: records => do
    let (bytes, mac) ← taintBackendApplicationData c mac psk serverRandom record
    let (rest, mac) ← taintAll c mac psk serverRandom records
    return (bytes ++ rest, mac)

section

theorem applicationPayload_eq_ok (h : applicationPayload record = .ok payload)
    : payload = (record.drop 5).take (u16At record 3) := by
  unfold applicationPayload at h
  split at h
  . cases h
  split at h
  . cases h
  dsimp only at h
  split at h
  . cases h
  . cases h
    rfl

theorem length_masked_lt (record : Bytes) : (masked c psk serverRandom record).length < 2 ^ 16 := by
  have hhigh := (record.getD 3 0).toNat_lt
  have hlow := (record.getD (3 + 1) 0).toNat_lt
  unfold masked xorWithHandshakeMask
  rw [length_mapIdx]
  apply Nat.lt_of_le_of_lt (length_take_le _ _)
  unfold u16At byteAt
  omega

theorem taint_eq_ok
    (h : taintBackendApplicationData c mac psk serverRandom record = .ok (bytes, mac'))
    : bytes = (frame c mac (masked c psk serverRandom record)).encode
      ∧ mac' = mac.update (masked c psk serverRandom record) := by
  unfold taintBackendApplicationData at h
  cases hpayload : applicationPayload record with
  | error e =>
    rw [hpayload] at h
    cases h
  | ok payload =>
    rw [hpayload] at h
    cases h
    rw [masked, ← applicationPayload_eq_ok hpayload]
    exact ⟨rfl, rfl⟩

section

variable {r : Record} (htype : r.recordType = tlsRecordApplicationData)
  (hlen : r.payload.length ≤ 16384 + 2048)
include htype hlen

theorem masked_encode
    : masked c psk serverRandom r.encode = xorWithHandshakeMask c psk serverRandom r.payload := by
  rw [masked, ← applicationPayload_eq_ok (applicationPayload_encode r htype hlen)]

theorem taint_encode
    : taintBackendApplicationData c mac psk serverRandom r.encode
        = .ok ((frame c mac (masked c psk serverRandom r.encode)).encode,
          mac.update (masked c psk serverRandom r.encode)) := by
  rw [masked_encode htype hlen]
  unfold taintBackendApplicationData
  rw [applicationPayload_encode r htype hlen]
  rfl

end

theorem taintAll_eq_ok (h : taintAll c mac psk serverRandom records = .ok (bytes, mac'))
    : bytes = residuals c mac (records.map (masked c psk serverRandom))
      ∧ mac' = mac.update (records.flatMap (masked c psk serverRandom)) := by
  induction records generalizing mac bytes with
  | nil =>
    cases h
    exact ⟨rfl, by simp [ShadowHmac.update]⟩
  | cons record records ih =>
    unfold taintAll at h
    cases hfirst : taintBackendApplicationData c mac psk serverRandom record with
    | error e =>
      rw [hfirst] at h
      cases h
    | ok first =>
      rcases first with ⟨front, macNext⟩
      rcases taint_eq_ok hfirst with ⟨rfl, rfl⟩
      rw [hfirst] at h
      dsimp only [bind, Except.bind] at h
      split at h
      . cases h
      . next rest hrest =>
        rcases rest with ⟨rest, macLast⟩
        cases h
        rcases ih hrest with ⟨rfl, rfl⟩
        refine ⟨rfl, ?_⟩
        simp [ShadowHmac.update]

end

section

variable {ι : Type}

theorem encode_writing {mac : ShadowHmac} {chunk : Bytes} (h : chunk.length ≤ maxTlsPlaintext)
    : (writing c ι).encode ⟨mac⟩ chunk = .ok (⟨next c mac chunk⟩, (frame c mac chunk).encode) := by
  dsimp only [writing]
  unfold FrameEncoder.encodeApplicationDataInto
  rw [if_neg (by omega)]
  rfl

theorem encodeAll_writing (mac : ShadowHmac) {chunks : List Bytes}
    (h : ∀ chunk ∈ chunks, chunk.length ≤ maxTlsPlaintext)
    : (writing c ι).encodeAll ⟨mac⟩ chunks
        = .ok (⟨chunks.foldl (next c) mac⟩, frames c mac chunks) := by
  induction chunks generalizing mac with
  | nil => rfl
  | cons chunk chunks ih =>
    rw [forall_mem_cons] at h
    rw [RecordWriter.encodeAll, encode_writing h.left]
    dsimp only
    rw [ih _ h.right]
    rfl

def Unfinished (c : Crypto) (mac : ShadowHmac) (part : Bytes) : Prop :=
  part = [] ∨ ∃ chunk queue, chunk.length ≤ maxTlsPlaintext ∧ queue ≠ []
    ∧ part ++ queue = (frame c mac chunk).encode

structure Sent (c : Crypto) (mac : ShadowHmac) (accepted : List Bytes) (received : Bytes)
    : Prop where
  chunks : ∀ chunk ∈ accepted, chunk ≠ [] ∧ chunk.length ≤ maxTlsPlaintext
  bytes : ∃ part, received = frames c mac accepted ++ part
    ∧ Unfinished c (accepted.foldl (next c) mac) part

theorem sent_of_reach
    (h : Reach (RecordWriter.Session.step (writing c ι)) RecordWriter.Session.conforming
      (.start ⟨mac⟩) w)
    : Sent c mac w.accepted w.out.received := by
  have hwritten : (writing c ι).Written ⟨mac⟩ w :=
    h.invariant _ _ _ (.new _ _) fun _ e ht he => ht.step he
  refine ⟨hwritten.chunks, ?_⟩
  rcases hwritten.received_eq with ⟨state, bytes, part, hall, hreceived, hpart⟩
  rw [encodeAll_writing mac fun chunk hchunk => (hwritten.chunks chunk hchunk).right]
    at hall
  cases hall
  refine ⟨part, hreceived, ?_⟩
  rcases hpart with hempty | ⟨chunk, state, queue, hok, hqueue, hencode⟩
  . exact Or.inl hempty
  . rw [encode_writing hok.right, Except.ok.injEq, Prod.mk.injEq] at hencode
    exact Or.inr ⟨chunk, queue, hok.right, hqueue, hencode.right.symm⟩

end

section

variable (hc : HmacSized c)

include hc

theorem outcome_frames (mac : ShadowHmac) (rest : Bytes)
    (h : ∀ chunk ∈ chunks, chunk.length ≤ maxTlsPlaintext)
    : outcome c ⟨mac, none⟩ (frames c mac chunks ++ rest)
        = (chunks.flatten ++ (outcome c ⟨chunks.foldl (next c) mac, none⟩ rest).fst,
          (outcome c ⟨chunks.foldl (next c) mac, none⟩ rest).snd) := by
  induction chunks generalizing mac with
  | nil => rfl
  | cons chunk chunks ih =>
    rw [forall_mem_cons] at h
    have hfirst := outcome_data hc ⟨mac, none⟩ chunk (frames c (next c mac chunk) chunks ++ rest)
      h.left (by simp)
    rw [ih _ h.right] at hfirst
    rw [frames, wire, append_assoc]
    exact hfirst.trans (by simp)

theorem outcome_residuals (mac m : ShadowHmac) (rest : Bytes)
    (h : ∀ data ∈ ds, data.length ≤ maxTlsPlaintext)
    : outcome c ⟨mac, some m⟩ (residuals c m ds ++ rest)
        = outcome c ⟨mac, some (m.update ds.flatten)⟩ rest := by
  induction ds generalizing m with
  | nil => simp [residuals, wire, ShadowHmac.update]
  | cons data ds ih =>
    rw [forall_mem_cons] at h
    rw [residuals, wire, append_assoc, outcome_residual hc _ _ h.left]
    refine (ih _ h.right).trans ?_
    simp [ShadowHmac.update]

theorem outcome_residuals_of_long (mac m : ShadowHmac) (ds : List Bytes) (rest : Bytes)
    (hmax : ∀ data ∈ ds, data.length < 2 ^ 16) (hlong : ∃ data ∈ ds, maxTlsPlaintext < data.length)
    : ∃ e, outcome c ⟨mac, some m⟩ (residuals c m ds ++ rest) = ([], some e) := by
  induction ds generalizing m with
  | nil => simp at hlong
  | cons data ds ih =>
    rw [forall_mem_cons] at hmax
    rw [residuals, wire, append_assoc]
    by_cases hfirst : data.length ≤ maxTlsPlaintext
    . rw [outcome_residual hc _ _ hfirst]
      apply ih _ hmax.right
      rcases hlong with ⟨x, hx, hlong⟩
      rcases mem_cons.mp hx with rfl | hrest
      . omega
      . exact ⟨x, hrest, hlong⟩
    . exact outcome_too_long hc _ m _ (by omega) hmax.left

theorem outcome_unfinished (d : FrameDecoder) (h : Unfinished c mac part)
    : outcome c d part = ([], none) := by
  rcases h with rfl | ⟨chunk, queue, hlen, hqueue, heq⟩
  . unfold outcome
    rfl
  . exact outcome_part hc d mac hlen heq hqueue

variable {accepted : List Bytes}

theorem outcome_sent (hsent : Sent c d.dataMac accepted received)
    (hne : ∀ m ∈ d.residualMac, ∀ chunk ∈ accepted.head?,
      m.nextTag c chunk ≠ d.dataMac.nextTag c chunk)
    : outcome c d received = (accepted.flatten, none) := by
  rcases hsent.bytes with ⟨part, rfl, hpart⟩
  have hchunks := hsent.chunks
  cases accepted with
  | nil => exact outcome_unfinished hc d hpart
  | cons chunk chunks =>
    rw [forall_mem_cons] at hchunks
    have hrest := outcome_frames hc (next c d.dataMac chunk) part fun x hx =>
      (hchunks.right x hx).right
    rw [outcome_unfinished hc _ hpart, frames, append_nil] at hrest
    rw [frames, wire, append_assoc,
      outcome_data hc d chunk _ hchunks.left.right fun m hm => hne m hm chunk rfl, hrest,
      flatten_cons]

theorem length_outcome_le (d : FrameDecoder) (mac : ShadowHmac)
    (h : ∀ chunk ∈ chunks, chunk.length ≤ maxTlsPlaintext) (hpart : Unfinished c last part)
    : (outcome c d (frames c mac chunks ++ part)).fst.length ≤ chunks.flatten.length := by
  induction chunks generalizing d mac with
  | nil =>
    have hempty := outcome_unfinished hc d hpart
    change (outcome c d part).fst.length ≤ 0
    rw [hempty]
    exact Nat.zero_le _
  | cons chunk chunks ih =>
    rw [forall_mem_cons] at h
    have hnext (d' : FrameDecoder) := ih d' (next c mac chunk) h.right
    rw [frames, wire, append_assoc, flatten_cons, length_append]
    unfold outcome at hnext ⊢
    cases hprocess : processBody c d (frame c mac chunk).payload with
    | error e =>
      rw [parse_frame_of_refused hc d mac _ h.left hprocess]
      exact Nat.zero_le _
    | ok processed =>
      rcases processed with ⟨d', out⟩
      have hout : out.length ≤ chunk.length := by
        rcases processBody_eq_ok d _ d' out hprocess with rfl | rfl
        . exact Nat.zero_le _
        . rw [length_drop, length_payload_frame hc]
          omega
      rw [parse_frame hc d mac _ h.left hprocess]
      dsimp only [Parsed.cons]
      rw [length_append]
      exact Nat.add_le_add hout (hnext d')

-- The residual MAC is where the data MAC is, so the first data frame is taken for a residual one.
theorem length_outcome_sent_lt (hsent : Sent c mac accepted received)
    : (outcome c ⟨mac, some mac⟩ received).fst = []
      ∨ (outcome c ⟨mac, some mac⟩ received).fst.length < accepted.flatten.length := by
  rcases hsent.bytes with ⟨part, rfl, hpart⟩
  have hchunks := hsent.chunks
  cases accepted with
  | nil =>
    have hempty := outcome_unfinished hc ⟨mac, some mac⟩ hpart
    exact Or.inl (congrArg Prod.fst hempty)
  | cons chunk chunks =>
    right
    rw [forall_mem_cons] at hchunks
    have hpos := length_pos_iff.mpr hchunks.left.left
    have hrest := length_outcome_le hc ⟨mac, some (mac.update chunk)⟩ (next c mac chunk)
      (fun x hx => (hchunks.right x hx).right) hpart
    rw [frames] at hrest
    rw [frames, wire, append_assoc, outcome_residual hc mac _ hchunks.left.right,
      flatten_cons, length_append]
    omega

end

-- The decoder behind residual frames that were decoded ahead of the stream.
def FrameDecoder.behind (d : FrameDecoder) (mac : ShadowHmac) : FrameDecoder :=
  { d with residualMac := d.residualMac.map fun _ => mac }

def reads {ι : Type} (c : Crypto) (d : FrameDecoder) (script : Script UInt8 ι) (caps : List Nat)
    : RecordFormat.Session FrameDecoder UInt8 ι ReadError :=
  caps.foldl (Session.step (reading c)) (.start d script)

section

variable {ι : Type} (c : Crypto) (d : FrameDecoder) (script : Script UInt8 ι) (caps : List Nat)

theorem returned_isPrefix_outcome
    : (reads c d script caps).returned <+: (outcome c d script.bytes).fst :=
  Session.returned_isPrefix d

omit script in
theorem returned_of_outcome_nil (h : (outcome c d bytes).fst = [])
    : (reads (ι := ι) c d [.ready (.ok bytes)] caps).returned = [] := by
  have hreturned := returned_isPrefix_outcome (ι := ι) c d [.ready (.ok bytes)] caps
  dsimp only [Script.bytes] at hreturned
  rw [append_nil, h] at hreturned
  exact prefix_nil.mp hreturned

theorem reads_of_outcome (hflowing : script.Flowing) {whole data : Bytes}
    (hscript : script.bytes <+: whole) (h : outcome c d whole = (data, none))
    : (reads c d script caps).returned <+: data
      ∧ ∀ result ∈ (reads c d script caps).log, Session.failed result = false := by
  rcases hscript with ⟨more, rfl⟩
  have hdata : ((reading c).parse d (script.bytes ++ more)).plain = data := congrArg Prod.fst h
  have hclean : ((reading c).parse d (script.bytes ++ more)).error = none := congrArg Prod.snd h
  rcases parse_append (reading c) d script.bytes more with ⟨hplain, herror⟩
  rw [hdata] at hplain
  have hnone : ((reading c).parse d script.bytes).error = none := by
    cases he : ((reading c).parse d script.bytes).error with
    | none => rfl
    | some e =>
      rw [herror e he] at hclean
      cases hclean
  refine ⟨(returned_isPrefix_outcome c d script caps).trans hplain, ?_⟩
  exact (Session.going_foldl Session.going_start hflowing hnone).log

theorem returned_of_outcome (hflowing : script.Flowing) (hcaps : ∀ cap ∈ caps, 0 < cap)
    (h : (outcome c d script.bytes).fst = data) (hlong : data.length + script.length ≤ caps.length)
    : (reads c d script caps).returned = data := by
  have hplain : ((reading c).parse d script.bytes).plain = data := h
  have hall := (Session.going_start (f := reading c)).returned_foldl hflowing hcaps
    (by rw [hplain]; dsimp only [Session.start]; omega)
  exact hall.trans hplain

end

section

variable (c : Crypto) (psk serverRandom : Bytes) (dir : Direction)

def macInputs (ds accepted : List Bytes) : List Bytes :=
  inputs ShadowHmac.update (residualHandshakeMac psk serverRandom) ds
    ++ inputs (next c) (dataMac psk serverRandom dir) accepted
    ++ (accepted.take 1).map (serverRandom ++ ds.flatten ++ ·)

/--
The records of the backend fit into frames that the stream reads, and all that the residual MAC has
seen is not what the data MAC starts with.
-/
def Clear (early late : List Bytes) : Prop :=
  (∀ record ∈ late, (masked c psk serverRandom record).length ≤ maxTlsPlaintext)
    ∧ (early ++ late).flatMap (masked c psk serverRandom) ≠ [dir.label]

end

instance (c : Crypto) (psk serverRandom : Bytes) (dir : Direction) (early late : List Bytes)
    : Decidable (Clear c psk serverRandom dir early late) :=
  inferInstanceAs (Decidable (_ ∧ _))

def outcomeBehind (c : Crypto) (psk serverRandom : Bytes) (dir : Direction) (m : ShadowHmac)
    (late : List Bytes) (received : Bytes) : Bytes × Option ReadError :=
  outcome c ((FrameDecoder.new psk serverRandom dir).behind m)
    (residuals c m (late.map (masked c psk serverRandom)) ++ received)

section

variable (hc : HmacSized c) {early late accepted : List Bytes}
  (hsent : Sent c (dataMac psk serverRandom dir) accepted received) {m : ShadowHmac}
  (hm : m = ⟨psk, serverRandom ++ early.flatMap (masked c psk serverRandom)⟩)
  (hdir : dir = .clientToServer → early = [] ∧ late = [])

include hc hsent hm hdir

theorem outcome_of_clear (hclear : Clear c psk serverRandom dir early late)
    (hmac : dir = .serverToClient → Set.InjOn (fun x => (c.hmacSha1 psk x).take tagLen)
      {x | x ∈ macInputs c psk serverRandom dir
        ((early ++ late).map (masked c psk serverRandom)) accepted})
    : outcomeBehind c psk serverRandom dir m late received = (accepted.flatten, none) := by
  cases dir with
  | clientToServer =>
    rw [(hdir rfl).right]
    exact outcome_sent hc hsent
      (by simp [FrameDecoder.behind, FrameDecoder.new])
  | serverToClient =>
    have hlens : ∀ data ∈ late.map (masked c psk serverRandom), data.length ≤ maxTlsPlaintext := by
      rw [forall_mem_map]
      exact hclear.left
    refine (outcome_residuals hc _ m _ hlens).trans ?_
    apply outcome_sent hc hsent
    intro last hlast chunk hchunk htag
    cases hlast
    rcases head?_eq_some_iff.mp hchunk with ⟨chunks, rfl⟩
    apply hclear.right
    have hinputs : serverRandom ++ (early ++ late).flatMap (masked c psk serverRandom) ++ chunk
        = serverRandom ++ [Direction.label .serverToClient] ++ chunk := by
      apply hmac rfl
      . simp [macInputs, flatMap_def]
      . simp [macInputs, inputs, dataMac]
      . rw [hm] at htag
        simpa [ShadowHmac.nextTag, ShadowHmac.update, dataMac, FrameDecoder.new, flatMap_def]
          using htag
    exact append_cancel_left (append_cancel_right hinputs)

theorem outcome_of_not_clear (hclear : ¬Clear c psk serverRandom dir early late)
    : (outcomeBehind c psk serverRandom dir m late received).fst = []
      ∨ (outcomeBehind c psk serverRandom dir m late received).fst.length
        < accepted.flatten.length := by
  cases dir with
  | clientToServer =>
    rcases hdir rfl with ⟨rfl, rfl⟩
    exact absurd ⟨by simp, by simp⟩ hclear
  | serverToClient =>
    by_cases hlens : ∀ data ∈ late.map (masked c psk serverRandom), data.length ≤ maxTlsPlaintext
    . have hlabel : (early ++ late).flatMap (masked c psk serverRandom)
          = [Direction.label .serverToClient] := by
        by_contra hlabel
        rw [forall_mem_map] at hlens
        exact hclear ⟨hlens, hlabel⟩
      have hsame : m.update (late.map (masked c psk serverRandom)).flatten
          = dataMac psk serverRandom .serverToClient := by
        rw [hm, dataMac, ← hlabel]
        simp [ShadowHmac.update, flatMap_def]
      have hskip : outcomeBehind c psk serverRandom .serverToClient m late received
          = outcome c ⟨_, some _⟩ received :=
        outcome_residuals hc _ m _ hlens
      rw [hskip, hsame]
      exact length_outcome_sent_lt hc hsent
    . have hlong : ∃ data ∈ late.map (masked c psk serverRandom),
          maxTlsPlaintext < data.length := by
        simpa using hlens
      have hmax : ∀ data ∈ late.map (masked c psk serverRandom), data.length < 2 ^ 16 := by
        rw [forall_mem_map]
        exact fun record _ => length_masked_lt record
      have hstop : ∃ e, outcomeBehind c psk serverRandom .serverToClient m late received
          = ([], some e) :=
        outcome_residuals_of_long hc _ m _ received hmax hlong
      rcases hstop with ⟨e, hstop⟩
      exact Or.inl (congrArg Prod.fst hstop)

end

theorem stream_round_trip {c : Crypto} (hc : HmacSized c) {ι κ : Type} (psk serverRandom : Bytes)
    (dir : Direction) (early late : List Bytes)
    (hdir : dir = .clientToServer → early = [] ∧ late = [])
    (ahead residual : Bytes) (m m' : ShadowHmac)
    (hearly : taintAll c (residualHandshakeMac psk serverRandom) psk serverRandom early
      = .ok (ahead, m))
    (hlate : taintAll c m psk serverRandom late = .ok (residual, m'))
    (w : RecordWriter.Session FrameEncoder UInt8)
    (hw : Reach (RecordWriter.Session.step (writing c κ)) RecordWriter.Session.conforming
      (.start (.new psk serverRandom dir)) w)
    (hmac : dir = .serverToClient → Set.InjOn (fun x => (c.hmacSha1 psk x).take tagLen)
      {x | x ∈ macInputs c psk serverRandom dir
        ((early ++ late).map (masked c psk serverRandom)) w.accepted})
    (script : Script UInt8 ι) (hflowing : script.Flowing)
    (hscript : script.bytes <+: residual ++ w.out.received) (caps : List Nat)
    : (Clear c psk serverRandom dir early late →
        (reads c ((FrameDecoder.new psk serverRandom dir).behind m) script caps).returned
          <+: w.accepted.flatten
        ∧ ∀ result ∈ (reads c ((FrameDecoder.new psk serverRandom dir).behind m) script caps).log,
          Session.failed result = false)
      ∧ (script.bytes = residual ++ w.out.received → (∀ cap ∈ caps, 0 < cap) →
        w.accepted.flatten.length + script.length ≤ caps.length →
        ((reads c ((FrameDecoder.new psk serverRandom dir).behind m) script caps).returned
            = w.accepted.flatten
          ↔
        w.accepted = [] ∨ Clear c psk serverRandom dir early late)) := by
  have hsent : Sent c (dataMac psk serverRandom dir) w.accepted w.out.received :=
    sent_of_reach hw
  rcases taintAll_eq_ok hearly with ⟨_, hm⟩
  rcases taintAll_eq_ok hlate with ⟨rfl, _⟩
  have hclear := outcome_of_clear hc hsent hm hdir
  have hnot := outcome_of_not_clear hc hsent hm hdir
  unfold outcomeBehind at hclear hnot
  generalize (FrameDecoder.new psk serverRandom dir).behind m = d at hclear hnot
  refine ⟨fun h => reads_of_outcome c d script caps hflowing hscript (hclear h hmac), ?_⟩
  intro hall hcaps hlong
  by_cases h : Clear c psk serverRandom dir early late
  . have hplain := congrArg Prod.fst (hclear h hmac)
    rw [← hall] at hplain
    have hreturned := returned_of_outcome c d script caps hflowing hcaps hplain hlong
    exact iff_of_true hreturned (Or.inr h)
  . have hreturned := returned_isPrefix_outcome c d script caps
    rcases hnot h with hempty | hlt
    . rw [hall, hempty, prefix_nil] at hreturned
      rw [hreturned, or_iff_left h, eq_comm, flatten_eq_nil_iff]
      refine ⟨?_, by simp +contextual⟩
      intro hnil
      rw [eq_nil_iff_forall_not_mem]
      intro chunk hchunk
      exact (hsent.chunks chunk hchunk).left (hnil chunk hchunk)
    . have hle := hreturned.length_le
      rw [hall] at hle
      apply iff_of_false
      . intro heq
        rw [heq] at hle
        omega
      . rintro (hnil | hclear)
        . rw [hnil] at hlt
          exact absurd hlt (Nat.not_lt_zero _)
        . exact h hclear

namespace Sample

def psk : Bytes := ofString "pw"
def serverRandom : Bytes := (range 32).map UInt8.ofNat

def tags : List (Bytes × Bytes) :=
  [([84], [69, 48, 74, 220, 32, 12, 249, 65, 25, 225, 220, 72, 165, 11, 98, 108, 202, 49, 7, 192]),
    ([84, 234, 167], [254, 130, 138, 87, 182, 244, 53, 246, 198, 195, 201, 166, 151, 35, 210, 20,
      156, 89, 137, 93]),
    ([83, 1, 2, 3], [100, 45, 194, 91, 217, 43, 96, 2, 158, 246, 139, 89, 3, 88, 130, 171, 129, 118,
      190, 6]),
    ([83, 1, 2, 3, 100, 45, 194, 91, 4], [220, 23, 144, 253, 128, 163, 146, 41, 145, 55, 247, 220,
      50, 254, 157, 143, 215, 143, 176, 243]),
    ([84, 234, 167, 1, 2, 3], [222, 193, 224, 28, 152, 91, 208, 249, 70, 141, 202, 100, 250, 150,
      13, 87, 243, 192, 43, 199]),
    ([83], [53, 182, 117, 249, 82, 180, 217, 222, 91, 54, 37, 120, 96, 169, 182, 98, 210, 41, 21,
      18]),
    ([83, 7], [214, 41, 222, 146, 9, 113, 168, 34, 231, 70, 131, 247, 9, 203, 106, 179, 117, 31,
      135, 37]),
    ([67, 97], [255, 8, 71, 40, 182, 163, 5, 171, 207, 217, 144, 170, 132, 40, 174, 231, 121, 253,
      255, 71]),
    ([67, 97, 255, 8, 71, 40, 98], [50, 54, 5, 135, 234, 24, 81, 12, 113, 104, 172, 251, 182, 239,
      137, 7, 160, 238, 216, 82]),
    ([67, 97, 255, 8, 71, 40, 97], [71, 97, 20, 249, 219, 5, 22, 251, 90, 75, 252, 186, 140, 244,
      206, 98, 83, 60, 204, 150]),
    ([83, 120], [233, 168, 211, 4, 108, 104, 62, 215, 36, 206, 192, 134, 99, 205, 62, 58, 46, 190,
      248, 49]),
    ([120], [185, 81, 151, 54, 25, 113, 91, 151, 46, 52, 75, 181, 37, 13,
      47, 88, 21, 28, 235, 91]),
    ([27, 28, 29, 30, 31, 32, 32, 100, 101, 102, 103, 104, 105, 106, 107, 108, 109, 110, 111,
      112, 113, 114, 115, 116, 117, 118, 119, 120, 121, 122, 123, 124, 125, 126, 127, 0, 0, 0,
      0],
      [232, 92, 43, 45, 54, 0, 117, 135, 204, 35, 41, 165, 14, 13, 80, 209, 223, 107, 241, 222])]

def crypto : Crypto where
  hmacSha1 := fun _ data =>
    if data.length = 32 + 16385 then
      [252, 88, 152, 250, 121, 110, 178, 250, 202, 100, 78, 196, 130, 79, 166, 48, 234, 158, 105,
        183]
    else if data.length = 32 + 16386 then
      [91, 162, 138, 69, 75, 198, 94, 98, 208, 255, 19, 194, 166, 113, 59, 252, 151, 139, 53, 226]
    else
      match tags.find? (·.fst = data.drop 32) with
      | some (_, tag) => tag
      | none => replicate 20 0
  sha256 := fun _ =>
    [64, 28, 12, 214, 127, 210, 72, 54, 126, 233, 145, 202, 21, 177, 135, 167, 246, 95, 241, 225,
      107, 7, 28, 126, 32, 233, 2, 77, 103, 103, 244, 37]

theorem hmacSized_crypto : HmacSized crypto := by
  intro key data
  dsimp only [crypto]
  split
  . rfl
  split
  . rfl
  split
  . next x tag hfind =>
    have hall : ∀ t ∈ tags, t.snd.length = 20 := by decide
    exact hall _ (mem_of_find?_eq_some hfind)
  . rfl

def early : List Bytes := [[23, 3, 3, 0, 1, 0x14]]
def late : List Bytes := [[23, 3, 3, 0, 2, 0xaa, 0xbb]]
def shortRecord : Bytes := [23, 3, 3, 0, 1, 19]
def longRecord : Bytes := Record.encode ⟨23, (3, 3), replicate 16385 0⟩

def mac : ShadowHmac := ⟨psk, serverRandom ++ [84]⟩

def events : List (RecordWriter.Event UInt8 (WriteError Unit)) :=
  [.write [1, 2, 3] [.ready (.ok 5), .pending], .write [1, 2, 3] [.ready (.ok 7)],
    .flush (.ready (.ok ())), .write [4] [.pending], .write [4, 9] [.ready (.ok 10)]]

def written (dir : Direction) (events : List (RecordWriter.Event UInt8 (WriteError Unit)))
    : RecordWriter.Session FrameEncoder UInt8 :=
  events.foldl (RecordWriter.Session.step (writing crypto Unit))
    (.start (.new psk serverRandom dir))

def script : Script UInt8 Unit :=
  [.pending, .ready (.ok [23, 3, 3]), .ready (.ok [0, 6, 254, 130, 138, 87, 234, 167, 23]),
    .ready (.error ()), .ready (.ok [3, 3, 0, 7, 100, 45, 194, 91, 1, 2, 3]), .pending,
    .ready (.ok [23, 3, 3, 0, 5, 220, 23, 144, 253, 4])]

theorem reach_written (dir : Direction) (events : List (RecordWriter.Event UInt8 (WriteError Unit)))
    (h : Allowed (RecordWriter.Session.step (writing crypto Unit))
      RecordWriter.Session.conforming (.start (.new psk serverRandom dir)) events)
    : Reach (RecordWriter.Session.step (writing crypto Unit))
        RecordWriter.Session.conforming (.start (.new psk serverRandom dir))
        (written dir events) := by
  apply Reach.foldl
  . exact .start
  . exact h

end Sample

theorem stream_round_trip_two_chunks
    : (Sample.written .serverToClient Sample.events).accepted = [[1, 2, 3], [4]]
      ∧ (reads Sample.crypto
          ((FrameDecoder.new Sample.psk Sample.serverRandom .serverToClient).behind Sample.mac)
          Sample.script (replicate 11 2)).returned
          = (Sample.written .serverToClient Sample.events).accepted.flatten := by
  have haccepted
      : (Sample.written .serverToClient Sample.events).accepted = [[1, 2, 3], [4]] := by
    decide +kernel
  have hw := Sample.reach_written .serverToClient Sample.events (by decide +kernel)
  have hnodup : ((macInputs Sample.crypto Sample.psk Sample.serverRandom .serverToClient
      ((Sample.early ++ Sample.late).map (masked Sample.crypto Sample.psk Sample.serverRandom))
      (Sample.written .serverToClient Sample.events).accepted).map
        fun x => (Sample.crypto.hmacSha1 Sample.psk x).take tagLen).Nodup := by
    decide +kernel
  have hboth := stream_round_trip Sample.hmacSized_crypto Sample.psk Sample.serverRandom
    .serverToClient Sample.early Sample.late (fun h => by cases h) _ _ Sample.mac
    ⟨Sample.psk, Sample.serverRandom ++ [84, 234, 167]⟩ (by rfl) (by rfl) _ hw
    (fun _ => inj_on_of_nodup_map hnodup) Sample.script (by decide +kernel) (by decide +kernel)
    (replicate 11 2)
  refine ⟨haccepted, ?_⟩
  apply (hboth.right (by decide +kernel) (by decide) (by decide +kernel)).mpr
  exact Or.inr (by decide +kernel)

def Lost (c : Crypto) (psk serverRandom : Bytes) (late : List Bytes) : Prop :=
  ∃ residual m' w,
    taintAll c (residualHandshakeMac psk serverRandom) psk serverRandom late = .ok (residual, m')
    ∧ Reach (RecordWriter.Session.step (writing c Unit)) RecordWriter.Session.conforming
      (.start (.new psk serverRandom .serverToClient)) w
    ∧ Set.InjOn (fun x => (c.hmacSha1 psk x).take tagLen)
      {x | x ∈ macInputs c psk serverRandom .serverToClient
        (late.map (masked c psk serverRandom)) w.accepted}
    ∧ w.accepted = [[7]]
    ∧ (reads (ι := Unit) c (.new psk serverRandom .serverToClient)
        [.ready (.ok (residual ++ w.out.received))] [16, 16]).returned = []

namespace Sample

def oneByte : List (RecordWriter.Event UInt8 (WriteError Unit)) :=
  [.write [7] [.ready (.ok 10)]]

theorem lost_shortRecord : Lost crypto psk serverRandom [shortRecord] := by
  refine ⟨_, ⟨psk, serverRandom ++ [83]⟩, written .serverToClient oneByte, by rfl,
    reach_written .serverToClient oneByte (by decide +kernel), ?_, by decide +kernel,
    by decide +kernel⟩
  have hinj : ∀ x ∈ macInputs crypto psk serverRandom .serverToClient [[83]] [[7]],
      ∀ y ∈ macInputs crypto psk serverRandom .serverToClient [[83]] [[7]],
        (crypto.hmacSha1 psk x).take tagLen = (crypto.hmacSha1 psk y).take tagLen → x = y := by
    decide +kernel
  exact fun x hx y hy h => hinj x hx y hy h

theorem length_masked_longRecord : (masked crypto psk serverRandom longRecord).length = 16385 := by
  unfold longRecord
  rw [masked_encode rfl (by dsimp only; rw [length_replicate]; decide)]
  unfold xorWithHandshakeMask
  rw [length_mapIdx, length_replicate]

theorem lost_longRecord : Lost crypto psk serverRandom [longRecord] := by
  have hlength := length_masked_longRecord
  have htaint
      : taintAll crypto (residualHandshakeMac psk serverRandom) psk serverRandom [longRecord]
        = .ok (residuals crypto (residualHandshakeMac psk serverRandom)
        [masked crypto psk serverRandom longRecord],
        (residualHandshakeMac psk serverRandom).update
          (masked crypto psk serverRandom longRecord)) := by
    unfold taintAll longRecord
    rw [taint_encode rfl (by dsimp only; rw [length_replicate]; decide)]
    rfl
  refine ⟨_, _, written .serverToClient oneByte, htaint,
    reach_written .serverToClient oneByte (by decide +kernel), ?_, by decide +kernel, ?_⟩
  . have haccepted : (written .serverToClient oneByte).accepted = [[7]] := by decide +kernel
    apply inj_on_of_nodup_map
    rw [haccepted, map_singleton]
    generalize masked crypto psk serverRandom longRecord = data at hlength
    have hrandom : serverRandom.length = 32 := by decide
    have hresidual : (crypto.hmacSha1 psk (serverRandom ++ data)).take tagLen
        = [252, 88, 152, 250] := by
      dsimp only [crypto]
      rw [if_pos (by rw [length_append, hrandom, hlength])]
      rfl
    have htried : (crypto.hmacSha1 psk (serverRandom ++ data ++ [7])).take tagLen
        = [91, 162, 138, 69] := by
      dsimp only [crypto]
      rw [length_append, length_append, hrandom, hlength]
      rfl
    have hdata : (crypto.hmacSha1 psk (serverRandom ++ [83] ++ [7])).take tagLen
        = [214, 41, 222, 146] := by
      decide +kernel
    simp only [macInputs, inputs, residualHandshakeMac, map_append,
      map_cons, map_nil, take_succ_cons, take_zero, flatten_cons,
      flatten_nil, append_nil, hresidual, htried]
    decide
  . have hstop := outcome_residuals_of_long hmacSized_crypto
      (dataMac psk serverRandom .serverToClient) (residualHandshakeMac psk serverRandom)
      [masked crypto psk serverRandom longRecord] (written .serverToClient oneByte).out.received
      (by rw [forall_mem_singleton]; exact length_masked_lt longRecord)
      ⟨_, mem_singleton_self _, by rw [hlength]; decide⟩
    rcases hstop with ⟨e, hstop⟩
    exact returned_of_outcome_nil crypto _ [16, 16] (congrArg Prod.fst hstop)

end Sample

theorem stream_loses_data
    : HmacSized Sample.crypto
      ∧ Lost Sample.crypto Sample.psk Sample.serverRandom [Sample.shortRecord]
      ∧ Lost Sample.crypto Sample.psk Sample.serverRandom [Sample.longRecord] :=
  ⟨Sample.hmacSized_crypto, Sample.lost_shortRecord, Sample.lost_longRecord⟩

/--
A stream reads what begins with these bytes as a stream with the second decoder reads what is behind
them.
-/
def Skips (c : Crypto) (d d' : FrameDecoder) (bytes : Bytes) : Prop :=
  ∀ (ι : Type) (script : Script UInt8 ι) (caps : List Nat) (rest data : Bytes), script.Flowing →
    script.bytes <+: bytes ++ rest → outcome c d' rest = (data, none) →
      (reads c d script caps).returned <+: data
        ∧ ∀ result ∈ (reads c d script caps).log, Session.failed result = false

theorem failed_of_long (hc : HmacSized c) (d : FrameDecoder) (mac : ShadowHmac) (data : Bytes)
    (hlong : maxTlsPlaintext < data.length) (hmax : data.length < 2 ^ 16)
    : ∃ result ∈ (reads (ι := Unit) c d [.ready (.ok (frame c mac data).encode)] [1, 1]).log,
        Session.failed result = true := by
  rcases outcome_too_long hc d mac [] hlong hmax with ⟨e, houtcome⟩
  rw [append_nil] at houtcome
  have hplain : ((reading c).parse d (frame c mac data).encode).plain = [] :=
    congrArg Prod.fst houtcome
  have herror : ((reading c).parse d (frame c mac data).encode).error = some e :=
    congrArg Prod.snd houtcome
  apply (Session.going_start (f := reading c)).failed_foldl
  . simp [Session.start, Script.Flowing, encode_eq, header]
  . simp [Script.bytes, herror]
  . decide
  . simp [Session.start, Script.bytes, hplain]

theorem residual_skipped_iff {c : Crypto} (hc : HmacSized c) (psk serverRandom : Bytes)
    (dataMac mac : ShadowHmac) (r : Record) (htype : r.recordType = tlsRecordApplicationData)
    (hlen : r.payload.length ≤ 16640)
    : ∃ bytes mac', taintBackendApplicationData c mac psk serverRandom r.encode = .ok (bytes, mac')
      ∧ (Skips c ⟨dataMac, some mac⟩ ⟨dataMac, some mac'⟩ bytes ↔ r.payload.length ≤ 16384) := by
  have hmasked : (masked c psk serverRandom r.encode).length = r.payload.length := by
    rw [masked_encode htype (by omega)]
    exact length_mapIdx
  refine ⟨_, _, taint_encode htype (by omega), ?_, ?_⟩
  . intro hskips
    by_contra hlong
    have hall := (hskips Unit [.ready (.ok (frame c mac _).encode)] [1, 1] [] []
      (by simp [Script.Flowing, encode_eq, header]) prefix_rfl rfl).right
    rcases failed_of_long hc ⟨dataMac, some mac⟩ mac (masked c psk serverRandom r.encode)
      (by unfold maxTlsPlaintext; omega) (by omega) with ⟨result, hresult, hfailed⟩
    rw [hall result hresult] at hfailed
    cases hfailed
  . intro hshort ι script caps rest data hflowing hscript hrest
    apply reads_of_outcome c _ script caps hflowing hscript
    rw [outcome_residual hc mac rest (by unfold maxTlsPlaintext; omega)]
    exact hrest

theorem residual_skipped_iff_short
    : ∃ bytes mac', taintBackendApplicationData Sample.crypto Sample.mac Sample.psk
          Sample.serverRandom (Record.encode ⟨23, (3, 3), [0xaa, 0xbb]⟩) = .ok (bytes, mac')
      ∧ Skips Sample.crypto ⟨dataMac Sample.psk Sample.serverRandom .serverToClient,
        some Sample.mac⟩ ⟨dataMac Sample.psk Sample.serverRandom .serverToClient, some mac'⟩
        bytes := by
  rcases residual_skipped_iff Sample.hmacSized_crypto Sample.psk Sample.serverRandom
    (dataMac Sample.psk Sample.serverRandom .serverToClient) Sample.mac
    ⟨23, (3, 3), [0xaa, 0xbb]⟩ rfl (by decide) with ⟨bytes, mac', htaint, hiff⟩
  exact ⟨bytes, mac', htaint, hiff.mpr (by decide)⟩

theorem residual_long_record_fails
    : ∃ bytes mac', taintBackendApplicationData Sample.crypto
          (residualHandshakeMac Sample.psk Sample.serverRandom) Sample.psk Sample.serverRandom
          Sample.longRecord = .ok (bytes, mac')
      ∧ ∃ result ∈ (reads (ι := Unit) Sample.crypto
            (.new Sample.psk Sample.serverRandom .serverToClient) [.ready (.ok bytes)] [1, 1]).log,
          Session.failed result = true := by
  have hlength := Sample.length_masked_longRecord
  refine ⟨_, _, taint_encode rfl (by dsimp only; rw [length_replicate]; decide), ?_⟩
  apply failed_of_long Sample.hmacSized_crypto
  . change maxTlsPlaintext < (masked _ _ _ Sample.longRecord).length
    rw [hlength]
    decide
  . exact length_masked_lt Sample.longRecord

end V3
end Blackwire.ShadowTls
