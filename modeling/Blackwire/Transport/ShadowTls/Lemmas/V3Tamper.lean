import Blackwire.Transport.ShadowTls.V3
import Blackwire.Transport.ShadowTls.Lemmas.V3Stream

/-!
This module contains what the MACs of version three of ShadowTLS protect.
-/

namespace Blackwire.ShadowTls
namespace V3

open Bytes RecordFormat List Machine

def runs (c : Crypto) (mac : ShadowHmac) : List Bytes → List (Bytes × Bytes)
  | [] => []
  | chunk :: chunks =>
    (mac.nextTag c chunk, chunk)
      :: (runs c (next c mac chunk) chunks).map fun r =>
        (r.fst, chunk ++ mac.nextTag c chunk ++ r.snd)

def merged (c : Crypto) (mac : ShadowHmac) : List Bytes → List Bytes
  | [] => []
  | chunk :: chunks =>
    (runs c mac (chunk :: chunks)).tail.map (fun r => r.fst ++ r.snd)
      ++ merged c (next c mac chunk) chunks

section

variable (c : Crypto) (mac : ShadowHmac)

theorem inputs_eq_map_runs (chunks : List Bytes)
    : inputs (next c) mac chunks = (runs c mac chunks).map fun r => mac.data ++ r.snd := by
  induction chunks generalizing mac with
  | nil => rfl
  | cons chunk chunks ih =>
    rw [inputs, ih, runs, map_cons, map_map]
    congr 1
    apply map_congr_left
    simp [next, ShadowHmac.update]

theorem nextTag_of_mem_runs
    : ∀ r ∈ runs c mac chunks, mac.nextTag c r.snd = r.fst := by
  induction chunks generalizing mac with
  | nil =>
    intro r hr
    cases hr
  | cons chunk chunks ih =>
    rw [runs, forall_mem_cons, forall_mem_map]
    refine ⟨rfl, ?_⟩
    intro r hr
    have htag := ih (next c mac chunk) r hr
    simpa [ShadowHmac.nextTag, next, ShadowHmac.update] using htag

theorem inputs_append (go : ShadowHmac → Bytes → ShadowHmac) (front rest : List Bytes)
    : inputs go mac (front ++ rest)
        = inputs go mac front ++ inputs go (front.foldl go mac) rest := by
  induction front generalizing mac with
  | nil => rfl
  | cons chunk front ih =>
    rw [cons_append, inputs, ih, inputs, foldl_cons, cons_append]

theorem merged_subset_append (front rest : List Bytes)
    : merged c (front.foldl (next c) mac) rest ⊆ merged c mac (front ++ rest) := by
  induction front generalizing mac with
  | nil => exact List.Subset.refl _
  | cons chunk front ih =>
    exact List.Subset.trans (ih _) (subset_append_right _ _)

theorem data_isPrefix_foldl (chunks : List Bytes)
    : mac.data <+: (chunks.foldl (next c) mac).data := by
  induction chunks generalizing mac with
  | nil => exact prefix_rfl
  | cons chunk chunks ih =>
    refine List.IsPrefix.trans ?_ (ih _)
    simp [next, ShadowHmac.update]

end

theorem length_lt_of_mem_inputs (hc : HmacSized c) (mac : ShadowHmac)
    : ∀ x ∈ inputs (next c) mac chunks, x.length < (chunks.foldl (next c) mac).data.length := by
  induction chunks generalizing mac with
  | nil =>
    intro x hx
    cases hx
  | cons chunk chunks ih =>
    rw [inputs, forall_mem_cons]
    refine ⟨?_, ih _⟩
    have hle := (data_isPrefix_foldl c (next c mac chunk) chunks).length_le
    have htag := length_nextTag hc mac chunk
    unfold tagLen at htag
    rw [foldl_cons]
    simp only [next, ShadowHmac.update, length_append] at hle ⊢
    omega

/--
Every frame that is taken as data has a tag of an input that a tag was computed of.
-/
def Unforged (c : Crypto) (d : FrameDecoder) (bytes : Bytes) (computed : List Bytes) : Prop :=
  ∀ r ∈ ((reading c).parse d bytes).records, r.fst.takesData c r.snd.snd = true →
    r.fst.dataMac.data ++ r.snd.snd.drop tagLen ∈ computed

instance (c : Crypto) (d : FrameDecoder) (bytes : Bytes) (computed : List Bytes)
    : Decidable (Unforged c d bytes computed) :=
  inferInstanceAs (Decidable (∀ r ∈ ((reading c).parse d bytes).records, _))

theorem Unforged.tail {header body rest data : Bytes}
    (h : Unforged c d (header ++ body ++ rest) computed) (hheader : header.length = tlsHeaderLen)
    (hlen : bodyLen header = .ok len) (hbody : body.length = len)
    (hprocess : processBody c d body = .ok (d', data))
    : (d.takesData c body = true → d.dataMac.data ++ body.drop tagLen ∈ computed)
      ∧ Unforged c d' rest computed := by
  unfold Unforged at h
  rw [parse_record (f := reading c) hheader hlen hbody hprocess] at h
  exact forall_mem_cons.mp h

section

variable (hc : HmacSized c) (mac : ShadowHmac) (others : List Bytes)
  (hothers : ∀ x ∈ others, ¬mac.data <+: x)

include hc hothers

theorem mem_runs_of_computed (h : (front.foldl (next c) mac).data ++ data
      ∈ inputs (next c) mac (front ++ rest) ++ others)
    : ∃ r ∈ runs c (front.foldl (next c) mac) rest, r.snd = data := by
  rw [inputs_append, append_assoc, mem_append] at h
  rcases h with hfront | h
  . have hlt := length_lt_of_mem_inputs hc mac _ hfront
    rw [length_append] at hlt
    omega
  . rcases mem_append.mp h with hrest | hother
    . rw [inputs_eq_map_runs, mem_map] at hrest
      rcases hrest with ⟨r, hr, heq⟩
      exact ⟨r, hr, append_cancel_left heq⟩
    . have hstart := data_isPrefix_foldl c mac front
      exact absurd (hstart.trans (prefix_append _ _)) (hothers _ hother)

theorem next_or_merged (front rest : List Bytes) (d d' : FrameDecoder) (body : Bytes)
    (hd : d.dataMac = front.foldl (next c) mac)
    (hverify : d.verifyPayload c body = .ok (.data, d'))
    (h : d.dataMac.data ++ body.drop tagLen ∈ inputs (next c) mac (front ++ rest) ++ others)
    : (∃ chunk chunks, rest = chunk :: chunks ∧ body.drop tagLen = chunk
        ∧ d'.dataMac = (front ++ [chunk]).foldl (next c) mac)
      ∨ body ∈ merged c mac (front ++ rest) := by
  rw [hd] at h
  rcases mem_runs_of_computed hc mac others hothers h with ⟨r, hr, hdata⟩
  have htag := nextTag_of_mem_runs c _ r hr
  rcases FrameDecoder.verifyPayload_eq_ok hverify with ⟨hkind, _⟩ | ⟨_, hcandidate, hnext⟩
  . cases hkind
  rw [hd] at hcandidate hnext
  cases rest with
  | nil => cases hr
  | cons chunk chunks =>
    rcases mem_cons.mp hr with rfl | htail
    . refine Or.inl ⟨chunk, chunks, rfl, hdata.symm, ?_⟩
      rw [hnext, ← hdata, foldl_append]
      rfl
    . right
      apply merged_subset_append
      rw [merged, mem_append, mem_map]
      refine Or.inl ⟨r, htail, ?_⟩
      rw [hdata] at htag
      rw [← htag, hcandidate, hdata, take_append_drop]

theorem plain_isPrefix (d : FrameDecoder) (bytes : Bytes) (front rest : List Bytes)
    (hd : d.dataMac = front.foldl (next c) mac)
    (hforged : Unforged c d bytes (inputs (next c) mac (front ++ rest) ++ others))
    (hmerged : ∀ r ∈ ((reading c).parse d bytes).records,
      r.snd.snd ∉ merged c mac (front ++ rest))
    : ((reading c).parse d bytes).plain <+: rest.flatten := by
  induction d, bytes using (reading c).parse_induction generalizing front rest with
  | short d bytes h =>
    rw [h]
    exact nil_prefix
  | refused d bytes e h hmore =>
    rw [h]
    exact nil_prefix
  | record d header body bytes len d' data hheader hlen hbody hprocess ih =>
    rcases hforged.tail hheader hlen hbody hprocess with ⟨hcomputed, hforgedRest⟩
    rw [parse_record (f := reading c) hheader hlen hbody hprocess]
      at hmerged ⊢
    rcases forall_mem_cons.mp hmerged with ⟨hwhole, hmergedRest⟩
    change processBody c d body = .ok (d', data) at hprocess
    unfold processBody at hprocess
    split at hprocess
    . next last hverify =>
      cases hprocess
      rcases FrameDecoder.verifyPayload_eq_ok hverify with ⟨_, hsame⟩ | ⟨hkind, _⟩
      . exact ih front rest (hsame.trans hd) hforgedRest hmergedRest
      . cases hkind
    . next last hverify =>
      cases hprocess
      have htakes : d.takesData c body = true := by
        rw [FrameDecoder.takesData, hverify]
      rcases next_or_merged hc mac others hothers front rest d _ body hd hverify
        (hcomputed htakes) with ⟨chunk, chunks, rfl, rfl, hnext⟩ | hbad
      . rw [append_cons] at hforgedRest hmergedRest
        have hrest := ih _ chunks hnext hforgedRest hmergedRest
        exact (prefix_append_right_inj _).mpr hrest
      . exact absurd hbad hwhole
    . cases hprocess

end

def Direction.other : Direction → Direction
  | clientToServer => serverToClient
  | serverToClient => clientToServer

def computed (c : Crypto) (psk serverRandom : Bytes) (dir : Direction) (chunks own ds : List Bytes)
    (elsewhere : List Bytes) : List Bytes :=
  inputs (next c) (dataMac psk serverRandom dir) chunks
    ++ (inputs (next c) (dataMac psk serverRandom dir.other) own
      ++ inputs ShadowHmac.update (residualHandshakeMac psk serverRandom) ds ++ elsewhere)

-- The residual MAC has not seen the label, and nothing else starts like the frames either.
def Separate (serverRandom : Bytes) (dir : Direction) (ds elsewhere : List Bytes) : Prop :=
  ds.flatten.head? ≠ some dir.label ∧ ∀ x ∈ elsewhere, ¬serverRandom ++ [dir.label] <+: x

instance (serverRandom : Bytes) (dir : Direction) (ds elsewhere : List Bytes)
    : Decidable (Separate serverRandom dir ds elsewhere) :=
  inferInstanceAs (Decidable (_ ∧ _))

theorem isPrefix_of_mem_inputs_update (mac : ShadowHmac) (ds : List Bytes)
    : ∀ x ∈ inputs ShadowHmac.update mac ds, x <+: mac.data ++ ds.flatten := by
  induction ds generalizing mac with
  | nil =>
    intro x hx
    cases hx
  | cons data ds ih =>
    rw [inputs, forall_mem_cons, flatten_cons, ← append_assoc]
    exact ⟨prefix_append _ _, ih (mac.update data)⟩

theorem data_isPrefix_of_mem_inputs
    : ∀ x ∈ inputs (next c) mac chunks, mac.data <+: x := by
  rw [inputs_eq_map_runs, forall_mem_map]
  exact fun r _ => prefix_append _ _

theorem label_not_isPrefix (h : Separate serverRandom dir ds elsewhere)
    : ∀ x ∈ inputs (next c) (dataMac psk serverRandom dir.other) own
        ++ inputs ShadowHmac.update (residualHandshakeMac psk serverRandom) ds ++ elsewhere,
      ¬serverRandom ++ [dir.label] <+: x := by
  rw [forall_mem_append, forall_mem_append]
  refine ⟨⟨?_, ?_⟩, h.right⟩
  . intro x hx hlabel
    have hother := data_isPrefix_of_mem_inputs x hx
    have hsame := prefix_of_prefix_length_le hlabel hother
      (by simp [dataMac])
    cases dir <;> simp [dataMac, Direction.other, Direction.label] at hsame
  . intro x hx hlabel
    have hseen := hlabel.trans (isPrefix_of_mem_inputs_update _ ds x hx)
    apply h.left
    rcases (prefix_append_right_inj serverRandom).mp hseen with ⟨rest, hrest⟩
    rw [← hrest]
    rfl

theorem tampering_rejected {c : Crypto} (hc : HmacSized c) (ι κ : Type)
    : (∀ (psk serverRandom : Bytes) (dir : Direction)
        (w : RecordWriter.Session FrameEncoder UInt8) (k : Nat) (d : FrameDecoder)
        (own ds elsewhere : List Bytes) (script : Script UInt8 ι) (caps : List Nat),
        Reach (RecordWriter.Session.step (writing c κ)) RecordWriter.Session.conforming
          (.start (.new psk serverRandom dir)) w →
        d.dataMac = (w.chunks.take k).foldl (next c) (dataMac psk serverRandom dir) →
        Unforged c d script.bytes
          (computed c psk serverRandom dir w.chunks own ds elsewhere) →
        Separate serverRandom dir ds elsewhere →
        (∀ body ∈ (reading c).bodies script.bytes,
          body ∉ merged c (dataMac psk serverRandom dir) w.chunks) →
        (reads c d script caps).returned <+: (w.chunks.drop k).flatten)
      ∧ ∀ (record psk random : Bytes) (offset : Nat), sessionIdOffset record = .ok offset →
        random.length = sessionIdRandomLen →
        ∃ signed session, signClientHelloSessionId c record psk random = .ok (signed, session)
          ∧ verifyClientHelloSessionId c signed psk = .ok session := by
  refine ⟨?_, ?_⟩
  . intro psk serverRandom dir w k d own ds elsewhere script caps _ hd hforged hseparate hmerged
    have hchunks := take_append_drop k w.chunks
    have hplain := plain_isPrefix hc (dataMac psk serverRandom dir) _
      (label_not_isPrefix hseparate) d script.bytes
      (w.chunks.take k) (w.chunks.drop k) hd (by rw [hchunks]; exact hforged)
      (by rw [hchunks]; exact fun r hr => hmerged _ (mem_bodies d r hr))
    exact (returned_isPrefix_outcome c d script caps).trans hplain
  . intro record psk random offset hoffset hrandom
    exact verify_sign hc psk hrandom hoffset

namespace Sample

def twoBytes : List (RecordWriter.Event UInt8 (WriteError Unit)) :=
  [.write [97] [.ready (.ok 10)], .write [98] [.ready (.ok 10)]]

def replayed : Script UInt8 Unit :=
  [.ready (.ok [23, 3, 3, 0, 5, 255, 8, 71, 40, 97]),
    .ready (.ok [23, 3, 3, 0, 5, 255, 8, 71, 40, 97]),
    .ready (.ok [23, 3, 3, 0, 5, 50, 54, 5, 135, 98])]

def mergedFrame : Script UInt8 Unit :=
  [.ready (.ok [23, 3, 3, 0, 10, 50, 54, 5, 135, 97, 255, 8, 71, 40, 98])]

def shortened : Script UInt8 Unit :=
  [.ready (.ok [23, 3, 3, 0, 5, 233, 168, 211, 4, 120])]

def hello : Bytes :=
  [22, 3, 1, 0, 71, 1, 0, 0, 67, 3, 3] ++ (range 32).map (fun i => UInt8.ofNat (i + 1)) ++ [32]
    ++ replicate 32 0

def sessionRandom : Bytes :=
  (range 28).map fun i => UInt8.ofNat (i + 100)

end Sample

theorem tampering_rejected_replay
    : (Sample.written .clientToServer Sample.twoBytes).chunks = [[97], [98]]
      ∧ (reads Sample.crypto (.new Sample.psk Sample.serverRandom .clientToServer) Sample.replayed
          [16, 16, 16]).returned
        <+: (Sample.written .clientToServer Sample.twoBytes).chunks.flatten
      ∧ ∃ signed session,
        signClientHelloSessionId Sample.crypto Sample.hello Sample.psk Sample.sessionRandom
          = .ok (signed, session)
        ∧ verifyClientHelloSessionId Sample.crypto signed Sample.psk = .ok session := by
  have hboth := tampering_rejected Sample.hmacSized_crypto Unit Unit
  refine ⟨by decide +kernel, ?_, ?_⟩
  . exact hboth.left Sample.psk Sample.serverRandom .clientToServer _ 0 _ [[1, 2, 3], [4]] [[84]]
      [(Sample.hello.drop 5).take 39 ++ Sample.sessionRandom ++ [0, 0, 0, 0]] Sample.replayed
        [16, 16, 16]
      (Sample.reach_written .clientToServer Sample.twoBytes (by decide +kernel)) rfl
      (by decide +kernel) (by decide +kernel) (by decide +kernel)
  . exact hboth.right Sample.hello Sample.psk Sample.sessionRandom 44 (by decide +kernel)
      (by decide)

theorem tampering_accepted
    : HmacSized Sample.crypto
      ∧ (∃ w, Reach (RecordWriter.Session.step (writing Sample.crypto Unit))
          RecordWriter.Session.conforming
          (.start (.new Sample.psk Sample.serverRandom .clientToServer)) w
        ∧ Unforged Sample.crypto (.new Sample.psk Sample.serverRandom .clientToServer)
          Sample.mergedFrame.bytes
          (computed Sample.crypto Sample.psk Sample.serverRandom .clientToServer w.chunks [] [] [])
        ∧ w.chunks.flatten = [97, 98]
        ∧ (reads Sample.crypto (.new Sample.psk Sample.serverRandom .clientToServer)
          Sample.mergedFrame [16]).returned = [97, 255, 8, 71, 40, 98])
      ∧ (∃ w, Reach (RecordWriter.Session.step (writing Sample.crypto Unit))
          RecordWriter.Session.conforming
          (.start (.new Sample.psk Sample.serverRandom .serverToClient)) w
        ∧ Unforged Sample.crypto (.new Sample.psk Sample.serverRandom .serverToClient)
          Sample.shortened.bytes
          (computed Sample.crypto Sample.psk Sample.serverRandom .serverToClient w.chunks []
            [[0x53, 120]] [])
        ∧ w.chunks.flatten = []
        ∧ (reads Sample.crypto (.new Sample.psk Sample.serverRandom .serverToClient)
          Sample.shortened [16]).returned = [120]) := by
  refine ⟨Sample.hmacSized_crypto, ⟨Sample.written .clientToServer Sample.twoBytes, ?_⟩,
    ⟨Sample.written .serverToClient [], ?_⟩⟩
  . exact ⟨Sample.reach_written .clientToServer Sample.twoBytes (by decide +kernel),
      by decide +kernel, by decide +kernel, by decide +kernel⟩
  . exact ⟨Sample.reach_written .serverToClient [] trivial, by decide +kernel, by decide +kernel,
      by decide +kernel⟩

end V3
end Blackwire.ShadowTls
