import Blackwire.Protocol.Ss2022.Stream
import Blackwire.Protocol.Vmess.Lemmas.Nonces

/-!
This module contains the verification of how the encrypted streams shut down.
-/

namespace Blackwire

open Framer Machine

section

variable {ε : Type}

theorem complete_of_shutdown_iff {τ ρ : Type} {f : Framer τ ρ UInt8 (StreamError ε)}
    (hok : ∀ core r chunk, chunk.length ≤ f.limit → (f.append core r chunk).snd.snd = .ok ())
    {start : τ} {w : Session τ ρ UInt8}
    (hw : Reach (Session.step f) (fun s e => s.enabled e = true) (.new start) w)
    (hfailed : w.failed = none)
    : (∀ inner : Poll (Except (StreamError ε) Unit), inner = .ready (.ok ()) → w.Complete f start)
        ↔ w.out.queue = [] := by
  rcases Session.framed_of_reach hok (fun s e he => he) hw with ⟨chunks, hframed⟩
  rw [← hframed.complete_iff hfailed]
  constructor
  . intro hall
    exact hall _ rfl
  . intro hcomplete inner _
    exact hcomplete

theorem shutdown_complete_iff (a : Aead) (h : Vmess.Hashes)
    : (∀ (start : Ss2022.WriteHalf) (reader : Ss2022.ReadHalf)
          (w : Session Ss2022.WriteHalf Unit UInt8),
        Reach (Session.step (Ss2022.framer (ε := ε) a)) (fun s e => s.enabled e = true)
          (.new start) w →
        w.failed = none →
          ((∀ inner : Poll (Except (StreamError ε) Unit),
              (Ss2022.Ss2022Stream.pollShutdown ⟨reader, w.out⟩ inner).snd = .ready (.ok ()) →
                w.Complete (Ss2022.framer (ε := ε) a) start)
            ↔ w.out.queue = []))
      ∧ (∀ (start : Vmess.WriteHalf) (reader : Vmess.ReadHalf)
          (w : Session Vmess.WriteHalf (Nat → UInt8) UInt8),
        Reach (Session.step (Vmess.framer (ε := ε) a h)) (fun s e => s.enabled e = true)
          (.new start) w →
        w.failed = none →
          ((∀ inner : Poll (Except (StreamError ε) Unit),
              (Vmess.VmessStream.pollShutdown ⟨reader, w.out⟩ inner).snd = .ready (.ok ()) →
                w.Complete (Vmess.framer (ε := ε) a h) start)
            ↔ w.out.queue = [])) := by
  refine ⟨?_, ?_⟩
  . intro start reader w hw hfailed
    exact complete_of_shutdown_iff Ss2022.framer_ok hw hfailed
  . intro start reader w hw hfailed
    exact complete_of_shutdown_iff Vmess.framer_ok hw hfailed

end

def flushed {ρ : Type} (r : ρ) : List (Event ρ UInt8 (StreamError Unit)) :=
  [.write r [104, 105] [], .flush [.ready (.ok 100)] (.ready (.ok ()))]

theorem shutdown_complete_iff_flushed
    : let w := (flushed ()).foldl (Session.step (Ss2022.framer (Aead.ofTable Ss2022.sealedHello)))
        (.new ⟨Ss2022.aes256Gcm Ss2022.sevens, 2, none⟩)
      w.plain = [104, 105]
        ∧ w.Complete (Ss2022.framer (ε := Unit) (Aead.ofTable Ss2022.sealedHello))
          ⟨Ss2022.aes256Gcm Ss2022.sevens, 2, none⟩ := by
  refine ⟨by decide +kernel, ?_⟩
  apply ((shutdown_complete_iff (Aead.ofTable Ss2022.sealedHello) Vmess.someHashes).left
    ⟨Ss2022.aes256Gcm Ss2022.sevens, 2, none⟩ ⟨Ss2022.aes256Gcm Ss2022.sevens, 2, [], []⟩ _
    (Reach.foldl _ (flushed ()) .start (by decide +kernel)) rfl).mpr
    (by decide +kernel) (.ready (.ok ()))
  rfl

def unflushed {ρ : Type} (r : ρ) (buf : Bytes) : List (Event ρ UInt8 (StreamError Unit)) :=
  [.write r buf [.pending]]

theorem shutdown_drops_staged
    : (let start : Ss2022.WriteHalf := ⟨Ss2022.aes256Gcm Ss2022.sevens, 2, none⟩
        let f := Ss2022.framer (ε := Unit) (Aead.ofTable Ss2022.sealedHello)
        let w := (unflushed () [104, 105]).foldl (Session.step f) (.new start)
        let stream : Ss2022.Ss2022Stream := ⟨⟨Ss2022.aes256Gcm Ss2022.sevens, 2, [], []⟩, w.out⟩
        Allowed (Session.step f) (fun s e => s.enabled e = true) (.new start)
            (unflushed () [104, 105])
          ∧ w.plain = [104, 105] ∧ w.failed = none
          ∧ (stream.pollShutdown (.ready (.ok ()) : Poll (Except (StreamError Unit) Unit))).snd
            = .ready (.ok ())
          ∧ w.out.received = []
          ∧ ¬w.Complete f start)
      ∧ (let stream := Vmess.VmessStream.client Vmess.someHashes Vmess.someKey Vmess.someIv
          .aes128Gcm 0x10
        let f := Vmess.framer (ε := Unit) (Aead.ofTable Vmess.sealedBytes) Vmess.someHashes
        let w := (unflushed UInt8.ofNat [97]).foldl (Session.step f) (.new stream.writer.core)
        let stream : Vmess.VmessStream := ⟨stream.reader, w.out⟩
        Allowed (Session.step f) (fun s e => s.enabled e = true)
            (.new (Vmess.VmessStream.client Vmess.someHashes Vmess.someKey Vmess.someIv .aes128Gcm
              0x10).writer.core)
            (unflushed UInt8.ofNat [97])
          ∧ w.plain = [97]
          ∧ (stream.pollShutdown (.ready (.ok ()) : Poll (Except (StreamError Unit) Unit))).snd
            = .ready (.ok ())
          ∧ w.out.received = []) := by
  unfold Session.Complete
  decide +kernel

end Blackwire
