import Blackwire.Lib.Inbox

/-!
This module contains readers that fill a buffer up to a length and never take more from the stream
below than the buffer has room for.
-/

inductive Filled (ε : Type) where
  | full
  | waits
  | closed
  | failed (e : ε)
deriving DecidableEq

namespace Script

open List

variable {α ε : Type}

def fill (len : Nat) (buf : List α) (script : Script α ε) : List α × Filled ε × Script α ε :=
  if buf.length < len then
    match script with
    | [] => (buf, .waits, [])
    | .pending :: script => (buf, .waits, script)
    | .ready (.error e) :: script => (buf, .failed e, script)
    | .ready (.ok segment) :: script =>
      if segment.isEmpty then
        (buf, .closed, script)
      else if segment.length ≤ len - buf.length then
        fill len (buf ++ segment) script
      else
        -- What there is no room for stays in the stream below.
        (buf ++ segment.take (len - buf.length), .full,
          .ready (.ok (segment.drop (len - buf.length))) :: script)
  else
    (buf, .full, script)

structure Fills (len : Nat) (buf : List α) (script : Script α ε)
    (out : List α × Filled ε × Script α ε) : Prop where
  taken : ∃ more, out.fst = buf ++ more ∧ more ++ out.snd.snd.bytes = script.bytes
  fits : buf.length ≤ len → out.fst.length ≤ len
  full : out.snd.fst = .full ↔ len ≤ out.fst.length
  closed : out.snd.fst = .closed → .ready (.ok []) ∈ script
  failed : ∀ e, out.snd.fst = .failed e → .ready (.error e) ∈ script
  errors : ∀ e, .ready (.error e) ∈ out.snd.snd → .ready (.error e) ∈ script
  flowing : script.Flowing → out.snd.snd.Flowing
  length : out.snd.snd.length ≤ script.length
  fewer : out.snd.fst ≠ .full → out.snd.snd.length < script.length ∨ out.snd.snd = []

theorem Flowing.tail {script : Script α ε} (h : Script.Flowing (answer :: script))
    : script.Flowing :=
  fun hmem => h (mem_cons_of_mem _ hmem)

theorem fills_stopped (h : buf.length < len) (script : Script α ε)
    (hbytes : Script.bytes [answer] = []) (hfull : filled ≠ .full)
    (hclosed : filled = .closed → answer = .ready (.ok []))
    (hfailed : ∀ e, filled = .failed e → answer = .ready (.error e))
    : Fills len buf (answer :: script) (buf, filled, script) where
  taken := by
    refine ⟨[], (append_nil buf).symm, ?_⟩
    match answer with
    | .pending => rfl
    | .ready (.error _) => rfl
    | .ready (.ok segment) =>
      simp only [bytes, append_nil] at hbytes ⊢
      rw [hbytes]
  fits := id
  full := by
    simp only [hfull, false_iff, Nat.not_le]
    exact h
  closed hfilled := by
    rw [hclosed hfilled]
    apply mem_cons_self
  failed e hfilled := by
    rw [hfailed e hfilled]
    apply mem_cons_self
  errors e hmem := mem_cons_of_mem _ hmem
  flowing := Flowing.tail
  length := Nat.le_succ _
  fewer _ := .inl (Nat.lt_succ_self _)

theorem fill_fills (len : Nat) (buf : List α) (script : Script α ε)
    : Fills len buf script (script.fill len buf) := by
  induction script generalizing buf with
  | nil =>
    unfold fill
    split
    next h =>
      exact ⟨⟨[], by simp, rfl⟩, id, by simpa using h, by simp, by simp, by simp, id, Nat.le_refl _,
        fun _ => .inr rfl⟩
    next h =>
      exact ⟨⟨[], by simp, rfl⟩, id, by simpa using h, by simp, by simp, by simp, id, Nat.le_refl _,
        fun hfull => absurd rfl hfull⟩
  | cons answer script ih =>
    unfold fill
    split
    next h =>
      match answer with
      | .pending => apply fills_stopped h <;> simp [bytes]
      | .ready (.error e) => apply fills_stopped h <;> simp [bytes]
      | .ready (.ok segment) =>
        dsimp only
        split
        next hempty =>
          have hempty : segment = [] := by simpa using hempty
          subst hempty
          apply fills_stopped h <;> simp [bytes]
        next hne =>
          split
          next hroom =>
            have hrest := ih (buf ++ segment)
            rcases hrest.taken with ⟨more, hout, hbytes⟩
            refine ⟨⟨segment ++ more, ?_, ?_⟩, ?_, hrest.full, ?_, ?_, ?_, ?_, ?_, ?_⟩
            . rw [hout, append_assoc]
            . rw [bytes, ← hbytes, append_assoc]
            . intro hfits
              apply hrest.fits
              rw [length_append]
              omega
            . exact fun hclosed => mem_cons_of_mem _ (hrest.closed hclosed)
            . exact fun e hfailed => mem_cons_of_mem _ (hrest.failed e hfailed)
            . exact fun e hmem => mem_cons_of_mem _ (hrest.errors e hmem)
            . exact fun hflowing => hrest.flowing hflowing.tail
            . exact Nat.le_succ_of_le hrest.length
            . exact fun _ => .inl (Nat.lt_succ_of_le hrest.length)
          next hroom =>
            have hlength : (buf ++ segment.take (len - buf.length)).length = len := by
              rw [length_append, length_take]
              omega
            refine ⟨⟨segment.take (len - buf.length), rfl, ?_⟩, ?_, ?_, by simp, by simp, ?_, ?_,
              Nat.le_refl _, by simp⟩
            . rw [bytes, bytes, ← append_assoc, take_append_drop]
            . exact fun _ => Nat.le_of_eq hlength
            . exact iff_of_true rfl (Nat.le_of_eq hlength.symm)
            . intro e hmem
              rw [mem_cons] at hmem ⊢
              rcases hmem with hmem | hmem
              . cases hmem
              . exact .inr hmem
            . intro hflowing hmem
              rcases mem_cons.mp hmem with hmem | hmem
              . simp only [Poll.ready.injEq, Except.ok.injEq, nil_eq, drop_eq_nil_iff]
                  at hmem
                omega
              . exact hflowing.tail hmem
    next h =>
      exact ⟨⟨[], by simp, rfl⟩, id, by simpa using h, by simp, by simp, fun _ => id, id,
        Nat.le_refl _, fun hfull => absurd rfl hfull⟩

namespace Fills

theorem length_eq (h : Fills len buf script out) (hroom : buf.length ≤ len)
    (hfull : out.snd.fst = .full)
    : out.fst.length = len :=
  Nat.le_antisymm (h.fits hroom) (h.full.mp hfull)

theorem length_lt (h : Fills len buf script out) (hfull : out.snd.fst ≠ .full)
    : out.fst.length < len := by
  apply Nat.lt_of_not_le
  intro hle
  exact hfull (h.full.mpr hle)

end Fills

structure Moved (raw : List α) (script : Script α ε) (raw' : List α) (rest : Script α ε)
    : Prop where
  taken : ∃ more, raw' = raw ++ more ∧ more ++ rest.bytes = script.bytes
  errors : ∀ e, .ready (.error e) ∈ rest → .ready (.error e) ∈ script
  flowing : script.Flowing → rest.Flowing
  length : rest.length ≤ script.length

namespace Moved

variable {script rest last : Script α ε}

variable (raw script) in
theorem refl : Moved raw script raw script :=
  ⟨⟨[], (append_nil _).symm, rfl⟩, fun _ => id, id, Nat.le_refl _⟩

theorem trans (h : Moved raw script raw' rest) (h' : Moved raw' rest raw'' last)
    : Moved raw script raw'' last where
  taken := by
    rcases h.taken with ⟨more, rfl, hbytes⟩
    rcases h'.taken with ⟨more', rfl, hbytes'⟩
    refine ⟨more ++ more', append_assoc _ _ _, ?_⟩
    rw [append_assoc, hbytes', hbytes]
  errors e he := h.errors e (h'.errors e he)
  flowing hflowing := h'.flowing (h.flowing hflowing)
  length := Nat.le_trans h'.length h.length

theorem bytes (h : Moved raw script raw' rest) : raw' ++ rest.bytes = raw ++ script.bytes := by
  rcases h.taken with ⟨more, rfl, hbytes⟩
  rw [append_assoc, hbytes]

theorem of_fills (h : Fills len buf script out) (front : List α)
    : Moved (front ++ buf) script (front ++ out.fst) out.snd.snd where
  taken := by
    rcases h.taken with ⟨more, hout, hbytes⟩
    exact ⟨more, by rw [hout, append_assoc], hbytes⟩
  errors := h.errors
  flowing := h.flowing
  length := h.length

theorem fewer (h : Moved raw script raw' rest) (hlast : last.length < rest.length ∨ last = [])
    : last.length < script.length ∨ last = [] := by
  have hlength := h.length
  rcases hlast with hless | hempty
  . exact .inl (by omega)
  . exact .inr hempty

end Moved

end Script
