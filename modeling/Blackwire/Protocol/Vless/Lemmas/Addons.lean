import Blackwire.Protocol.Vless.Codec

/-!
This module contains the verification of the parser for the addons from `Vless.Codec`.
-/

namespace Blackwire.Vless

open Bytes

theorem readVarint.go_cursor (rest : List UInt8) (cursor shift : Nat) (result value : UInt64)
    (cursor' : Nat) (h : go rest cursor shift result = some (value, cursor'))
    : cursor < cursor' ∧ cursor' ≤ cursor + rest.length := by
  induction rest generalizing cursor shift result with
  | nil => simp [go] at h
  | cons byte rest ih =>
    unfold go at h
    split at h
    . simp only [Option.some.injEq, Prod.mk.injEq] at h
      simp only [List.length_cons]
      omega
    . split at h
      . simp at h
      . have := ih _ _ _ h
        simp only [List.length_cons]
        omega

variable {data : List UInt8}

theorem readVarint_cursor (hcursor : cursor ≤ data.length)
    (h : readVarint data cursor = some (value, cursor'))
    : cursor < cursor' ∧ cursor' ≤ data.length := by
  have := readVarint.go_cursor _ _ _ _ _ _ h
  rw [List.length_drop] at this
  omega

inductive Field where
  | payload (number : UInt32) (start len : Nat)
  | skipped (next : Nat)
deriving DecidableEq

def fieldAt (data : List UInt8) (cursor : Nat) : Option Field := do
  let (tag, cursor) ← readVarint data cursor
  match (wireType tag).toNat with
  | 2 =>
    let (len, start) ← readVarint data cursor
    return .payload (fieldNumber tag) start len.toNat
  | 0 =>
    let (_, next) ← readVarint data cursor
    return .skipped next
  | 1 => return .skipped (cursor + 8)
  | 5 => return .skipped (cursor + 4)
  | _ => none

-- The payload is the flow that the parser is looking for.
def IsFlow (data : List UInt8) (number : UInt32) (start len : Nat) : Prop :=
  number = 1 ∧ (fromUtf8 ((data.drop start).take len)).isSome

inductive FieldStart (data : List UInt8) : Nat → Prop where
  | zero : FieldStart data 0
  | payload (cursor : Nat) (number : UInt32) (start len : Nat) (hcursor : FieldStart data cursor)
      (hlt : cursor < data.length) (hfield : fieldAt data cursor = some (.payload number start len))
      (hfits : start + len ≤ data.length) (hflow : ¬ IsFlow data number start len)
      : FieldStart data (start + len)
  | skipped (cursor next : Nat) (hcursor : FieldStart data cursor) (hlt : cursor < data.length)
      (hfield : fieldAt data cursor = some (.skipped next))
      : FieldStart data next

/--
No field of the addons announces a payload that would end at `2 ^ 64` or later.
-/
def LengthsFit (data : List UInt8) : Prop :=
  ∀ cursor number start len,
    FieldStart data cursor
      → cursor < data.length
      → fieldAt data cursor = some (.payload number start len)
      → start + len < 2 ^ 64

theorem fieldAt_payload (hcursor : cursor ≤ data.length)
    (h : fieldAt data cursor = some (.payload number start len))
    : ∃ tag lenCursor value,
        readVarint data cursor = some (tag, lenCursor)
          ∧ (wireType tag).toNat = 2
          ∧ readVarint data lenCursor = some (value, start)
          ∧ len = value.toNat
          ∧ cursor < start
          ∧ start ≤ data.length := by
  unfold fieldAt at h
  cases htag : readVarint data cursor with
  | none => simp [htag] at h
  | some tagRead =>
    rcases tagRead with ⟨tag, lenCursor⟩
    have htagCursor := readVarint_cursor hcursor htag
    simp only [htag, Option.bind_eq_bind, Option.bind_some] at h
    split at h
    . next hwire =>
      cases hlen : readVarint data lenCursor with
      | none => simp [hlen] at h
      | some lenRead =>
        rcases lenRead with ⟨value, start'⟩
        have hlenCursor := readVarint_cursor htagCursor.right hlen
        simp only [hlen, Option.bind_some, Option.pure_def, Option.some.injEq,
          Field.payload.injEq] at h
        refine ⟨tag, lenCursor, value, rfl, hwire, ?_, h.right.right.symm, ?_⟩
        . rw [hlen, h.right.left]
        . omega
    . cases hval : readVarint data lenCursor with
      | none => simp [hval] at h
      | some valRead => simp [hval] at h
    all_goals simp at h

theorem fieldAt_skipped {data : List UInt8} {cursor next : Nat} (hcursor : cursor ≤ data.length)
    (h : fieldAt data cursor = some (.skipped next))
    : cursor < next ∧ next ≤ data.length + 8 := by
  unfold fieldAt at h
  cases htag : readVarint data cursor with
  | none => simp [htag] at h
  | some tagRead =>
    rcases tagRead with ⟨tag, cursor'⟩
    have htagCursor := readVarint_cursor hcursor htag
    simp only [htag, Option.bind_eq_bind, Option.bind_some] at h
    split at h
    . cases hlen : readVarint data cursor' with
      | none => simp [hlen] at h
      | some lenRead => simp [hlen] at h
    . cases hval : readVarint data cursor' with
      | none => simp [hval] at h
      | some valRead =>
        have hvalCursor := readVarint_cursor htagCursor.right hval
        simp only [hval, Option.bind_some, Option.pure_def, Option.some.injEq,
          Field.skipped.injEq] at h
        omega
    . simp only [Option.pure_def, Option.some.injEq, Field.skipped.injEq] at h
      omega
    . simp only [Option.pure_def, Option.some.injEq, Field.skipped.injEq] at h
      omega
    . simp at h

namespace parseFlowFromAddons

def Reached (data : List UInt8) (cursor : Nat) : Prop :=
  Loop.Reaches (step data) 0 cursor

structure Sound (data : List UInt8) : Prop where
  returns : ∃ fuel flow, parseFlowFromAddons fuel data = some (.returned flow)
  increases : ∀ cursor cursor', Reached data cursor → step data cursor = .next cursor'
    → cursor < cursor'
  noWrap : ∀ cursor tag lenCursor len start, Reached data cursor → cursor < data.length
    → readVarint data cursor = some (tag, lenCursor) → (wireType tag).toNat = 2
    → readVarint data lenCursor = some (len, start)
    → Usize.add start len.toNat = start + len.toNat

theorem step_of_ge (h : data.length ≤ cursor)
    : step data cursor = .done (.returned "") := by
  unfold step
  rw [if_neg]
  omega

theorem step_eq_fieldAt (hlen : data.length ≤ 255) (hlt : cursor < data.length)
    : step data cursor
        =
      match fieldAt data cursor with
      | none => .done (.returned "")
      | some (.payload number start len) => payloadStep data number start len
      | some (.skipped next) => .next next := by
  unfold step fieldAt
  rw [if_pos hlt]
  cases htag : readVarint data cursor with
  | none => rfl
  | some tagRead =>
    rcases tagRead with ⟨tag, cursor'⟩
    have htagCursor := readVarint_cursor (by omega) htag
    simp only [Option.bind_eq_bind, Option.bind_some]
    generalize (wireType tag).toNat = wire
    split
    . cases readVarint data cursor' <;> rfl
    . cases readVarint data cursor' <;> rfl
    . rw [Usize.saturatingAdd_eq]
      . rfl
      . omega
    . rw [Usize.saturatingAdd_eq]
      . rfl
      . omega
    . simp [*]

theorem payloadStep_cases (hfit : start + len < 2 ^ 64)
    : (∃ flow, payloadStep data number start len = .done (.returned flow))
        ∨
      (payloadStep data number start len = .next (start + len)
        ∧ start + len ≤ data.length
        ∧ ¬ IsFlow data number start len) := by
  unfold payloadStep IsFlow
  rw [Usize.add_eq hfit]
  split
  . apply Or.inl
    exact ⟨"", rfl⟩
  . next hle =>
    rw [slice_of_le (by omega)]
    dsimp only
    split
    . cases hutf : fromUtf8 ((data.drop start).take len) with
      | some flow =>
        apply Or.inl
        exact ⟨flow, rfl⟩
      | none =>
        apply Or.inr
        refine ⟨rfl, by omega, ?_⟩
        simp
    . next hnum =>
      apply Or.inr
      refine ⟨rfl, by omega, ?_⟩
      intro hflow
      exact hnum hflow.left

theorem payloadStep_of_not_isFlow (hlen : data.length < 2 ^ 64) (hfits : start + len ≤ data.length)
    (hflow : ¬ IsFlow data number start len)
    : payloadStep data number start len = .next (start + len) := by
  unfold payloadStep
  rw [Usize.add_eq (by omega)]
  rw [if_neg (by omega)]
  rw [slice_of_le hfits]
  dsimp only
  split
  . next hnum =>
    cases hutf : fromUtf8 ((data.drop start).take len) with
    | none => rfl
    | some flow =>
      exfalso
      apply hflow
      unfold IsFlow
      rw [hutf]
      exact ⟨hnum, rfl⟩
  . rfl

section

variable (hlen : data.length ≤ 255)
include hlen

theorem reached_of_fieldStart (h : FieldStart data cursor)
    : Reached data cursor := by
  induction h with
  | zero => apply Loop.Reaches.refl
  | payload cursor number start len _ hlt hfield hfits hflow ih =>
    apply Loop.Reaches.tail cursor
    . exact ih
    . rw [step_eq_fieldAt hlen hlt]
      rw [hfield]
      apply payloadStep_of_not_isFlow
      . omega
      . exact hfits
      . exact hflow
  | skipped cursor next _ hlt hfield ih =>
    apply Loop.Reaches.tail cursor
    . exact ih
    . rw [step_eq_fieldAt hlen hlt]
      rw [hfield]

theorem step_cases (hfit : LengthsFit data) (hcursor : FieldStart data cursor)
    : (∃ flow, step data cursor = .done (.returned flow))
        ∨
      (∃ cursor', step data cursor = .next cursor'
        ∧ cursor < data.length
        ∧ cursor < cursor'
        ∧ FieldStart data cursor') := by
  by_cases hlt : cursor < data.length
  . rw [step_eq_fieldAt hlen hlt]
    cases hfield : fieldAt data cursor with
    | none =>
      apply Or.inl
      exact ⟨"", rfl⟩
    | some field =>
      cases field with
      | payload number start len =>
        rcases fieldAt_payload (by omega) hfield with
          ⟨_, _, _, _, _, _, _, hstart, _⟩
        have hsum := hfit cursor number start len hcursor hlt hfield
        cases payloadStep_cases hsum with
        | inl hdone =>
          apply Or.inl
          exact hdone
        | inr hnext =>
          apply Or.inr
          refine ⟨start + len, hnext.left, hlt, by omega, ?_⟩
          exact FieldStart.payload cursor number start len hcursor hlt hfield hnext.right.left
            hnext.right.right
      | skipped next =>
        have hnext := fieldAt_skipped (by omega) hfield
        apply Or.inr
        refine ⟨next, rfl, hlt, hnext.left, ?_⟩
        exact FieldStart.skipped cursor next hcursor hlt hfield
  . apply Or.inl
    exact ⟨"", step_of_ge (by omega)⟩

theorem step_next (hfit : LengthsFit data)
    (hcursor : FieldStart data cursor) (hstep : step data cursor = .next cursor')
    : cursor < data.length ∧ cursor < cursor' ∧ FieldStart data cursor' := by
  cases step_cases hlen hfit hcursor with
  | inl hdone =>
    rcases hdone with ⟨flow, hdone⟩
    rw [hdone] at hstep
    simp at hstep
  | inr hnext =>
    rcases hnext with ⟨next, hnext, hfacts⟩
    rw [hnext] at hstep
    simp only [Loop.Step.next.injEq] at hstep
    rw [← hstep]
    exact hfacts

theorem fieldStart_of_reached (hfit : LengthsFit data) (h : Reached data cursor)
    : FieldStart data cursor := by
  apply Loop.Reaches.invariant (FieldStart data) 0 cursor FieldStart.zero _ h
  intro t t' ht hstep
  exact (step_next hlen hfit ht hstep).right.right

theorem returns_of_lengthsFit (hfit : LengthsFit data)
    : ∃ fuel flow, parseFlowFromAddons fuel data = some (.returned flow) := by
  have hterm : ∃ fuel r, Loop.run (step data) fuel 0 = some r := by
    apply Loop.run_terminates (fun cursor => data.length - cursor)
    intro s s' hreach hstep
    have hstart := fieldStart_of_reached hlen hfit hreach
    have := step_next hlen hfit hstart hstep
    omega
  rcases hterm with ⟨fuel, r, hrun⟩
  rcases Loop.run_eq_some fuel 0 r hrun with ⟨s, hreach, hdone⟩
  have hstart := fieldStart_of_reached hlen hfit hreach
  cases step_cases hlen hfit hstart with
  | inl hret =>
    rcases hret with ⟨flow, hret⟩
    rw [hret] at hdone
    simp only [Loop.Step.done.injEq] at hdone
    refine ⟨fuel, flow, ?_⟩
    unfold parseFlowFromAddons
    rw [hrun, hdone]
  | inr hnext =>
    rcases hnext with ⟨cursor', hnext, _⟩
    rw [hnext] at hdone
    simp at hdone

theorem lengthsFit_of_sound (h : Sound data)
    : LengthsFit data := by
  intro cursor number start len hcursor hlt hfield
  have hreach := reached_of_fieldStart hlen hcursor
  rcases fieldAt_payload (by omega) hfield with
    ⟨tag, lenCursor, value, htag, hwire, hvalue, hlenEq, _, _⟩
  have hwrap := h.noWrap cursor tag lenCursor value start hreach hlt htag hwire hvalue
  rw [hlenEq, ← hwrap]
  apply Nat.mod_lt
  apply Nat.two_pow_pos

theorem noWrap_of_lengthsFit (hfit : LengthsFit data) {tag len : UInt64}
    (hreach : Reached data cursor) (hlt : cursor < data.length)
    (htag : readVarint data cursor = some (tag, lenCursor)) (hwire : (wireType tag).toNat = 2)
    (hvalue : readVarint data lenCursor = some (len, start))
    : Usize.add start len.toNat = start + len.toNat := by
  apply Usize.add_eq
  apply hfit cursor (fieldNumber tag) start len.toNat
  . apply fieldStart_of_reached hlen hfit hreach
  . exact hlt
  . unfold fieldAt
    simp only [htag, Option.bind_eq_bind, Option.bind_some, hwire, hvalue, Option.pure_def]

end

theorem sound_iff_lengthsFit (data : List UInt8) (hlen : data.length ≤ 255)
    : Sound data ↔ LengthsFit data := by
  constructor
  . apply lengthsFit_of_sound hlen
  . intro hfit
    constructor
    . apply returns_of_lengthsFit hlen hfit
    . intro cursor cursor' hreach hstep
      have hstart := fieldStart_of_reached hlen hfit hreach
      exact (step_next hlen hfit hstart hstep).right.left
    . intro cursor tag lenCursor len start
      apply noWrap_of_lengthsFit hlen hfit

-- Field 2 with a payload of `2 ^ 64 - 11` bytes, announced by ten bytes.
def wrappingAddons : List UInt8 :=
  [0x12, 0xf5, 0xff, 0xff, 0xff, 0xff, 0xff, 0xff, 0xff, 0xff, 0x01]

theorem sound_fails_on_wrappingAddons
    : wrappingAddons.length ≤ 255
        ∧ (∀ fuel, parseFlowFromAddons fuel wrappingAddons = none)
        ∧ ¬ Sound wrappingAddons := by
  have hstep : step wrappingAddons 0 = .next 0 := by decide
  refine ⟨by decide, ?_, ?_⟩
  . intro fuel
    apply Loop.run_diverges (fun cursor => cursor = 0)
    . intro cursor hcursor
      rw [hcursor]
      exact ⟨0, hstep, rfl⟩
    . rfl
  . intro h
    have := h.increases 0 0 Loop.Reaches.refl hstep
    omega

theorem sound_on_short_flow : Sound [0x0a, 0x01, 0x78] := by
  apply (sound_iff_lengthsFit [0x0a, 0x01, 0x78] (by decide)).mpr
  intro cursor number start len _ hlt hfield
  have hfields : ∀ cursor < 3, fieldAt [0x0a, 0x01, 0x78] cursor = some (.payload 1 2 1)
      ∨ fieldAt [0x0a, 0x01, 0x78] cursor = some (.skipped 10)
      ∨ fieldAt [0x0a, 0x01, 0x78] cursor = none := by decide
  rcases hfields cursor hlt with h | h | h
  . rw [h] at hfield
    simp only [Option.some.injEq, Field.payload.injEq] at hfield
    omega
  . simp [h] at hfield
  . simp [h] at hfield

end parseFlowFromAddons
end Blackwire.Vless
