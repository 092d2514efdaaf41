import Mathlib.Init

/-!
This module contains streams that deliver what they hold in segments, and readers of such streams. A
reader keeps what it has taken when it fails, so it is a computation in `EStateM`. A segment comes
some time behind the one before it, which only a reader with a time limit can see.
-/

open List

structure Arrival (α : Type) where
  delay : Nat
  items : List α
  nonempty : items ≠ []

namespace Arrival

variable {α : Type}

-- What is left of a segment once `n` of its items are taken.
def behind (a : Arrival α) (n : Nat) : List (Arrival α) :=
  if h : a.items.drop n = [] then [] else [⟨0, a.items.drop n, h⟩]

theorem items_behind (a : Arrival α) (n : Nat)
    : (a.behind n).flatMap items = a.items.drop n := by
  unfold behind
  split
  next h => simp [h]
  next => simp

variable {a : Arrival α}

theorem behind_of_lt (h : n < a.items.length)
    : ∃ b, a.behind n = [b] ∧ b.items = a.items.drop n := by
  have hne : a.items.drop n ≠ [] := by
    rw [ne_eq, drop_eq_nil_iff]
    omega
  refine ⟨⟨0, a.items.drop n, hne⟩, ?_, rfl⟩
  unfold behind
  rw [dif_neg hne]

theorem behind_congr {b : Arrival α} (h : a.items.drop m = b.items.drop n)
    : a.behind m = b.behind n := by
  simp only [behind, h]

def skip : Nat → List (Arrival α) → List (Arrival α)
  | 0, arrivals => arrivals
  | _ + 1, [] => []
  | n + 1, a :: arrivals =>
    if a.items.length ≤ n + 1 then
      skip (n + 1 - a.items.length) arrivals
    else
      a.behind (n + 1) ++ arrivals

@[simp]
theorem skip_zero : skip 0 arrivals = arrivals := by
  unfold skip
  rfl

@[simp]
theorem skip_nil : skip n ([] : List (Arrival α)) = [] := by
  cases n <;> rfl

theorem skip_cons (h : a.items.length ≤ n)
    : skip n (a :: arrivals) = skip (n - a.items.length) arrivals := by
  have hpos := length_pos_iff.mpr a.nonempty
  cases n with
  | zero => omega
  | succ n => rw [skip, if_pos h]

theorem skip_inside (hpos : 0 < n) (h : n < a.items.length)
    : skip n (a :: arrivals) = a.behind n ++ arrivals := by
  cases n with
  | zero => omega
  | succ n => rw [skip, if_neg (by omega)]

theorem items_skip
    : (skip n arrivals).flatMap items = (arrivals.flatMap items).drop n := by
  fun_induction skip n arrivals with
  | case1 arrivals => rfl
  | case2 n => rfl
  | case3 n a arrivals h ih =>
    rw [ih, flatMap_cons, drop_append, drop_eq_nil_of_le h, nil_append]
  | case4 n a arrivals h =>
    rw [flatMap_append, items_behind, flatMap_cons,
      drop_append_of_le_length (Nat.le_of_not_le h)]

theorem skip_skip (m n : Nat) (arrivals : List (Arrival α))
    : skip n (skip m arrivals) = skip (m + n) arrivals := by
  fun_induction skip m arrivals with
  | case1 arrivals => rw [Nat.zero_add]
  | case2 m => simp
  | case3 m a arrivals h ih =>
    rw [ih, skip_cons (by omega)]
    congr 1
    omega
  | case4 m a arrivals h =>
    rcases behind_of_lt (Nat.lt_of_not_le h) with ⟨b, hb, hitems⟩
    have hlength := length_drop (i := m + 1) (l := a.items)
    rw [← hitems] at hlength
    cases n with
    | zero => rw [skip_zero, Nat.add_zero, skip, if_neg h]
    | succ n =>
      rw [hb, singleton_append]
      by_cases hle : b.items.length ≤ n + 1
      . rw [skip_cons hle, skip_cons (by omega)]
        congr 1
        omega
      . rw [skip_inside (by omega) (by omega), skip_inside (by omega) (by omega)]
        congr 1
        apply behind_congr
        rw [hitems, drop_drop]

def takeExact : Nat → List (Arrival α) → Option (List α) × List (Arrival α)
  | 0, arrivals => (some [], arrivals)
  | _ + 1, [] => (none, [])
  | n + 1, a :: arrivals =>
    if a.items.length ≤ n + 1 then
      match takeExact (n + 1 - a.items.length) arrivals with
      | (some items, arrivals) => (some (a.items ++ items), arrivals)
      | (none, arrivals) => (none, arrivals)
    else
      (some (a.items.take (n + 1)), a.behind (n + 1) ++ arrivals)

theorem takeExact_eq
    : takeExact n arrivals
        = (if n ≤ (arrivals.flatMap items).length then some ((arrivals.flatMap items).take n)
            else none,
          skip n arrivals) := by
  induction arrivals generalizing n with
  | nil => cases n <;> simp [takeExact]
  | cons a arrivals ih =>
    cases n with
    | zero => simp [takeExact]
    | succ n =>
      simp only [takeExact, skip, flatMap_cons, length_append]
      split
      next h =>
        rw [ih]
        by_cases hlong : n + 1 - a.items.length ≤ (arrivals.flatMap items).length
        . rw [if_pos hlong, if_pos (by omega), take_append, take_of_length_le h]
        . rw [if_neg hlong, if_neg (by omega)]
      next h => rw [if_pos (by omega), take_append_of_le_length (by omega)]

end Arrival

structure Ending (ε : Type) where
  delay : Nat
  error : Option ε

structure Source (α ε : Type) where
  arrivals : List (Arrival α)
  ending : Ending ε

inductive ReadError (ε : Type) where
  | elapsed
  | failed (e : ε)

namespace Source

variable {α β γ δ ε : Type}

def items (s : Source α ε) : List α :=
  s.arrivals.flatMap Arrival.items

def ofSegments (segments : List (List α)) : Source α ε where
  arrivals := segments.filterMap fun segment =>
    if h : segment = [] then none else some ⟨0, segment, h⟩
  ending := ⟨0, none⟩

def skip (n : Nat) (s : Source α ε) : Source α ε :=
  { s with arrivals := Arrival.skip n s.arrivals }

def readExact (eof : ε) (n : Nat) : EStateM ε (Source α ε) (List α) := fun s =>
  match Arrival.takeExact n s.arrivals with
  | (some items, arrivals) => .ok items { s with arrivals := arrivals }
  | (none, arrivals) => .error (s.ending.error.getD eof) { s with arrivals := arrivals }

-- A reader that waits no longer than `limit` for the next segment.
def readWithin (limit cap : Nat) : EStateM (ReadError ε) (Source α ε) (List α) := fun s =>
  match s.arrivals with
  | [] =>
    if limit < s.ending.delay then
      .error .elapsed { s with ending := { s.ending with delay := s.ending.delay - limit } }
    else
      match s.ending.error with
      | none => .ok [] s
      | some e => .error (.failed e) s
  | a :: arrivals =>
    if limit < a.delay then
      .error .elapsed { s with arrivals := { a with delay := a.delay - limit } :: arrivals }
    else
      .ok (a.items.take cap) (s.skip (min cap a.items.length))

/--
A read of at most `cap` items is answered with the next `n` of them before `limit` is over.
-/
def Offers (limit cap n : Nat) (s : Source α ε) : Prop :=
  match s.arrivals with
  | [] => s.ending.delay ≤ limit ∧ s.ending.error = none ∧ n = 0
  | a :: _ => a.delay ≤ limit ∧ n = min cap a.items.length

@[simp]
theorem items_skip (n : Nat) (s : Source α ε) : (s.skip n).items = s.items.drop n := by
  apply Arrival.items_skip

theorem items_skip_append {s : Source α ε} (hs : s.items = front ++ rest)
    (hfront : front.length = n) : (s.skip n).items = rest := by
  rw [items_skip, hs, drop_left' hfront]

theorem skip_skip (m n : Nat) (s : Source α ε) : (s.skip m).skip n = s.skip (m + n) := by
  simp [skip, Arrival.skip_skip]

variable (s : Source α ε) {m : EStateM δ (Source α ε) β}

@[simp]
theorem skip_zero : s.skip 0 = s := by
  simp [skip]

theorem readExact_eq (eof : ε) (n : Nat) (s : Source α ε)
    : readExact eof n s
        = if n ≤ s.items.length then .ok (s.items.take n) (s.skip n)
          else .error (s.ending.error.getD eof) (s.skip n) := by
  unfold readExact
  rw [Arrival.takeExact_eq]
  by_cases h : n ≤ s.items.length
  . have hlong : n ≤ (s.arrivals.flatMap Arrival.items).length := h
    rw [if_pos h, if_pos hlong]
    rfl
  . have hshort : ¬n ≤ (s.arrivals.flatMap Arrival.items).length := h
    rw [if_neg h, if_neg hshort]
    rfl

theorem readWithin_eq_ok (limit cap : Nat) (s s' : Source α ε) (front : List α)
    : readWithin limit cap s = .ok front s'
        ↔ s.Offers limit cap front.length ∧ s.items.take front.length = front
          ∧ s.skip front.length = s' := by
  rcases s with ⟨arrivals, delay, error⟩
  cases arrivals with
  | nil =>
    by_cases hlimit : limit < delay
    . simp [readWithin, Offers, hlimit, Nat.not_le_of_lt hlimit]
    cases error with
    | none =>
      simp only [readWithin, Offers, hlimit, if_false, EStateM.Result.ok.injEq,
        length_eq_zero_iff]
      constructor
      . rintro ⟨rfl, rfl⟩
        exact ⟨⟨Nat.le_of_not_lt hlimit, trivial, rfl⟩, take_nil, skip_zero _⟩
      . rintro ⟨⟨_, _, rfl⟩, _, rfl⟩
        exact ⟨rfl, (skip_zero _).symm⟩
    | some e => simp [readWithin, Offers, hlimit]
  | cons a arrivals =>
    have htake : (a.items ++ arrivals.flatMap Arrival.items).take (min cap a.items.length)
        = a.items.take cap := by
      rw [take_append_of_le_length (Nat.min_le_right _ _), ← take_take, take_length]
    by_cases hlimit : limit < a.delay
    . simp [readWithin, Offers, hlimit, Nat.not_le_of_lt hlimit]
    simp only [readWithin, hlimit, if_false, EStateM.Result.ok.injEq]
    constructor
    . rintro ⟨rfl, rfl⟩
      rw [length_take]
      exact ⟨⟨Nat.le_of_not_lt hlimit, rfl⟩, htake, rfl⟩
    . rintro ⟨⟨_, hlength⟩, hfront, rfl⟩
      rw [hlength] at hfront ⊢
      exact ⟨htake.symm.trans hfront, rfl⟩

/--
A computation reads `x` off a front of a stream if it returns `x` whatever follows, and takes just
this front.
-/
def Reads (m : EStateM δ (Source α ε) β) (front : List α) (x : β) : Prop :=
  ∀ s rest, s.items = front ++ rest → m s = .ok x (s.skip front.length)

theorem items_ofSegments (segments : List (List α))
    : (ofSegments segments : Source α ε).items = segments.flatten := by
  unfold ofSegments items
  induction segments with
  | nil => rfl
  | cons segment segments ih =>
    rw [filterMap_cons, flatten_cons]
    split
    next hnone =>
      split at hnone
      next hnil => rw [hnil, nil_append, ih]
      next => cases hnone
    next a hsome =>
      split at hsome
      next => cases hsome
      next =>
        cases hsome
        rw [flatMap_cons, ih]

theorem Reads.unique (hx : Reads m front x) (hy : Reads m front y)
    : x = y := by
  have hs : (ofSegments [front] : Source α ε).items = front ++ [] := by
    rw [items_ofSegments, flatten_singleton, append_nil]
  have h := hx (ofSegments [front]) [] hs
  rw [hy (ofSegments [front]) [] hs] at h
  cases h
  rfl

theorem Reads.of_pure (x : β) : Reads (pure x : EStateM δ (Source α ε) β) [] x := by
  intro s rest _
  rw [length_nil, skip_zero]
  rfl

theorem Reads.of_bind {next : List α} (hm : Reads m front x) (hf : Reads (f x) next y)
    : Reads (m >>= f) (front ++ next) y := by
  intro s rest hs
  rw [append_assoc] at hs
  have hfirst := hm s (next ++ rest) hs
  have hsecond := hf (s.skip front.length) rest (by simp [hs])
  change EStateM.bind m f s = _
  unfold EStateM.bind
  rw [hfirst]
  dsimp only
  rw [hsecond, skip_skip, length_append]

theorem Reads.of_bind_last (hm : Reads m front x) (hf : Reads (f x) [] y)
    : Reads (m >>= f) front y := by
  have h := Reads.of_bind hm hf
  rw [append_nil] at h
  exact h

theorem Reads.of_adaptExcept (g : δ → γ) (hm : Reads m front x)
    : Reads (EStateM.adaptExcept g m) front x := by
  intro s rest hs
  unfold EStateM.adaptExcept
  rw [hm s rest hs]

theorem reads_readExact (eof : ε) (front : List α)
    : Reads (readExact eof front.length) front front := by
  intro s rest hs
  rw [readExact_eq, hs, length_append, if_pos (Nat.le_add_right _ _), take_left]

end Source
