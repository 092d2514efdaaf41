import Blackwire.Lib.Bytes

/-!
This module contains lists of entries that each start with a tag and a length of two bytes, and the
ways to go through such a list in the middle of other data.
-/

namespace Tlv

open Bytes List

structure Entry where
  tag : Nat
  content : Bytes

def Entry.Sized (e : Entry) : Prop :=
  e.tag < 65536 ∧ e.content.length < 65536

instance (e : Entry) : Decidable e.Sized :=
  inferInstanceAs (Decidable (_ ∧ _))

-- A length that two bytes cannot hold wraps.
def encode (e : Entry) : Bytes :=
  toBigEndian 2 e.tag ++ toBigEndian 2 e.content.length ++ e.content

inductive Next where
  | finished
  | truncated
  | entry (e : Entry) (pos : Nat)

/--
The entry at `pos` and where the one behind it starts. `stop` bounds the start of an entry only, its
content can go on to the end of the data.
-/
def next (data : Bytes) (stop pos : Nat) : Next :=
  if pos + 4 ≤ stop then
    let len := u16At data (pos + 2)
    if pos + 4 + len > data.length then
      .truncated
    else
      .entry ⟨u16At data pos, (data.drop (pos + 4)).take len⟩ (pos + 4 + len)
  else
    .finished

def walk {σ : Type} (data : Bytes) (stop : Nat) (step : σ → Entry → σ) (fuel pos : Nat) (s : σ)
    : σ × Bool :=
  match fuel with
  | 0 => (s, false)
  | fuel + 1 =>
    match next data stop pos with
    | .finished => (s, false)
    | .truncated => (s, true)
    | .entry e pos => walk data stop step fuel pos (step s e)

def find (data : Bytes) (stop tag fuel pos : Nat) : Option Bytes :=
  match fuel with
  | 0 => none
  | fuel + 1 =>
    match next data stop pos with
    | .finished => none
    | .truncated => none
    | .entry e pos => if e.tag = tag then some e.content else find data stop tag fuel pos

def search {β : Type} (data : Bytes) (stop : Nat) (f : Nat → Entry → Option β) (fuel pos : Nat)
    : Option β :=
  match fuel with
  | 0 => none
  | fuel + 1 =>
    match next data stop pos with
    | .finished => none
    | .truncated => none
    | .entry e mid =>
      match f pos e with
      | some b => some b
      | none => search data stop f fuel mid

inductive Reaches (data : Bytes) (stop : Nat) : Nat → Nat → Prop where
  | here (start : Nat) : Reaches data stop start start
  | step {start mid pos : Nat} {e : Entry} (hnext : next data stop start = .entry e mid)
      (hrest : Reaches data stop mid pos)
      : Reaches data stop start pos

-- The entry at the second position is the first one that `f` finds something in.
inductive First {β : Type} (data : Bytes) (stop : Nat) (f : Nat → Entry → Option β)
    : Nat → Nat → Entry → Prop where
  | here {pos mid : Nat} {e : Entry} (hnext : next data stop pos = .entry e mid)
      (hsome : (f pos e).isSome)
      : First data stop f pos pos e
  | skip {start mid pos : Nat} {e' e : Entry} (hnext : next data stop start = .entry e' mid)
      (hnone : f start e' = none) (hrest : First data stop f mid pos e)
      : First data stop f start pos e

theorem length_encode (e : Entry) : (encode e).length = 4 + e.content.length := by
  simp only [encode, length_append, length_toBigEndian]

theorem next_encode (hsized : e.Sized) (hstop : front.length + 4 ≤ stop)
    : next (front ++ (encode e ++ rest)) stop front.length
        = .entry e (front ++ encode e).length := by
  rcases e with ⟨tag, content⟩
  rcases hsized with ⟨htag, hcontent⟩
  generalize hdata : front ++ (encode ⟨tag, content⟩ ++ rest) = data
  have htag' : u16At data front.length = tag := by
    have h := u16At_append front (toBigEndian 2 content.length ++ (content ++ rest)) tag
    rw [Nat.mod_eq_of_lt htag] at h
    rw [← hdata]
    simpa only [encode, append_assoc] using h
  have hlen : u16At data (front.length + 2) = content.length := by
    have h := u16At_append (front ++ toBigEndian 2 tag) (content ++ rest) content.length
    rw [length_append, length_toBigEndian, Nat.mod_eq_of_lt hcontent] at h
    rw [← hdata]
    simpa only [encode, append_assoc] using h
  have hrest : data.drop (front.length + 4) = content ++ rest := by
    rw [← hdata, ← drop_drop, drop_left]
    simp [encode, toBigEndian, range_succ]
  have hlength : front.length + 4 + content.length ≤ data.length := by
    rw [← hdata]
    simp only [length_append, length_encode]
    omega
  unfold next
  rw [if_pos hstop, hlen, htag', hrest, if_neg (Nat.not_lt_of_le hlength), take_left,
    length_append, length_encode, Nat.add_assoc]

theorem next_eq_entry (data : Bytes) (stop pos mid : Nat) (e : Entry)
    (h : next data stop pos = .entry e mid)
    : pos + 4 ≤ stop ∧ mid = pos + 4 + e.content.length ∧ mid ≤ data.length
        ∧ e = ⟨u16At data pos, (data.drop (pos + 4)).take (u16At data (pos + 2))⟩
        ∧ e.content.length = u16At data (pos + 2) := by
  unfold next at h
  split at h
  next hstop =>
    dsimp only at h
    split at h
    next => cases h
    next hlong =>
      cases h
      have hlength : ((data.drop (pos + 4)).take (u16At data (pos + 2))).length
          = u16At data (pos + 2) := by
        rw [length_take, length_drop]
        omega
      rw [hlength]
      exact ⟨hstop, rfl, by omega, rfl, rfl⟩
  next => cases h

section

variable {β : Type}

theorem First.exists_next (h : First data stop f start pos e)
    : ∃ e' mid, next data stop start = .entry e' mid := by
  cases h with
  | here hnext => exact ⟨_, _, hnext⟩
  | skip hnext => exact ⟨_, _, hnext⟩

theorem First.isSome (h : First data stop f start pos e)
    : (f pos e).isSome := by
  induction h with
  | here _ hsome => exact hsome
  | skip _ _ _ ih => exact ih

theorem search_eq_some_iff (fuel start : Nat) (hfuel : data.length < start + fuel) (b : β)
    : search data stop f fuel start = some b
        ↔ ∃ pos e, First data stop f start pos e ∧ f pos e = some b := by
  induction fuel generalizing start with
  | zero =>
    constructor
    . nofun
    . rintro ⟨pos, e, hfirst, _⟩
      rcases hfirst.exists_next with ⟨_, _, hnext⟩
      have := next_eq_entry _ _ _ _ _ hnext
      omega
  | succ fuel ih =>
    unfold search
    cases hnext : next data stop start with
    | entry e mid =>
      have hmid := next_eq_entry _ _ _ _ _ hnext
      dsimp only
      cases hf : f start e with
      | some b' =>
        constructor
        . intro h
          cases h
          exact ⟨start, e, .here hnext (by rw [hf]; rfl), hf⟩
        . rintro ⟨pos, e', hfirst, hb⟩
          cases hfirst with
          | here hnext' hsome =>
            rw [hnext] at hnext'
            cases hnext'
            rw [← hb, hf]
          | skip hnext' hnone =>
            rw [hnext] at hnext'
            cases hnext'
            rw [hf] at hnone
            cases hnone
      | none =>
        rw [ih mid (by omega)]
        constructor
        . rintro ⟨pos, e', hfirst, hb⟩
          exact ⟨pos, e', .skip hnext hf hfirst, hb⟩
        . rintro ⟨pos, e', hfirst, hb⟩
          cases hfirst with
          | here hnext' hsome =>
            rw [hnext] at hnext'
            cases hnext'
            rw [hf] at hb
            cases hb
          | skip hnext' hnone hrest =>
            rw [hnext] at hnext'
            cases hnext'
            exact ⟨pos, e', hrest, hb⟩
    | finished =>
      constructor
      . nofun
      . rintro ⟨pos, e, hfirst, _⟩
        rcases hfirst.exists_next with ⟨_, _, hnext'⟩
        rw [hnext] at hnext'
        cases hnext'
    | truncated =>
      constructor
      . nofun
      . rintro ⟨pos, e, hfirst, _⟩
        rcases hfirst.exists_next with ⟨_, _, hnext'⟩
        rw [hnext] at hnext'
        cases hnext'

theorem First.reaches (h : First data stop f start pos e)
    : Reaches data stop start pos ∧ ∃ mid, next data stop pos = .entry e mid := by
  induction h with
  | here hnext => exact ⟨.here _, _, hnext⟩
  | skip hnext _ _ ih => exact ⟨.step hnext ih.left, ih.right⟩

theorem Reaches.le (h : Reaches data stop start pos) : start ≤ pos := by
  induction h with
  | here => exact Nat.le_refl _
  | step hnext _ ih =>
    have := next_eq_entry _ _ _ _ _ hnext
    omega

theorem Reaches.disjoint (hp : Reaches data stop start p) (hq : Reaches data stop start q)
    (hpe : next data stop p = .entry e p') (hqe : next data stop q = .entry e' q')
    : p = q ∨ p' ≤ q ∨ q' ≤ p := by
  induction hp with
  | here =>
    cases hq with
    | here => exact .inl rfl
    | step hnext hrest =>
      rw [hpe] at hnext
      cases hnext
      exact .inr (.inl hrest.le)
  | step hnext hrest ih =>
    cases hq with
    | here =>
      rw [hqe] at hnext
      cases hnext
      exact .inr (.inr hrest.le)
    | step hnext' hrest' =>
      rw [hnext] at hnext'
      cases hnext'
      exact ih hrest' hpe

theorem first_encode (pre : List Entry) (e : Entry)
    (hdata : data = front ++ (pre.flatMap encode ++ (encode e ++ rest)))
    (hstop : front.length + (pre.flatMap encode).length + 4 ≤ stop) (hsized : ∀ e ∈ pre, e.Sized)
    (hlast : e.Sized) (hpre : ∀ e ∈ pre, ∀ pos, f pos e = none)
    (hsome : (f (front.length + (pre.flatMap encode).length) e).isSome)
    : First data stop f front.length (front.length + (pre.flatMap encode).length) e := by
  induction pre generalizing front with
  | nil =>
    apply First.here
    . rw [hdata]
      exact next_encode hlast hstop
    . exact hsome
  | cons e' pre ih =>
    rw [forall_mem_cons] at hsized hpre
    rw [flatMap_cons, append_assoc] at hdata
    rw [flatMap_cons, length_append, ← Nat.add_assoc, ← length_append]
      at hstop hsome ⊢
    have hnext : next data stop front.length = .entry e' (front ++ encode e').length := by
      rw [hdata]
      apply next_encode
      . exact hsized.left
      . rw [length_append, length_encode] at hstop
        omega
    apply First.skip hnext (hpre.left _)
    apply ih
    . rw [hdata, append_assoc]
    . exact hstop
    . exact hsized.right
    . exact hpre.right
    . exact hsome

end

section

variable (front : Bytes)

theorem next_nil : next (front ++ [].flatMap encode) (front ++ [].flatMap encode).length
    front.length = .finished := by
  unfold next
  rw [flatMap_nil, append_nil, if_neg (by omega)]

theorem next_cons (hsized : e.Sized)
    : next (front ++ (e :: es).flatMap encode) (front ++ (e :: es).flatMap encode).length
        front.length
        = .entry e (front ++ encode e).length := by
  rw [flatMap_cons]
  apply next_encode
  . exact hsized
  . simp only [length_append, length_encode]
    omega

variable (es : List Entry) (hsized : ∀ e ∈ es, e.Sized) (fuel : Nat) (hfuel : es.length < fuel)

include hsized hfuel

-- In both inductions what was gone through joins the data in front.
theorem walk_encode {σ : Type} (step : σ → Entry → σ) (s : σ)
    : walk (front ++ es.flatMap encode) (front ++ es.flatMap encode).length step fuel front.length s
        = (es.foldl step s, false) := by
  induction es generalizing front fuel s with
  | nil =>
    cases fuel with
    | zero => omega
    | succ fuel => rw [walk, next_nil, foldl_nil]
  | cons e es ih =>
    cases fuel with
    | zero => omega
    | succ fuel =>
      rw [forall_mem_cons] at hsized
      have hrest := ih (front ++ encode e) hsized.right fuel (by simpa using hfuel) (step s e)
      rw [append_assoc, ← flatMap_cons] at hrest
      rw [walk, next_cons front hsized.left, foldl_cons]
      exact hrest

theorem find_encode (tag : Nat)
    : find (front ++ es.flatMap encode) (front ++ es.flatMap encode).length tag fuel front.length
        = (es.find? fun e => e.tag = tag).map Entry.content := by
  induction es generalizing front fuel with
  | nil =>
    cases fuel with
    | zero => omega
    | succ fuel => rw [find, next_nil, find?_nil, Option.map_none]
  | cons e es ih =>
    cases fuel with
    | zero => omega
    | succ fuel =>
      rw [forall_mem_cons] at hsized
      have hrest := ih (front ++ encode e) hsized.right fuel (by simpa using hfuel)
      rw [append_assoc, ← flatMap_cons] at hrest
      rw [find, next_cons front hsized.left]
      dsimp only
      rw [hrest]
      split
      next htag => rw [find?_cons_of_pos (by simpa using htag), Option.map_some]
      next htag => rw [find?_cons_of_neg (by simpa using htag)]

end

end Tlv
