import Blackwire.Lib.Poll
import Blackwire.Lib.Machine

/-!
This module contains writers that frame what they are given: a frame is put into a queue, and the
queue is drained into the stream below, which takes as much as it likes. What the stream below
answers in a call is a list that is an argument of the call, and it is not ready where the list
ends.
-/

open List Machine

structure Outbox (τ α : Type) where
  core : τ
  queue : List α
  received : List α

structure Framer (τ ρ α ε : Type) where
  limit : Nat
  zero : ε
  append : τ → ρ → List α → τ × List α × Except ε Unit

namespace Outbox

variable {τ α ε : Type}

def drain (zero : ε) (o : Outbox τ α) (answers : List (Poll (Except ε Nat)))
    : Outbox τ α × Poll (Except ε Unit) × List (Poll (Except ε Nat)) :=
  if o.queue.isEmpty then
    (o, .ready (.ok ()), answers)
  else
    match answers with
    | [] => (o, .pending, [])
    | .pending :: answers => (o, .pending, answers)
    | .ready (.error e) :: answers => (o, .ready (.error e), answers)
    | .ready (.ok 0) :: answers => (o, .ready (.error zero), answers)
    | .ready (.ok (n + 1)) :: answers =>
      drain zero
        { o with
          queue := o.queue.drop (n + 1)
          received := o.received ++ o.queue.take (n + 1) }
        answers

variable (zero : ε) {o : Outbox τ α}

variable (o) in
theorem drain_passes (answers : List (Poll (Except ε Nat)))
    : ∃ (front queue : List α) (result : Poll (Except ε Unit)) (rest : _),
        o.drain zero answers = (⟨o.core, queue, o.received ++ front⟩, result, rest)
          ∧ front ++ queue = o.queue ∧ (result = .ready (.ok ()) ↔ queue = []) := by
  induction answers generalizing o with
  | nil =>
    unfold drain
    split
    next hempty =>
      refine ⟨[], o.queue, _, _, by rw [append_nil], rfl, ?_⟩
      simpa using hempty
    next hne =>
      refine ⟨[], o.queue, _, _, by rw [append_nil], rfl, ?_⟩
      simpa using hne
  | cons answer answers ih =>
    unfold drain
    split
    next hempty =>
      refine ⟨[], o.queue, _, _, by rw [append_nil], rfl, ?_⟩
      simpa using hempty
    next hne =>
      have hstops (result : Poll (Except ε Unit)) (hresult : result ≠ .ready (.ok ()))
          : result = .ready (.ok ()) ↔ o.queue = [] :=
        iff_of_false hresult (by simpa using hne)
      match answer with
      | .pending =>
        exact ⟨[], o.queue, _, _, by rw [append_nil], rfl, hstops _ (by simp)⟩
      | .ready (.error e) =>
        exact ⟨[], o.queue, _, _, by rw [append_nil], rfl, hstops _ (by simp)⟩
      | .ready (.ok 0) =>
        exact ⟨[], o.queue, _, _, by rw [append_nil], rfl, hstops _ (by simp)⟩
      | .ready (.ok (n + 1)) =>
        rcases ih { o with
          queue := o.queue.drop (n + 1)
          received := o.received ++ o.queue.take (n + 1) } with
          ⟨front, queue, result, rest, hdrain, hsum, hdone⟩
        refine ⟨o.queue.take (n + 1) ++ front, queue, result, rest, ?_, ?_, hdone⟩
        . dsimp only
          rw [hdrain, append_assoc]
        . rw [append_assoc, hsum, take_append_drop]

variable (o) in
theorem drain_at_once (h : o.queue ≠ []) (n : Nat) (hn : o.queue.length ≤ n + 1)
    : o.drain zero [.ready (.ok (n + 1))]
        = (⟨o.core, [], o.received ++ o.queue⟩, .ready (.ok ()), []) := by
  unfold drain
  rw [if_neg (by simpa using h)]
  dsimp only
  rw [take_of_length_le hn, drop_of_length_le hn, drain, if_pos (by rfl)]

variable (o) in
theorem drain_spec (answers : List (Poll (Except ε Nat)))
    : ∃ (queue received : List α) (result : Poll (Except ε Unit)) (rest : _),
        o.drain zero answers = (⟨o.core, queue, received⟩, result, rest)
          ∧ received ++ queue = o.received ++ o.queue
          ∧ (result = .ready (.ok ()) → queue = []) := by
  rcases o.drain_passes zero answers with ⟨front, queue, result, rest, hdrain, hsum, hdone⟩
  refine ⟨queue, o.received ++ front, result, rest, hdrain, ?_, hdone.mp⟩
  rw [append_assoc, hsum]

end Outbox

namespace Framer

variable {τ ρ α ε : Type}

def pollWrite (f : Framer τ ρ α ε) (o : Outbox τ α) (r : ρ) (buf : List α)
    (answers : List (Poll (Except ε Nat))) : Outbox τ α × Poll (Except ε Nat) :=
  match o.drain f.zero answers with
  | (o, .pending, _) => (o, .pending)
  | (o, .ready (.error e), _) => (o, .ready (.error e))
  | (o, .ready (.ok ()), answers) =>
    let chunk := buf.take f.limit
    match f.append o.core r chunk with
    | (core, bytes, .error e) =>
      ({ o with core := core, queue := o.queue ++ bytes }, .ready (.error e))
    | (core, bytes, .ok ()) =>
      -- A frame that is not taken now is taken by a later call.
      match { o with core := core, queue := o.queue ++ bytes }.drain f.zero answers with
      | (o, .ready (.error e), _) => (o, .ready (.error e))
      | (o, .ready (.ok ()), _) => (o, .ready (.ok chunk.length))
      | (o, .pending, _) => (o, .ready (.ok chunk.length))

def pollFlush (f : Framer τ ρ α ε) (o : Outbox τ α) (answers : List (Poll (Except ε Nat)))
    (inner : Poll (Except ε Unit)) : Outbox τ α × Poll (Except ε Unit) :=
  match o.drain f.zero answers with
  | (o, .ready (.ok ()), _) => (o, inner)
  | (o, result, _) => (o, result)

inductive Wrote (f : Framer τ ρ α ε) (o : Outbox τ α) (r : ρ) (buf : List α)
    : Outbox τ α × Poll (Except ε Nat) → Prop where
  | waits (queue received : List α) (result : Poll (Except ε Nat))
      (hsum : received ++ queue = o.received ++ o.queue)
      (hresult : result = .pending ∨ ∃ e, result = .ready (.error e))
    : Wrote f o r buf (⟨o.core, queue, received⟩, result)
  | refused (core : τ) (bytes queue received : List α) (e : ε)
      (hframe : f.append o.core r (buf.take f.limit) = (core, bytes, .error e))
      (hsum : received ++ queue = o.received ++ o.queue ++ bytes)
    : Wrote f o r buf (⟨core, queue, received⟩, .ready (.error e))
  | queued (core : τ) (bytes queue received : List α) (result : Poll (Except ε Nat))
      (hframe : f.append o.core r (buf.take f.limit) = (core, bytes, .ok ()))
      (hsum : received ++ queue = o.received ++ o.queue ++ bytes)
      (hresult : result = .ready (.ok (buf.take f.limit).length)
        ∨ ∃ e, result = .ready (.error e))
    : Wrote f o r buf (⟨core, queue, received⟩, result)

variable (f : Framer τ ρ α ε) (o : Outbox τ α)

theorem pollWrite_wrote (r : ρ) (buf : List α) (answers : List (Poll (Except ε Nat)))
    : Wrote f o r buf (f.pollWrite o r buf answers) := by
  rcases o.drain_spec f.zero answers with ⟨queue, received, result, rest, hdrain, hsum, hdone⟩
  simp only [pollWrite, hdrain]
  match result with
  | .pending => exact .waits queue received _ hsum (.inl rfl)
  | .ready (.error e) => exact .waits queue received _ hsum (.inr ⟨e, rfl⟩)
  | .ready (.ok ()) =>
    dsimp only
    match hframe : f.append o.core r (buf.take f.limit) with
    | (core, bytes, .error e) =>
      exact .refused core bytes _ _ e hframe (by rw [← hsum, append_assoc])
    | (core, bytes, .ok ()) =>
      rcases Outbox.drain_spec f.zero ⟨core, queue ++ bytes, received⟩ rest with
        ⟨queue', received', result', rest', hdrain', hsum', _⟩
      have hall : received' ++ queue' = o.received ++ o.queue ++ bytes := by
        rw [hsum', ← hsum, append_assoc]
      simp only [hdrain']
      match result' with
      | .ready (.error e) => exact .queued core bytes _ _ _ hframe hall (.inr ⟨e, rfl⟩)
      | .ready (.ok ()) => exact .queued core bytes _ _ _ hframe hall (.inl rfl)
      | .pending => exact .queued core bytes _ _ _ hframe hall (.inl rfl)

theorem pollWrite_at_once (hqueue : o.queue = []) (r : ρ) (buf : List α) (core : τ) (bytes : List α)
    (hframe : f.append o.core r (buf.take f.limit) = (core, bytes, .ok ())) (hne : bytes ≠ [])
    (n : Nat) (hn : bytes.length ≤ n + 1)
    : f.pollWrite o r buf [.ready (.ok (n + 1))]
        = (⟨core, [], o.received ++ bytes⟩, .ready (.ok (buf.take f.limit).length)) := by
  have hidle : o.drain f.zero [.ready (.ok (n + 1))]
      = (o, .ready (.ok ()), [.ready (.ok (n + 1))]) := by
    unfold Outbox.drain
    rw [if_pos (by rw [hqueue]; rfl)]
  have hdrain := Outbox.drain_at_once f.zero ⟨core, o.queue ++ bytes, o.received⟩
    (by simp [hne]) n (by rw [hqueue]; exact hn)
  unfold pollWrite
  rw [hidle]
  dsimp only
  rw [hframe]
  dsimp only
  rw [hdrain, hqueue, nil_append]

theorem pollFlush_spec (answers : List (Poll (Except ε Nat))) (inner : Poll (Except ε Unit))
    : ∃ queue received, (f.pollFlush o answers inner).fst = ⟨o.core, queue, received⟩
        ∧ received ++ queue = o.received ++ o.queue := by
  rcases o.drain_spec f.zero answers with ⟨queue, received, result, rest, hdrain, hsum, _⟩
  refine ⟨queue, received, ?_, hsum⟩
  simp only [pollFlush, hdrain]
  match result with
  | .pending => rfl
  | .ready (.error e) => rfl
  | .ready (.ok ()) => rfl

def cuts (limit : Nat) (buf : List α) : List (List α) :=
  if 0 < limit ∧ buf ≠ [] then
    buf.take limit :: cuts limit (buf.drop limit)
  else
    []
termination_by buf.length
decreasing_by
  rename_i h
  have hpos := length_pos_iff.mpr h.right
  rw [length_drop]
  omega

section

variable {limit : Nat} (hlimit : 0 < limit)

theorem cuts_nil : cuts limit ([] : List α) = [] := by
  unfold cuts
  rw [if_neg (by simp)]

theorem length_le_of_mem_cuts (h : chunk ∈ cuts limit buf)
    : chunk.length ≤ limit := by
  fun_induction cuts limit buf with
  | case1 buf hbuf ih =>
    rcases mem_cons.mp h with rfl | hlater
    . apply length_take_le
    . exact ih hlater
  | case2 buf hbuf => cases h

theorem ne_nil_of_mem_cuts (h : chunk ∈ cuts limit buf) : chunk ≠ [] := by
  fun_induction cuts limit buf with
  | case1 buf hbuf ih =>
    rcases mem_cons.mp h with rfl | hlater
    . simp [hbuf.right, Nat.pos_iff_ne_zero.mp hbuf.left]
    . exact ih hlater
  | case2 buf hbuf => cases h

include hlimit

theorem flatMap_cuts : (cuts limit buf).flatMap id = buf := by
  fun_induction cuts limit buf with
  | case1 buf hbuf ih => rw [flatMap_cons, ih, id, take_append_drop]
  | case2 buf hbuf =>
    have hnil : buf = [] := Decidable.not_not.mp fun hne => hbuf ⟨hlimit, hne⟩
    rw [hnil, flatMap_nil]

theorem cuts_of_ne_nil (h : buf ≠ [])
    : cuts limit buf = buf.take limit :: cuts limit (buf.drop limit) := by
  rw [cuts, if_pos ⟨hlimit, h⟩]

theorem length_cuts_pos (h : buf ≠ []) : 0 < (cuts limit buf).length := by
  rw [cuts_of_ne_nil hlimit h]
  apply Nat.succ_pos

theorem cuts_of_length_le (h : buf ≠ []) (hle : buf.length ≤ limit)
    : cuts limit buf = [buf] := by
  rw [cuts_of_ne_nil hlimit h, take_of_length_le hle, drop_of_length_le hle, cuts_nil]

theorem one_lt_length_cuts (h : limit < buf.length)
    : 1 < (cuts limit buf).length := by
  have hne : buf ≠ [] := length_pos_iff.mp (by omega)
  have hrest : buf.drop limit ≠ [] := by
    rw [ne_eq, drop_eq_nil_iff]
    omega
  have hpos := length_cuts_pos hlimit hrest
  rw [cuts_of_ne_nil hlimit hne, length_cons]
  omega

theorem length_le_flatMap_cuts {bufs : List (List α)} (h : ∀ buf ∈ bufs, buf ≠ [])
    : bufs.length ≤ (bufs.flatMap (cuts limit)).length := by
  induction bufs with
  | nil => apply Nat.le_refl
  | cons buf bufs ih =>
    rw [forall_mem_cons] at h
    have hpos := length_cuts_pos hlimit h.left
    have hrest := ih h.right
    rw [flatMap_cons, length_append, length_cons]
    omega

variable (limit) in
theorem flatMap_cuts_eq_iff (bufs : List (List α)) (h : ∀ buf ∈ bufs, buf ≠ [])
    : bufs.flatMap (cuts limit) = bufs ↔ ∀ buf ∈ bufs, buf.length ≤ limit := by
  induction bufs with
  | nil => simp
  | cons buf bufs ih =>
    rw [forall_mem_cons] at h ⊢
    rw [← ih h.right, flatMap_cons]
    have hmore := length_le_flatMap_cuts hlimit h.right
    constructor
    . intro heq
      have hlength := congrArg List.length heq
      rw [length_append, length_cons] at hlength
      have hle : buf.length ≤ limit := by
        apply Nat.le_of_not_lt
        intro hlong
        have htwo := one_lt_length_cuts hlimit hlong
        omega
      rw [cuts_of_length_le hlimit h.left hle, singleton_append] at heq
      exact ⟨hle, (List.cons.inj heq).right⟩
    . rintro ⟨hle, heq⟩
      rw [cuts_of_length_le hlimit h.left hle, heq, singleton_append]

end

-- The core behind some chunks, and their frames.
def framed (f : Framer τ ρ α ε) (core : τ) : List (ρ × List α) → τ × List (List α)
  | [] => (core, [])
  | (r, chunk) :: chunks =>
    let (core, bytes, _) := f.append core r chunk
    let (core, frames) := f.framed core chunks
    (core, bytes :: frames)

theorem framed_append (core : τ) (chunks more : List (ρ × List α))
    : f.framed core (chunks ++ more)
        = ((f.framed (f.framed core chunks).fst more).fst,
          (f.framed core chunks).snd ++ (f.framed (f.framed core chunks).fst more).snd) := by
  induction chunks generalizing core with
  | nil => rfl
  | cons chunk chunks ih =>
    simp only [cons_append, framed]
    rw [ih]

-- The same framer, which keeps what `g` tells of each of its frames.
def logged {β : Type} (f : Framer τ ρ α ε) (g : τ → List α → List β)
    : Framer (τ × List β) ρ α ε where
  limit := f.limit
  zero := f.zero
  append s r chunk :=
    let (core, bytes, result) := f.append s.fst r chunk
    ((core, s.snd ++ g s.fst chunk), bytes, result)

structure Session (τ ρ α : Type) where
  out : Outbox τ α
  accepted : List (ρ × List α)
  failed : Option (ρ × List α)

inductive Event (ρ α ε : Type) where
  | write (r : ρ) (buf : List α) (answers : List (Poll (Except ε Nat)))
  | flush (answers : List (Poll (Except ε Nat))) (inner : Poll (Except ε Unit))
  | shutdown (inner : Poll (Except ε Unit))

def Event.nonEmpty : Event ρ α ε → Bool
  | write _ buf _ => !buf.isEmpty
  | _ => true

namespace Session

variable {f : Framer τ ρ α ε}

def new (core : τ) : Session τ ρ α :=
  ⟨⟨core, [], []⟩, [], none⟩

variable (f) in
section

variable (s : Session τ ρ α)

def step (e : Event ρ α ε) : Session τ ρ α :=
  match e with
  | .write r buf answers =>
    match f.pollWrite s.out r buf answers with
    | (out, .ready (.ok n)) => { s with out := out, accepted := s.accepted ++ [(r, buf.take n)] }
    | (out, .ready (.error _)) => { s with out := out, failed := some (r, buf.take f.limit) }
    | (out, .pending) => { s with out := out }
  | .flush answers inner => { s with out := (f.pollFlush s.out answers inner).fst }
  | .shutdown _ => s

def enabled (e : Event ρ α ε) : Bool :=
  match e with
  | .write _ _ _ => s.failed.isNone
  | _ => true

-- What was accepted, and what a write that failed may have framed.
def plain : List α :=
  s.accepted.flatMap Prod.snd

def lost : List α :=
  s.failed.toList.flatMap Prod.snd

end

structure Framed (f : Framer τ ρ α ε) (start : τ) (s : Session τ ρ α)
    (chunks : List (ρ × List α)) : Prop where
  accepted : chunks = s.accepted ∨ ∃ chunk, s.failed = some chunk ∧ chunks = s.accepted ++ [chunk]
  core : s.out.core = (f.framed start chunks).fst
  frames : s.out.received ++ s.out.queue = (f.framed start chunks).snd.flatten

section

theorem Framed.chunks_prefix (h : Framed f start s chunks)
    : chunks <+: s.accepted ++ s.failed.toList := by
  rcases h.accepted with rfl | ⟨chunk, hfailed, rfl⟩
  . apply prefix_append
  . rw [hfailed]
    apply prefix_rfl

theorem Framed.flatMap_prefix {β : Type} (h : Framed f start s chunks) {g : ρ × List α → List β}
    : chunks.flatMap g <+: s.accepted.flatMap g ++ s.failed.toList.flatMap g := by
  rcases h.chunks_prefix with ⟨more, hmore⟩
  rw [← flatMap_append, ← hmore, flatMap_append]
  apply prefix_append

theorem Framed.eq_accepted (h : Framed f start s chunks) (hfailed : s.failed = none)
    : chunks = s.accepted := by
  rcases h.accepted with hall | ⟨chunk, hsome, _⟩
  . exact hall
  . rw [hfailed] at hsome
    cases hsome

def Complete (f : Framer τ ρ α ε) (start : τ) (s : Session τ ρ α) : Prop :=
  (f.framed start s.accepted).snd.flatten <+: s.out.received

theorem Framed.complete_iff (h : Framed f start s chunks) (hfailed : s.failed = none)
    : Complete f start s ↔ s.out.queue = [] := by
  have hframes := h.frames
  rw [h.eq_accepted hfailed] at hframes
  unfold Complete
  rw [← hframes]
  constructor
  . intro hfront
    have hlength := hfront.length_le
    rw [length_append] at hlength
    apply length_eq_zero_iff.mp
    omega
  . intro hqueue
    refine ⟨[], ?_⟩
    rw [hqueue, append_nil, append_nil]

theorem framed_out (h : Framed f start s chunks)
    (hsum : received ++ queue = s.out.received ++ s.out.queue)
    : Framed f start { s with out := ⟨s.out.core, queue, received⟩ } chunks where
  accepted := h.accepted
  core := h.core
  frames := by rw [← h.frames, ← hsum]

theorem framed_flush (h : Framed f start s chunks) {answers : List (Poll (Except ε Nat))}
    {inner : Poll (Except ε Unit)}
    : Framed f start (s.step f (.flush answers inner)) chunks := by
  rcases f.pollFlush_spec s.out answers inner with ⟨queue, received, hout, hsum⟩
  simp only [step, hout]
  exact framed_out h hsum

theorem framed_write
    (hok : ∀ core r chunk, chunk.length ≤ f.limit → (f.append core r chunk).snd.snd = .ok ())
    (h : Framed f start s chunks) (hfailed : s.failed = none) (r : ρ) (buf : List α)
    (answers : List (Poll (Except ε Nat)))
    : ∃ chunks, Framed f start (s.step f (.write r buf answers)) chunks := by
  have hchunks := h.eq_accepted hfailed
  have hwrote := f.pollWrite_wrote s.out r buf answers
  unfold step
  dsimp only
  generalize f.pollWrite s.out r buf answers = wrote at hwrote ⊢
  cases hwrote with
  | waits queue received result hsum hresult =>
    have hout := framed_out h hsum
    rcases hresult with rfl | ⟨e, rfl⟩
    . exact ⟨chunks, hout⟩
    . exact ⟨chunks, .inl hchunks, hout.core, hout.frames⟩
  | refused core bytes queue received e hframe =>
    have happend := hok s.out.core r (buf.take f.limit) (length_take_le _ _)
    rw [hframe] at happend
    cases happend
  | queued core bytes queue received result hframe hsum hresult =>
    have hcore : core = (f.framed start (chunks ++ [(r, buf.take f.limit)])).fst := by
      rw [framed_append, ← h.core]
      simp only [framed, hframe]
    have hframes : received ++ queue
        = (f.framed start (chunks ++ [(r, buf.take f.limit)])).snd.flatten := by
      rw [framed_append, ← h.core, flatten_append, ← h.frames, hsum]
      simp [framed, hframe]
    refine ⟨chunks ++ [(r, buf.take f.limit)], ?_⟩
    rcases hresult with rfl | ⟨e, rfl⟩
    . refine ⟨.inl ?_, hcore, hframes⟩
      dsimp only
      rw [hchunks, length_take, ← take_eq_take_min]
    . exact ⟨.inr ⟨_, rfl, by rw [hchunks]⟩, hcore, hframes⟩

end

theorem step_write_out (s : Session τ ρ α) (r : ρ) (buf : List α)
    (answers : List (Poll (Except ε Nat)))
    : (s.step f (.write r buf answers)).out = (f.pollWrite s.out r buf answers).fst := by
  unfold step
  dsimp only
  match f.pollWrite s.out r buf answers with
  | (out, .ready (.ok n)) => rfl
  | (out, .ready (.error e)) => rfl
  | (out, .pending) => rfl

inductive Recorded (f : Framer τ ρ α ε) (s : Session τ ρ α) (r : ρ) (buf : List α)
    : Session τ ρ α → Poll (Except ε Nat) → Prop where
  | waits (t : Session τ ρ α) (haccepted : t.accepted = s.accepted) (hfailed : t.failed = s.failed)
    : Recorded f s r buf t .pending
  | fails (t : Session τ ρ α) (e : ε) (haccepted : t.accepted = s.accepted)
      (hfailed : t.failed = some (r, buf.take f.limit))
    : Recorded f s r buf t (.ready (.error e))
  | accepts (t : Session τ ρ α) (haccepted : t.accepted = s.accepted ++ [(r, buf.take f.limit)])
      (hfailed : t.failed = s.failed)
    : Recorded f s r buf t (.ready (.ok (buf.take f.limit).length))

theorem recorded_write (s : Session τ ρ α) (r : ρ) (buf : List α)
    (answers : List (Poll (Except ε Nat)))
    : Recorded f s r buf (s.step f (.write r buf answers))
        (f.pollWrite s.out r buf answers).snd := by
  have hwrote := f.pollWrite_wrote s.out r buf answers
  unfold step
  dsimp only
  generalize f.pollWrite s.out r buf answers = wrote at hwrote ⊢
  cases hwrote with
  | waits queue received result hsum hresult =>
    rcases hresult with rfl | ⟨e, rfl⟩
    . exact .waits _ rfl rfl
    . exact .fails _ e rfl rfl
  | refused core bytes queue received e hframe => exact .fails _ e rfl rfl
  | queued core bytes queue received result hframe hsum hresult =>
    rcases hresult with rfl | ⟨e, rfl⟩
    . refine .accepts _ ?_ rfl
      dsimp only
      rw [length_take, ← take_eq_take_min]
    . exact .fails _ e rfl rfl

theorem sent_of_reach (start : τ) (P : τ → List α → Prop) (hstart : P start [])
    (happend : ∀ core r chunk sent, chunk.length ≤ f.limit → P core sent →
      P (f.append core r chunk).fst (sent ++ (f.append core r chunk).snd.fst))
    (allowed : Session τ ρ α → Event ρ α ε → Prop) (s : Session τ ρ α)
    (h : Reach (step f) allowed (new start) s)
    : P s.out.core (s.out.received ++ s.out.queue) := by
  apply Reach.invariant (fun s => P s.out.core (s.out.received ++ s.out.queue)) _ s hstart _
    h
  intro s e hs _
  cases e with
  | write r buf answers =>
    have hnext := happend s.out.core r (buf.take f.limit) _ (length_take_le _ _) hs
    have hwrote := f.pollWrite_wrote s.out r buf answers
    rw [step_write_out]
    generalize f.pollWrite s.out r buf answers = wrote at hwrote ⊢
    cases hwrote with
    | waits queue received result hsum =>
      dsimp only
      rw [hsum]
      exact hs
    | refused core bytes queue received e hframe hsum =>
      rw [hframe, ← hsum] at hnext
      exact hnext
    | queued core bytes queue received result hframe hsum =>
      rw [hframe, ← hsum] at hnext
      exact hnext
  | flush answers inner =>
    rcases f.pollFlush_spec s.out answers inner with ⟨queue, received, hout, hsum⟩
    simp only [step, hout]
    rw [hsum]
    exact hs
  | shutdown inner => exact hs

theorem chunks_of_reach (start : τ) (P : List α → Prop)
    (allowed : Session τ ρ α → Event ρ α ε → Prop)
    (hallowed : ∀ s r buf answers, allowed s (.write r buf answers) → P (buf.take f.limit))
    (s : Session τ ρ α) (h : Reach (step f) allowed (new start) s)
    : ∀ chunk ∈ s.accepted ++ s.failed.toList, P chunk.snd := by
  apply Reach.invariant (fun s => ∀ chunk ∈ s.accepted ++ s.failed.toList, P chunk.snd) _ s
    _ _ h
  . intro chunk hchunk
    cases hchunk
  . intro s e hs he
    cases e with
    | write r buf answers =>
      have hbuf := hallowed s r buf answers he
      have hbefore : ∀ chunk ∈ s.accepted, P chunk.snd := fun chunk hchunk =>
        hs chunk (mem_append_left _ hchunk)
      have hfails : ∀ chunk ∈ s.accepted ++ (some (r, buf.take f.limit)).toList, P chunk.snd := by
        intro chunk hchunk
        rcases mem_append.mp hchunk with hin | hin
        . exact hbefore chunk hin
        . cases mem_singleton.mp hin
          exact hbuf
      have hwrote := recorded_write (f := f) s r buf answers
      generalize s.step f (.write r buf answers) = t, (f.pollWrite _ _ _ _).snd = result at hwrote ⊢
      cases hwrote with
      | waits haccepted hfailed =>
        rw [haccepted, hfailed]
        exact hs
      | fails e haccepted hfailed =>
        rw [haccepted, hfailed]
        exact hfails
      | accepts haccepted hfailed =>
        intro chunk hchunk
        simp only [haccepted, hfailed, append_assoc, mem_append, mem_singleton] at hchunk
        rcases hchunk with hin | rfl | hin
        . exact hbefore chunk hin
        . exact hbuf
        . exact hs chunk (mem_append_right _ hin)
    | flush answers inner => exact hs
    | shutdown inner => exact hs

theorem framed_of_reach
    (hok : ∀ core r chunk, chunk.length ≤ f.limit → (f.append core r chunk).snd.snd = .ok ())
    (hallowed : ∀ s e, allowed s e → s.enabled e = true)
    (h : Reach (step f) allowed (new start) s)
    : ∃ chunks, Framed f start s chunks := by
  apply Reach.invariant (fun s => ∃ chunks, Framed f start s chunks) _ s _ _ h
  . exact ⟨[], .inl rfl, rfl, rfl⟩
  . rintro s e ⟨chunks, hframed⟩ he
    cases e with
    | write r buf answers =>
      apply framed_write hok hframed
      have hnone := hallowed s _ he
      simpa [enabled] using hnone
    | flush answers inner => exact ⟨chunks, framed_flush hframed⟩
    | shutdown inner => exact ⟨chunks, hframed⟩

end Session

end Framer
