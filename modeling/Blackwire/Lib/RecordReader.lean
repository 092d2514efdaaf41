import Mathlib.Data.List.TakeWhile
import Blackwire.Lib.Fill
import Blackwire.Lib.Loop

/-!
This module contains readers of records. A record has a header of a fixed length, which says how
long the body is. Whatever the stream below delivers at a time, the polls of a reader return what
`parse` makes of all of it at once.
-/

/--
How a record is read: the length of its body, and what it holds. `σ` is the state of a reader from
one record to the next, and an error leaves it as it is.
-/
structure RecordFormat (σ α ε : Type) where
  headerLen : Nat
  headerLen_pos : 0 < headerLen
  bodyLen : List α → Except ε Nat
  process : σ → List α → List α → Except ε (σ × List α)
  headerEof : ε
  bodyEof : ε

namespace RecordFormat

open List

open Script (Moved)

variable {σ α ε ι : Type}

-- A buffer is what there is up to its cursor, or what is left of it behind its cursor.
inductive Phase (α : Type) where
  | plain (buf : List α)
  | header (buf : List α)
  | body (header : List α) (len : Nat) (buf : List α)

structure Reader (σ α : Type) where
  core : σ
  phase : Phase α

def Reader.new (core : σ) : Reader σ α :=
  ⟨core, .header []⟩

-- An error is one of the stream below or one of the reader.
abbrev Result (α ι ε : Type) := Poll (Except (ι ⊕ ε) (List α))

abbrev Turn (σ α ι ε : Type) :=
  Loop.Step (Reader σ α × Script α ι) (Reader σ α × Result α ι ε × Script α ι)

def stopped (eof : ε) : Filled ι → Result α ι ε
  | .closed => .ready (.error (.inr eof))
  | .failed e => .ready (.error (.inl e))
  | _ => .pending

variable (f : RecordFormat σ α ε)

def finish (core : σ) (header body : List α) (script : Script α ι) : Turn σ α ι ε :=
  match f.process core header body with
  | .error e => .done (⟨core, .header []⟩, .ready (.error (.inr e)), script)
  | .ok (core, data) => .next (⟨core, .plain data⟩, script)

def readBody (core : σ) (header : List α) (len : Nat) (buf : List α) (script : Script α ι)
    : Turn σ α ι ε :=
  let (buf, filled, script) := script.fill len buf
  match filled with
  | .full => f.finish core header buf script
  | filled => .done (⟨core, .body header len buf⟩, stopped f.bodyEof filled, script)

def beginBody (core : σ) (header : List α) (script : Script α ι) : Turn σ α ι ε :=
  match f.bodyLen header with
  | .error e => .done (⟨core, .header header⟩, .ready (.error (.inr e)), script)
  | .ok len => f.readBody core header len [] script

def readHeader (core : σ) (buf : List α) (script : Script α ι) : Turn σ α ι ε :=
  let (buf, filled, script) := script.fill f.headerLen buf
  match filled with
  | .full => f.beginBody core buf script
  | filled => .done (⟨core, .header buf⟩, stopped f.headerEof filled, script)

def turn (cap : Nat) (t : Reader σ α × Script α ι) : Turn σ α ι ε :=
  let (r, script) := t
  match r.phase with
  | .plain buf =>
    if buf.isEmpty then
      f.readHeader r.core [] script
    else
      .done (⟨r.core, .plain (buf.drop cap)⟩, .ready (.ok (buf.take cap)), script)
  | .header buf => f.readHeader r.core buf script
  | .body header len buf => f.readBody r.core header len buf script

def pollRead (cap : Nat) (r : Reader σ α) (script : Script α ι)
    : Reader σ α × Result α ι ε × Script α ι :=
  (Loop.run (f.turn cap) (script.bytes.length + 2) (r, script)).getD (r, .pending, script)

structure Parsed (σ α ε : Type) where
  records : List (σ × List α × List α)
  plain : List α
  error : Option ε

namespace Parsed

def nothing : Parsed σ α ε := ⟨[], [], none⟩

def refused (e : ε) : Parsed σ α ε := ⟨[], [], some e⟩

def cons (core : σ) (header body data : List α) (p : Parsed σ α ε) : Parsed σ α ε :=
  ⟨(core, header, body) :: p.records, data ++ p.plain, p.error⟩

end Parsed

def parseLoop : Nat → σ → List α → Parsed σ α ε
  | 0, _, _ => .nothing
  | fuel + 1, core, bytes =>
    let header := bytes.take f.headerLen
    let rest := bytes.drop f.headerLen
    if bytes.length < f.headerLen then
      .nothing
    else
      match f.bodyLen header with
      | .error e => .refused e
      | .ok len =>
        if rest.length < len then
          .nothing
        else
          match f.process core header (rest.take len) with
          | .error e => .refused e
          | .ok (core', data) =>
            (parseLoop fuel core' (rest.drop len)).cons core header (rest.take len) data

def parse (core : σ) (bytes : List α) : Parsed σ α ε :=
  f.parseLoop (bytes.length + 1) core bytes

section

variable {f}

theorem parseLoop_eq (h : bytes.length < fuel) (h' : bytes.length < fuel')
    : f.parseLoop fuel core bytes = f.parseLoop fuel' core bytes := by
  induction fuel generalizing fuel' core bytes with
  | zero => exact absurd h (Nat.not_lt_zero _)
  | succ fuel ih =>
    cases fuel' with
    | zero => exact absurd h' (Nat.not_lt_zero _)
    | succ fuel' =>
      unfold parseLoop
      dsimp only
      split
      . rfl
      . next hlong =>
        split
        . rfl
        . next len _ =>
          split
          . rfl
          split
          . rfl
          . next core' data _ =>
            have hpos := f.headerLen_pos
            have hlength : ((bytes.drop f.headerLen).drop len).length < bytes.length := by
              rw [length_drop, length_drop]
              omega
            have hfuel : ((bytes.drop f.headerLen).drop len).length < fuel' := by omega
            rw [ih (by omega) hfuel]

variable {header body rest : List α} (hheader : header.length = f.headerLen)

theorem parse_of_short_header (h : rest.length < f.headerLen)
    : f.parse core rest = .nothing := by
  unfold parse parseLoop
  rw [if_pos h]

include hheader

theorem parse_of_bad_header (h : f.bodyLen header = .error e)
    : f.parse core (header ++ rest) = .refused e := by
  have hlong : ¬(header ++ rest).length < f.headerLen := by
    rw [length_append]
    omega
  unfold parse parseLoop
  rw [if_neg hlong, ← hheader, take_left, h]

variable (hlen : f.bodyLen header = .ok len)

include hlen

theorem parse_of_short_body (h : body.length < len)
    : f.parse core (header ++ body) = .nothing := by
  have hlong : ¬(header ++ body).length < f.headerLen := by
    rw [length_append]
    omega
  unfold parse parseLoop
  rw [if_neg hlong, ← hheader, take_left, hlen]
  dsimp only
  rw [drop_left, if_pos h]

variable (hbody : body.length = len)

include hbody

theorem parse_of_refused (h : f.process core header body = .error e)
    : f.parse core (header ++ body ++ rest) = .refused e := by
  have hlong : ¬(header ++ body ++ rest).length < f.headerLen := by
    simp only [length_append]
    omega
  have hwhole : ¬(body ++ rest).length < len := by
    rw [length_append]
    omega
  unfold parse parseLoop
  rw [if_neg hlong, ← hheader, append_assoc, take_left, hlen]
  dsimp only
  rw [drop_left, if_neg hwhole, ← hbody, take_left, h]

theorem parse_record (h : f.process core header body = .ok (core', data))
    : f.parse core (header ++ body ++ rest)
        = (f.parse core' rest).cons core header body data := by
  have hpos := f.headerLen_pos
  have hlong : ¬(header ++ body ++ rest).length < f.headerLen := by
    simp only [length_append]
    omega
  have hwhole : ¬(body ++ rest).length < len := by
    rw [length_append]
    omega
  have hfuel : rest.length < (header ++ body ++ rest).length := by
    simp only [length_append]
    omega
  unfold parse
  rw [parseLoop]
  rw [if_neg hlong, ← hheader, append_assoc, take_left, hlen]
  dsimp only
  rw [drop_left, if_neg hwhole, ← hbody, take_left, h]
  dsimp only
  rw [drop_left, ← append_assoc,
    parseLoop_eq hfuel (Nat.lt_succ_self rest.length)]

end

/--
To show something of all bytes, show it of bytes that begin with a record that is not complete or is
refused, and go on behind a record that is processed.
-/
theorem parse_induction {f : RecordFormat σ α ε} {motive : σ → List α → Prop}
    (short : ∀ core bytes, f.parse core bytes = .nothing → motive core bytes)
    (refused : ∀ core bytes e, f.parse core bytes = .refused e →
      (∀ more, f.parse core (bytes ++ more) = .refused e) → motive core bytes)
    (record : ∀ core header body rest len core' data, header.length = f.headerLen →
      f.bodyLen header = .ok len → body.length = len →
      f.process core header body = .ok (core', data) → motive core' rest →
      motive core (header ++ body ++ rest))
    (core : σ) (bytes : List α)
    : motive core bytes := by
  generalize hn : bytes.length = n
  induction n using Nat.strongRecOn generalizing core bytes with
  | ind n ih =>
    by_cases hshort : bytes.length < f.headerLen
    . exact short core bytes (parse_of_short_header hshort)
    have hheader : (bytes.take f.headerLen).length = f.headerLen := by
      rw [length_take]
      omega
    have hsplit := take_append_drop f.headerLen bytes
    generalize bytes.take f.headerLen = header at hheader hsplit
    generalize bytes.drop f.headerLen = tail at hsplit
    subst hsplit
    cases hlen : f.bodyLen header with
    | error e =>
      apply refused core _ e (parse_of_bad_header hheader hlen)
      intro more
      rw [append_assoc]
      exact parse_of_bad_header hheader hlen
    | ok len =>
      by_cases hlong : tail.length < len
      . exact short core _ (parse_of_short_body hheader hlen hlong)
      have hbody : (tail.take len).length = len := by
        rw [length_take]
        omega
      have htail := take_append_drop len tail
      generalize tail.take len = body at hbody htail
      generalize tail.drop len = rest at htail
      subst htail
      rw [← append_assoc]
      cases hprocess : f.process core header body with
      | error e =>
        apply refused core _ e (parse_of_refused hheader hlen hbody hprocess)
        intro more
        rw [append_assoc]
        exact parse_of_refused hheader hlen hbody hprocess
      | ok processed =>
        rcases processed with ⟨core', data⟩
        apply record core header body rest len core' data hheader hlen hbody hprocess
        apply ih rest.length _ core' rest rfl
        have hpos := f.headerLen_pos
        simp only [length_append] at hn
        omega

theorem parse_append (f : RecordFormat σ α ε) (core : σ) (bytes more : List α)
    : (f.parse core bytes).plain <+: (f.parse core (bytes ++ more)).plain
      ∧ ∀ e, (f.parse core bytes).error = some e →
        (f.parse core (bytes ++ more)).error = some e := by
  induction core, bytes using f.parse_induction with
  | short core bytes h =>
    rw [h]
    exact ⟨ nil_prefix, fun e he => by cases he⟩
  | refused core bytes e h hmore =>
    rw [h, hmore more]
    exact ⟨prefix_rfl, fun _ he => he⟩
  | record core header body rest len core' data hheader hlen hbody hprocess ih =>
    rw [parse_record hheader hlen hbody hprocess, append_assoc (header ++ body),
      parse_record hheader hlen hbody hprocess]
    refine ⟨?_, ih.right⟩
    exact (prefix_append_right_inj data).mpr ih.left

-- The same records, of which nothing is made.
def framing : RecordFormat Unit α ε :=
  ⟨f.headerLen, f.headerLen_pos, f.bodyLen, fun _ _ _ => .ok ((), []), f.headerEof, f.bodyEof⟩

def bodies (bytes : List α) : List (List α) :=
  (f.framing.parse () bytes).records.map (·.snd.snd)

theorem mem_bodies {f : RecordFormat σ α ε} (core : σ) {bytes : List α}
    : ∀ r ∈ (f.parse core bytes).records, r.snd.snd ∈ f.bodies bytes := by
  induction core, bytes using f.parse_induction with
  | short core bytes h =>
    rw [h]
    intro r hr
    cases hr
  | refused core bytes e h hmore =>
    rw [h]
    intro r hr
    cases hr
  | record core header body rest len core' data hheader hlen hbody hprocess ih =>
    rw [parse_record hheader hlen hbody hprocess]
    unfold bodies
    rw [parse_record (f := f.framing) hheader hlen hbody rfl]
    intro r hr
    rcases mem_cons.mp hr with rfl | hr
    . exact mem_cons_self
    . exact mem_cons_of_mem _ (ih r hr)

namespace Phase

def avail : Phase α → List α
  | plain buf => buf
  | _ => []

def raw : Phase α → List α
  | plain _ => []
  | header buf => buf
  | body front _ buf => front ++ buf

def started : Phase α → Nat
  | plain _ => 0
  | header buf => min buf.length 1
  | body _ _ _ => 1

end Phase

def Fits : Phase α → Prop
  | .plain _ => True
  | .header buf => buf.length ≤ f.headerLen
  | .body header len buf =>
    header.length = f.headerLen ∧ f.bodyLen header = .ok len ∧ buf.length ≤ len

inductive Turned (cap : Nat) (r : Reader σ α) (script : Script α ι) : Turn σ α ι ε → Prop where
  | serves (buf : List α) (hphase : r.phase = .plain buf) (hne : buf ≠ [])
    : Turned cap r script
        (.done (⟨r.core, .plain (buf.drop cap)⟩, .ready (.ok (buf.take cap)), script))
  | stops (phase : Phase α) (eof : ε) (filled : Filled ι) (rest : Script α ι)
      (havail : r.phase.avail = []) (havail' : phase.avail = []) (hfits : f.Fits phase)
      (hmoved : Moved r.phase.raw script phase.raw rest)
      (hshort : ∀ core, f.parse core phase.raw = .nothing)
      (hfull : filled ≠ .full) (hclosed : filled = .closed → ¬script.Flowing)
      (hfewer : rest.length < script.length ∨ rest = [])
    : Turned cap r script (.done (⟨r.core, phase⟩, stopped eof filled, rest))
  | refuses (header : List α) (e : ε) (rest : Script α ι) (havail : r.phase.avail = [])
      (hheader : header.length = f.headerLen) (hlen : f.bodyLen header = .error e)
      (hmoved : Moved r.phase.raw script header rest)
    : Turned cap r script
        (.done (⟨r.core, .header header⟩, .ready (.error (.inr e)), rest))
  | finishes (header body : List α) (len : Nat) (rest : Script α ι) (havail : r.phase.avail = [])
      (hheader : header.length = f.headerLen) (hlen : f.bodyLen header = .ok len)
      (hbody : body.length = len) (hmoved : Moved r.phase.raw script (header ++ body) rest)
    : Turned cap r script (f.finish r.core header body rest)

section

variable {f} {cap : Nat} {r : Reader σ α} {script : Script α ι}

theorem turned_readBody (havail : r.phase.avail = []) (hfits : f.Fits (.body header len buf))
    (hmoved : Moved r.phase.raw script (header ++ buf) rest)
    : f.Turned cap r script (f.readBody r.core header len buf rest) := by
  have hfills := rest.fill_fills len buf
  unfold readBody
  generalize rest.fill len buf = out at hfills
  rcases out with ⟨buf', filled, last⟩
  have hmoved' := hmoved.trans (.of_fills hfills header)
  rcases hfits with ⟨hheader, hlen, hroom⟩
  dsimp only
  split
  . exact .finishes header buf' len last havail hheader hlen (hfills.length_eq hroom rfl) hmoved'
  . next hfilled =>
    have hlt := hfills.length_lt hfilled
    have hfewer := hmoved.fewer (hfills.fewer hfilled)
    have hclosed : filled = .closed → ¬script.Flowing := by
      intro heq hflowing
      exact hmoved.flowing hflowing (hfills.closed heq)
    exact .stops _ _ filled last havail rfl ⟨hheader, hlen, hfills.fits hroom⟩ hmoved'
      (fun core => parse_of_short_body hheader hlen hlt) hfilled hclosed hfewer

theorem turned_readHeader (havail : r.phase.avail = []) (hraw : r.phase.raw = buf)
    (hfits : buf.length ≤ f.headerLen)
    : f.Turned cap r script (f.readHeader r.core buf script) := by
  have hfills := script.fill_fills f.headerLen buf
  unfold readHeader
  generalize script.fill f.headerLen buf = out at hfills
  rcases out with ⟨buf', filled, rest⟩
  have hmoved : Moved r.phase.raw script buf' rest := by
    rw [hraw]
    exact .of_fills hfills []
  dsimp only
  split
  . have hheader : buf'.length = f.headerLen := hfills.length_eq hfits rfl
    unfold beginBody
    split
    . next e hlen => exact .refuses buf' e rest havail hheader hlen hmoved
    . next len hlen =>
      apply turned_readBody havail
      . exact ⟨hheader, hlen, Nat.zero_le _⟩
      . rw [append_nil]
        exact hmoved
  . next hfilled =>
    have hlt := hfills.length_lt hfilled
    exact .stops _ _ filled rest havail rfl (hfills.fits hfits) hmoved
      (fun core => parse_of_short_header hlt) hfilled
      (fun heq hflowing => hflowing (hfills.closed heq)) (hfills.fewer hfilled)

variable (cap script) in
theorem turned_turn (hfits : f.Fits r.phase) : f.Turned cap r script (f.turn cap (r, script)) := by
  unfold turn
  dsimp only
  split
  . next buf hphase =>
    split
    . next hempty =>
      have hempty : buf = [] := by simpa using hempty
      subst hempty
      apply turned_readHeader
      . rw [hphase]
        rfl
      . rw [hphase]
        rfl
      . exact Nat.zero_le _
    . next hne => exact .serves buf hphase (by simpa using hne)
  . next buf hphase =>
    rw [hphase] at hfits
    apply turned_readHeader
    . rw [hphase]
      rfl
    . rw [hphase]
      rfl
    . exact hfits
  . next header len buf hphase =>
    rw [hphase] at hfits
    apply turned_readBody
    . rw [hphase]
      rfl
    . exact hfits
    . rw [hphase]
      exact .refl _ _

def ahead (f : RecordFormat σ α ε) (r : Reader σ α) (bytes : List α) : List α × Option ε :=
  (r.phase.avail ++ (f.parse r.core (r.phase.raw ++ bytes)).plain,
    (f.parse r.core (r.phase.raw ++ bytes)).error)

theorem ahead_of_avail_nil (havail : r.phase.avail = []) (bytes : List α)
    : f.ahead r bytes
        = ((f.parse r.core (r.phase.raw ++ bytes)).plain,
          (f.parse r.core (r.phase.raw ++ bytes)).error) := by
  unfold ahead
  rw [havail, nil_append]

theorem started_lt_of_moved (h : Moved r.phase.raw script (header ++ body) rest)
    (hpos : 0 < header.length)
    : rest.bytes.length < script.bytes.length + r.phase.started := by
  rcases h.taken with ⟨more, hwire, hbytes⟩
  have hlength := congrArg List.length hwire
  rw [← hbytes]
  simp only [length_append] at hlength ⊢
  unfold Phase.started
  split
  . next hphase =>
    simp only [hphase, Phase.raw, length_nil] at hlength
    omega
  . next hphase =>
    simp only [hphase, Phase.raw] at hlength
    omega
  . omega

theorem turn_next (hfits : f.Fits r.phase) (h : f.turn cap (r, script) = .next (r', script'))
    : (f.Fits r'.phase ∧ f.ahead r' script'.bytes = f.ahead r script.bytes
        ∧ (script.Flowing → script'.Flowing) ∧ script'.length ≤ script.length)
      ∧ script'.bytes.length + r'.phase.started < script.bytes.length + r.phase.started := by
  have hturned := f.turned_turn cap script hfits
  rw [h] at hturned
  generalize hnext : Loop.Step.next (r', script') = next at hturned
  cases hturned with
  | serves => cases hnext
  | stops => cases hnext
  | refuses => cases hnext
  | finishes header body len rest havail hheader hlen hbody hmoved =>
    unfold finish at hnext
    split at hnext
    . cases hnext
    . next core data hprocess =>
      cases hnext
      have hpos := f.headerLen_pos
      refine ⟨⟨trivial, ?_, hmoved.flowing, hmoved.length⟩, ?_⟩
      . rw [ahead_of_avail_nil havail, ← hmoved.bytes,
          parse_record hheader hlen hbody hprocess]
        rfl
      . exact started_lt_of_moved hmoved (by omega)

variable (cap script) in
theorem pollRead_eq (hfits : f.Fits r.phase)
    : ∃ r' script', (f.Fits r'.phase ∧ f.ahead r' script'.bytes = f.ahead r script.bytes
        ∧ (script.Flowing → script'.Flowing) ∧ script'.length ≤ script.length)
      ∧ f.turn cap (r', script') = .done (f.pollRead cap r script) := by
  have hstarted : r.phase.started ≤ 1 := by
    unfold Phase.started
    split <;> omega
  rcases Loop.run_of_invariant
    (fun t => f.Fits t.fst.phase ∧ f.ahead t.fst t.snd.bytes = f.ahead r script.bytes
      ∧ (script.Flowing → t.snd.Flowing) ∧ t.snd.length ≤ script.length)
    (fun t => t.snd.bytes.length + t.fst.phase.started)
    (fun t t' ht hturn => by
      rcases turn_next ht.left hturn with ⟨⟨hfits', hahead, hflowing, hlength⟩, hlt⟩
      exact ⟨⟨hfits', hahead.trans ht.right.left, fun h => hflowing (ht.right.right.left h),
        Nat.le_trans hlength ht.right.right.right⟩, hlt⟩)
    (script.bytes.length + 2) (r, script) ⟨hfits, rfl, id, Nat.le_refl _⟩
    (by dsimp only; omega) with ⟨⟨r', script'⟩, result, hinv, hdone, hrun⟩
  refine ⟨r', script', hinv, ?_⟩
  unfold pollRead
  rw [hrun]
  exact hdone

/--
What a poll has done: it has returned some of what was ahead, it has returned nothing since the
stream below does not go on, or it has failed where nothing is ahead of the reader but this error.
-/
inductive Polled (f : RecordFormat σ α ε) (cap : Nat) (script : Script α ι)
    (before : List α × Option ε) : Reader σ α × Result α ι ε × Script α ι → Prop where
  | returns (r : Reader σ α) (data : List α) (rest : Script α ι) (hfits : f.Fits r.phase)
      (hahead : before = (data ++ (f.ahead r rest.bytes).fst, (f.ahead r rest.bytes).snd))
      (hdata : 0 < cap → data ≠ []) (hflowing : script.Flowing → rest.Flowing)
      (hlength : rest.length ≤ script.length)
    : Polled f cap script before (r, .ready (.ok data), rest)
  | stops (r : Reader σ α) (eof : ε) (filled : Filled ι) (rest : Script α ι)
      (hfits : f.Fits r.phase) (hahead : before = f.ahead r rest.bytes) (hfull : filled ≠ .full)
      (hclosed : filled = .closed → ¬script.Flowing) (hflowing : script.Flowing → rest.Flowing)
      (hlength : rest.length ≤ script.length)
      (hfewer : rest.length < script.length ∨ rest = [] ∧ before = ([], none))
    : Polled f cap script before (r, stopped eof filled, rest)
  | fails (r : Reader σ α) (e : ε) (rest : Script α ι) (hahead : before = ([], some e))
      (hlength : rest.length ≤ script.length)
    : Polled f cap script before (r, .ready (.error (.inr e)), rest)

variable (cap script) in
theorem polled_pollRead (hfits : f.Fits r.phase)
    : f.Polled cap script (f.ahead r script.bytes) (f.pollRead cap r script) := by
  rcases pollRead_eq cap script hfits with
    ⟨r', script', ⟨hfits', hahead, hflowing, hlength⟩, hdone⟩
  have hturned := f.turned_turn cap script' hfits'
  rw [hdone] at hturned
  rw [← hahead]
  generalize f.pollRead cap r script = out at hturned
  generalize hlast : Loop.Step.done out = last at hturned
  cases hturned with
  | serves buf hphase hne =>
    cases hlast
    refine .returns _ _ _ trivial ?_ ?_ hflowing hlength
    . simp only [ahead, hphase, Phase.avail, Phase.raw]
      rw [← append_assoc, take_append_drop]
    . intro hcap
      rw [ne_eq, take_eq_nil_iff]
      simp [hne, Nat.ne_of_gt hcap]
  | stops phase eof filled rest havail havail' hfitsPhase hmoved hshort hfull hclosed hfewer =>
    cases hlast
    have hsame : f.ahead r' script'.bytes = f.ahead ⟨r'.core, phase⟩ rest.bytes := by
      rw [ahead_of_avail_nil havail, ahead_of_avail_nil havail', hmoved.bytes]
    have hless := hmoved.length
    refine .stops _ eof filled rest hfitsPhase hsame hfull ?_ ?_ (Nat.le_trans hless hlength) ?_
    . exact fun heq hflow => hclosed heq (hflowing hflow)
    . exact fun hflow => hmoved.flowing (hflowing hflow)
    . rcases hfewer with hlt | hempty
      . exact Or.inl (by omega)
      right
      refine ⟨hempty, ?_⟩
      rw [hsame, ahead_of_avail_nil havail', hempty, Script.bytes, append_nil, hshort]
      rfl
  | refuses header e rest havail hheader hlen hmoved =>
    cases hlast
    refine .fails _ e rest ?_ (Nat.le_trans hmoved.length hlength)
    rw [ahead_of_avail_nil havail, ← hmoved.bytes,
      parse_of_bad_header hheader hlen]
    rfl
  | finishes header body len rest havail hheader hlen hbody hmoved =>
    unfold finish at hlast
    split at hlast
    . next e hprocess =>
      cases hlast
      refine .fails _ e rest ?_ (Nat.le_trans hmoved.length hlength)
      rw [ahead_of_avail_nil havail, ← hmoved.bytes,
        parse_of_refused hheader hlen hbody hprocess]
      rfl
    . cases hlast

end

structure Session (σ α ι ε : Type) where
  reader : Reader σ α
  script : Script α ι
  log : List (Result α ι ε)

namespace Session

def start (core : σ) (script : Script α ι) : Session σ α ι ε :=
  ⟨.new core, script, []⟩

def step (f : RecordFormat σ α ε) (s : Session σ α ι ε) (cap : Nat) : Session σ α ι ε :=
  let (reader, result, script) := f.pollRead cap s.reader s.script
  ⟨reader, script, s.log ++ [result]⟩

def failed : Result α ι ε → Bool
  | .ready (.error (.inr _)) => true
  | _ => false

def data : Result α ι ε → List α
  | .ready (.ok bytes) => bytes
  | _ => []

def returned (s : Session σ α ι ε) : List α :=
  (s.log.takeWhile (!failed ·)).flatMap data

theorem data_of_failed (h : failed result = true) : data result = [] := by
  match result with
  | .pending => rfl
  | .ready (.error _) => rfl
  | .ready (.ok _) => cases h

section

variable {f : RecordFormat σ α ε} {s : Session σ α ι ε}

theorem returned_of_clean (h : ∀ result ∈ s.log, failed result = false)
    : s.returned = s.log.flatMap data := by
  unfold returned
  rw [takeWhile_eq_self_iff.mpr]
  intro result hresult
  rw [h result hresult]
  rfl

variable (f) in
theorem returned_step_of_clean (h : ∀ result ∈ s.log, failed result = false) (cap : Nat)
    : (s.step f cap).returned
        = s.returned ++ data (f.pollRead cap s.reader s.script).snd.fst := by
  rw [returned_of_clean h]
  unfold returned step
  dsimp only
  rw [takeWhile_append_of_pos (by simpa using h), flatMap_append]
  cases hfailed : failed (f.pollRead cap s.reader s.script).snd.fst with
  | true => simp [hfailed, data_of_failed hfailed]
  | false => simp [hfailed]

theorem returned_step_of_failed (h : ∃ result ∈ s.log, failed result = true)
    : (s.step f cap).returned = s.returned := by
  rcases h with ⟨result, hresult, hfailed⟩
  unfold returned step
  generalize s.log = log at hresult
  induction log with
  | nil => cases hresult
  | cons first log ih =>
    cases hfirst : failed first with
    | true => simp [hfirst]
    | false =>
      rcases mem_cons.mp hresult with rfl | hmem
      . rw [hfailed] at hfirst
        cases hfirst
      . simp [hfirst, ih hmem]

theorem returned_foldl_of_failed {caps : List Nat} (h : ∃ result ∈ s.log, failed result = true)
    : (caps.foldl (step f) s).returned = s.returned := by
  induction caps generalizing s with
  | nil => rfl
  | cons cap caps ih =>
    rcases h with ⟨result, hresult, hfailed⟩
    rw [foldl_cons, ih ⟨result, mem_append_left _ hresult, hfailed⟩]
    exact returned_step_of_failed ⟨result, hresult, hfailed⟩

end

structure Going (f : RecordFormat σ α ε) (whole : Parsed σ α ε) (s : Session σ α ι ε)
    : Prop where
  log : ∀ result ∈ s.log, failed result = false
  fits : f.Fits s.reader.phase
  plain : s.returned ++ (f.ahead s.reader s.script.bytes).fst = whole.plain
  error : (f.ahead s.reader s.script.bytes).snd = whole.error

section

variable {f : RecordFormat σ α ε} {s : Session σ α ι ε}

theorem going_start {script : Script α ι}
    : Going f (f.parse core script.bytes) (start core script) where
  log := by simp [start]
  fits := Nat.zero_le _
  plain := by simp [start, Reader.new, returned, ahead, Phase.avail, Phase.raw]
  error := by simp [start, Reader.new, ahead, Phase.raw]

theorem Going.isPrefix (h : Going f whole s) : s.returned <+: whole.plain :=
  ⟨_, h.plain⟩

inductive Stepped (f : RecordFormat σ α ε) (whole : Parsed σ α ε) (cap : Nat)
    (s s' : Session σ α ι ε) : Prop where
  | goes (hgoing : Going f whole s') (hflowing : s.script.Flowing → s'.script.Flowing)
      (hfewer : 0 < cap →
        whole.plain.length - s'.returned.length + s'.script.length
          < whole.plain.length - s.returned.length + s.script.length
        ∨ s'.returned = whole.plain ∧ s'.script = [] ∧ whole.error = none)
  | fails (hlog : ∃ result ∈ s'.log, failed result = true) (hreturned : s'.returned = s.returned)
      (hall : s.script.Flowing → s.returned = whole.plain ∧ whole.error ≠ none)

theorem Going.stepped (h : Going f whole s) : Stepped f whole cap s (s.step f cap) := by
  have hreturned := returned_step_of_clean f h.log cap
  have hplain := h.plain
  have herror := h.error
  have hpolled := polled_pollRead cap s.script h.fits
  have hstep : s.step f cap
      = ⟨(f.pollRead cap s.reader s.script).fst, (f.pollRead cap s.reader s.script).snd.snd,
        s.log ++ [(f.pollRead cap s.reader s.script).snd.fst]⟩ := rfl
  generalize f.pollRead cap s.reader s.script = out at hreturned hpolled hstep
  generalize s.step f cap = s' at hreturned hstep
  subst hstep
  have hlog (result : Result α ι ε) (hresult : failed result = false)
      : ∀ x ∈ s.log ++ [result], failed x = false := by
    rw [forall_mem_append, forall_mem_singleton]
    exact ⟨h.log, hresult⟩
  generalize hbefore : f.ahead s.reader s.script.bytes = before at hpolled
  rw [hbefore] at hplain herror
  cases hpolled with
  | returns r bytes rest hfits hahead hdata hflowing hlength =>
    subst hahead
    have hgoing : Going f whole ⟨r, rest, s.log ++ [.ready (.ok bytes)]⟩ := by
      refine ⟨hlog _ rfl, hfits, ?_, herror⟩
      rw [hreturned, append_assoc]
      exact hplain
    refine .goes hgoing hflowing ?_
    intro hcap
    have hpos := length_pos_iff.mpr (hdata hcap)
    have hle := hgoing.isPrefix.length_le
    left
    rw [hreturned] at hle ⊢
    dsimp only [data] at hle ⊢
    rw [length_append] at hle ⊢
    omega
  | stops r eof filled rest hfits hahead hfull hclosed hflowing hlength hfewer =>
    have hnone : data (stopped (α := α) eof filled) = [] := by
      cases filled <;> rfl
    rw [hnone, append_nil] at hreturned
    by_cases heq : filled = .closed
    . refine .fails ⟨_, mem_append_right _ (mem_singleton_self _), ?_⟩ hreturned ?_
      . rw [heq]
        rfl
      . exact fun hflow => absurd hflow (hclosed heq)
    . have hclean : failed (stopped (α := α) eof filled) = false := by
        cases filled with
        | closed => exact absurd rfl heq
        | full => rfl
        | waits => rfl
        | failed e => rfl
      refine .goes ⟨hlog _ hclean, hfits, ?_, ?_⟩ hflowing ?_
      . rw [hreturned, ← hahead]
        exact hplain
      . rw [← hahead]
        exact herror
      . intro _
        rw [hreturned]
        dsimp only
        rcases hfewer with hlt | ⟨hempty, hnothing⟩
        . exact Or.inl (by omega)
        . rw [hnothing] at hplain herror
          rw [append_nil] at hplain
          exact Or.inr ⟨hplain, hempty, herror.symm⟩
  | fails r e rest hahead hlength =>
    subst hahead
    rw [append_nil] at hplain
    refine .fails ⟨_, mem_append_right _ (mem_singleton_self _), rfl⟩ ?_ ?_
    . rw [hreturned]
      exact append_nil _
    . intro _
      rw [← herror]
      exact ⟨hplain, by simp⟩

theorem returned_isPrefix (core : σ) {script : Script α ι} {caps : List Nat}
    : (caps.foldl (step f) (start core script)).returned <+: (f.parse core script.bytes).plain := by
  have hgoing : Going f (f.parse core script.bytes) (start (ι := ι) core script) :=
    going_start
  generalize start core script = s at hgoing
  induction caps generalizing s with
  | nil => exact hgoing.isPrefix
  | cons cap caps ih =>
    cases hgoing.stepped with
    | goes hnext => exact ih _ hnext
    | fails hlog hreturned =>
      rw [foldl_cons, returned_foldl_of_failed hlog, hreturned]
      exact hgoing.isPrefix

theorem going_foldl (h : Going f whole s) (hflowing : s.script.Flowing)
    (herror : whole.error = none) {caps : List Nat}
    : Going f whole (caps.foldl (step f) s) := by
  induction caps generalizing s with
  | nil => exact h
  | cons cap caps ih =>
    cases h.stepped with
    | goes hnext hflow => exact ih hnext (hflow hflowing)
    | fails hlog hreturned hall => exact absurd herror (hall hflowing).right

theorem log_foldl (s : Session σ α ι ε) (caps : List Nat)
    : s.log <+: (caps.foldl (step f) s).log := by
  induction caps generalizing s with
  | nil => exact prefix_rfl
  | cons cap caps ih => exact (prefix_append _ _).trans (ih (s.step f cap))

theorem Going.failed_foldl (h : Going f whole s) (hflowing : s.script.Flowing)
    (herror : whole.error ≠ none) {caps : List Nat} (hcaps : ∀ cap ∈ caps, 0 < cap)
    (hlong : whole.plain.length - s.returned.length + s.script.length < caps.length)
    : ∃ result ∈ (caps.foldl (step f) s).log, failed result = true := by
  induction caps generalizing s with
  | nil => exact absurd hlong (Nat.not_lt_zero _)
  | cons cap caps ih =>
    rw [forall_mem_cons] at hcaps
    rw [length_cons] at hlong
    cases h.stepped with
    | goes hnext hflow hfewer =>
      rcases hfewer hcaps.left with hlt | ⟨_, _, hnone⟩
      . exact ih hnext (hflow hflowing) hcaps.right (by omega)
      . exact absurd hnone herror
    | fails hlog =>
      rcases hlog with ⟨result, hresult, hfailed⟩
      exact ⟨result, (log_foldl _ caps).subset hresult, hfailed⟩

theorem Going.returned_foldl (h : Going f whole s) (hflowing : s.script.Flowing) {caps : List Nat}
    (hcaps : ∀ cap ∈ caps, 0 < cap)
    (hlong : whole.plain.length - s.returned.length + s.script.length ≤ caps.length)
    : (caps.foldl (step f) s).returned = whole.plain := by
  induction caps generalizing s with
  | nil =>
    rw [length_nil] at hlong
    apply h.isPrefix.eq_of_length_le
    omega
  | cons cap caps ih =>
    rw [forall_mem_cons] at hcaps
    rw [length_cons] at hlong
    cases h.stepped with
    | goes hnext hflow hfewer =>
      apply ih hnext (hflow hflowing) hcaps.right
      rcases hfewer hcaps.left with hlt | ⟨hall, hempty, _⟩
      . omega
      . rw [hall, hempty]
        simp
    | fails hlog hreturned hall =>
      rw [foldl_cons, returned_foldl_of_failed hlog, hreturned]
      exact (hall hflowing).left

end

end Session

end RecordFormat
