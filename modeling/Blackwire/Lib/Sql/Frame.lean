import Blackwire.Lib.Sql.Statement
import Mathlib.Data.List.Pairwise

/-!
This module contains the frame rules of the statements: under which conditions a statement that
succeeds leaves all rows alone that do not have a given property. A scope is a set of rows that is
given by values in some columns of some tables, and for scopes that follows from the columns which
the statement names.
-/

namespace Sql

open List

variable {τ κ : Type} {S : Schema τ κ}

namespace Value

theorem same_comm (v w : Value) : v.same collate w = w.same collate v := by
  cases v <;> cases w <;> simp [same, eq_comm]

theorem same_trans {u v : Value} (w : Value) (huv : u.same collate v = true)
    (hvw : v.same collate w = true)
    : u.same collate w = true := by
  cases u <;> cases v <;> cases w <;> simp_all [same]

@[simp]
theorem same_int {v : Value} : v.same collate (.int i) = true ↔ v = .int i := by
  cases v <;> simp [same]

theorem asInt_eq_some (v : Value) (i : Int) : v.asInt = some i ↔ v = .int i := by
  cases v <;> simp [asInt]

theorem same_self {v : Value} (h : v ≠ .null) : v.same collate v = true := by
  cases v <;> simp_all [same]

end Value

variable {t : τ}

theorem agree_iff (key : List κ) (row row' : Row S t)
    : agree collate key row row' = true ↔ ∀ c ∈ key, (row c).same collate (row' c) = true := by
  simp [agree]

theorem references_iff (fk : ForeignKey τ κ) (row : Row S t) (parent : Row S fk.parent)
    : references collate fk row parent = true
        ↔
      ∀ c ∈ fk.columns, (row c.fst).same collate (parent c.snd) = true := by
  simp [references]

theorem satisfied_iff
    : satisfied collate db fk row = true
        ↔
      (∃ c ∈ fk.columns, row c.fst = .null)
        ∨ ∃ parent ∈ db fk.parent, references collate fk row parent = true := by
  simp [satisfied]

theorem agree_comm (key : List κ) (row row' : Row S t)
    : agree collate key row row' = agree collate key row' row := by
  simp [agree, Value.same_comm]

theorem Consistent.eq_of_agree (hdb : Consistent collate db) {row row' : Row S t}
    (hrow : row ∈ db t) (hrow' : row' ∈ db t) (key : List κ) (hkey : key ∈ S.keys t)
    (h : agree collate key row row' = true)
    : row = row' := by
  apply Classical.byContradiction
  intro hne
  have : Std.Symm fun row row' : Row S t =>
      ∀ key ∈ S.keys t, agree collate key row row' = false := by
    constructor
    intro row row' hagree key hkey
    rw [agree_comm]
    exact hagree key hkey
  have hagree := (hdb.keys t).forall hrow hrow' hne key hkey
  rw [h] at hagree
  cases hagree

section Frame

def SameOutside (P : (t : τ) → Row S t → Prop) (db db' : Db S) : Prop :=
  ∀ t row, ¬ P t row → (row ∈ db' t ↔ row ∈ db t)

variable {P Q : (t : τ) → Row S t → Prop} {db db' : Db S}

theorem SameOutside.trans (h : SameOutside P db db') (h' : SameOutside P db' db'')
    : SameOutside P db db'' := by
  intro t row hrow
  rw [h' t row hrow, h t row hrow]

theorem SameOutside.mono (h : SameOutside P db db') (hPQ : ∀ t row, P t row → Q t row)
    : SameOutside Q db db' := by
  intro t row hrow
  apply h
  intro hP
  exact hrow (hPQ t row hP)

variable [DecidableEq τ]

theorem sameOutside_update (h : ∀ row, ¬ P t row → (row ∈ rows ↔ row ∈ db t))
    : SameOutside P db (Function.update db t rows) := by
  intro t' row hrow
  by_cases ht : t' = t
  . subst ht
    rw [Function.update_self]
    exact h row hrow
  . rw [Function.update_of_ne ht]

theorem sameOutside_append (db : Db S) (t : τ) (new : List (Row S t)) (h : ∀ row ∈ new, P t row)
    : SameOutside P db (Function.update db t (db t ++ new)) := by
  apply sameOutside_update
  intro row hrow
  rw [mem_append]
  constructor
  . rintro (hmem | hmem)
    . assumption
    . exact absurd (h row hmem) hrow
  . exact Or.inl

theorem sameOutside_map (db : Db S) (t : τ) (p : Row S t → Bool) (f : Row S t → Row S t)
    (hbefore : ∀ row ∈ db t, p row = true → P t row)
    (hafter : ∀ row ∈ db t, p row = true → P t (f row))
    : SameOutside P db
        (Function.update db t ((db t).map fun row => if p row then f row else row)) := by
  apply sameOutside_update
  intro row hrow
  rw [mem_map]
  constructor
  . rintro ⟨old, hmem, heq⟩
    split at heq
    . next hp =>
      rw [← heq] at hrow
      exact absurd (hafter old hmem hp) hrow
    . rw [← heq]
      assumption
  . intro hmem
    refine ⟨row, hmem, ?_⟩
    rw [if_neg]
    intro hp
    exact hrow (hbefore row hmem hp)

variable [DecidableEq κ]

omit [DecidableEq τ] in
@[simp]
theorem check_eq_some (db db' : Db S)
    : check collate db = some db' ↔ Consistent collate db ∧ db = db' := by
  unfold check
  split
  . simp_all
  . simp_all

theorem consistent_exec (h : exec collate db stmt = some db')
    : Consistent collate db' := by
  cases stmt with
  | upsert t row updates =>
    rw [exec] at h
    split at h
    . rw [check_eq_some] at h
      rw [← h.right]
      exact h.left
    . rw [check_eq_some] at h
      rw [← h.right]
      exact h.left
  | _ =>
    rw [exec, check_eq_some] at h
    rw [← h.right]
    exact h.left

variable {row : Row S t}

theorem exec_insert (h : exec collate db (.insert t row) = some db')
    : db' = Function.update db t (db t ++ [row]) := by
  rw [exec, check_eq_some] at h
  exact h.right.symm

variable {filter : Row S t → Bool}

theorem exec_insertSelect (h : exec collate db (.insertSelect t exprs filter) = some db')
    : db' = Function.update db t
        (db t
          ++ ((db t).filter filter).map fun row => Row.ofValues t (exprs.map (·.eval row))) := by
  rw [exec, check_eq_some] at h
  exact h.right.symm

theorem exec_update (h : exec collate db (.update t sets filter) = some db')
    : db' = Function.update db t
        ((db t).map fun row => if filter row then row.set sets else row) := by
  rw [exec, check_eq_some] at h
  exact h.right.symm

theorem exec_upsert (h : exec collate db (.upsert t row updates) = some db')
    : ((∀ key ∈ S.keys t, ∀ old ∈ db t, agree collate key row old = false)
          ∧ db' = Function.update db t (db t ++ [row]))
        ∨ (∃ key, (S.keys t).find? (fun key => (db t).any (agree collate key row)) = some key
          ∧ db' = Function.update db t
            ((db t).map fun old =>
              if agree collate key row old then old.merge updates row else old)) := by
  rw [exec] at h
  split at h
  . next hnone =>
    left
    simp_all
  . next key hkey =>
    rw [check_eq_some] at h
    right
    exact ⟨key, hkey, h.right.symm⟩

theorem exec_upsert_of_ne (h : exec collate db (.upsert t row updates) = some db') (ht : t' ≠ t)
    : db' t' = db t' := by
  rcases exec_upsert h with ⟨_, heq⟩ | ⟨_, _, heq⟩
  . rw [heq, Function.update_of_ne ht]
  . rw [heq, Function.update_of_ne ht]

def PrimaryFirst (collate : String → String) (db : Db S) {t : τ} (row : Row S t) : Prop :=
  (∀ old ∈ db t, agree collate (S.primaryKey t) row old = false) →
    ∀ key ∈ S.uniqueKeys t, ∀ old ∈ db t, agree collate key row old = false

theorem exec_upsert_primary (hfirst : PrimaryFirst collate db row)
    (h : exec collate db (.upsert t row updates) = some db')
    : ((∀ old ∈ db t, agree collate (S.primaryKey t) row old = false)
          ∧ db' = Function.update db t (db t ++ [row]))
        ∨ ((∃ old ∈ db t, agree collate (S.primaryKey t) row old = true)
          ∧ db' = Function.update db t
            ((db t).map fun old =>
              if agree collate (S.primaryKey t) row old then old.merge updates row else old)) := by
  rcases exec_upsert h with ⟨hnone, heq⟩ | ⟨key, hfind, heq⟩
  . left
    exact ⟨hnone _ mem_cons_self, heq⟩
  have hany := find?_some hfind
  by_cases hpk : ∃ old ∈ db t, agree collate (S.primaryKey t) row old = true
  . right
    refine ⟨hpk, ?_⟩
    have hhead : (S.keys t).find? (fun key => (db t).any (agree collate key row))
        = some (S.primaryKey t) := by
      apply find?_cons_of_pos
      simpa using hpk
    rw [hhead] at hfind
    cases hfind
    exact heq
  . -- Then no key is met at all.
    have hno : ∀ old ∈ db t, agree collate (S.primaryKey t) row old = false := by
      intro old hold
      rw [← Bool.not_eq_true]
      intro hagree
      exact hpk ⟨old, hold, hagree⟩
    rw [any_eq_true] at hany
    obtain ⟨old, hold, hagree⟩ := hany
    rcases mem_cons.mp (mem_of_find?_eq_some hfind) with rfl | hkey
    . exact absurd ⟨old, hold, hagree⟩ hpk
    . rw [hfirst hno key hkey old hold] at hagree
      cases hagree

omit [DecidableEq τ] in
@[simp]
theorem Row.set_nil (row : Row S t) : row.set [] = row := by
  apply Row.ext
  simp [Row.set]

structure Closed (collate : String → String) (P : (t : τ) → Row S t → Prop) (db : Db S) : Prop where
  inherit : ∀ t, ∀ fk ∈ S.foreignKeys t, fk.onDelete ≠ .restrict →
    ∀ row ∈ db t, ∀ parent ∈ db fk.parent, references collate fk row parent = true →
    P fk.parent parent → P t row
  cleared : ∀ t, ∀ fk ∈ S.foreignKeys t, fk.onDelete = .setNull → ∀ row, ¬ P t row

omit [DecidableEq τ] in
theorem settleRow_eq_some (hclear : ∀ fk ∈ S.foreignKeys t, fk.onDelete ≠ .setNull)
    (h : settleRow collate db row = some row')
    : row' = row := by
  have hnil : ((S.foreignKeys t).filter fun fk => !satisfied collate db fk row).filter
      (·.onDelete = .setNull) = [] := by
    rw [filter_eq_nil_iff]
    intro fk hfk
    rw [mem_filter] at hfk
    simpa using hclear fk hfk.left
  unfold settleRow at h
  simp only [hnil] at h
  split at h
  . cases h
  . simpa using h.symm

omit [DecidableEq τ] in
theorem mem_of_mem_settle (hclear : ∀ fk ∈ S.foreignKeys t, fk.onDelete ≠ .setNull)
    (h : row ∈ settle collate db t)
    : row ∈ db t := by
  unfold settle at h
  generalize S.tables.length = n at h
  induction n generalizing db with
  | zero => exact h
  | succ n ih =>
    obtain ⟨old, hold, hsettle⟩ := mem_filterMap.mp (ih h)
    rw [settleRow_eq_some hclear hsettle]
    assumption

theorem exec_delete_mem (hclear : ∀ fk ∈ S.foreignKeys t, fk.onDelete ≠ .setNull)
    (h : exec collate db (.delete t filter) = some db') (hrow : row ∈ db' t)
    : row ∈ db t ∧ filter row = false := by
  rw [exec, check_eq_some] at h
  rw [← h.right] at hrow
  have hmem := mem_of_mem_settle hclear hrow
  rw [Function.update_self, mem_filter, Bool.not_eq_true'] at hmem
  exact hmem

section Settle

variable {db₀ db : Db S} (hconsistent : Consistent collate db₀) (hclosed : Closed collate P db₀)
  (hsame : SameOutside P db₀ db)

include hconsistent hclosed hsame

omit [DecidableEq τ] in
theorem settleRow_of_outside (hmem : row ∈ db₀ t) (hrow : ¬ P t row)
    : settleRow collate db row = some row := by
  -- The rows that it refers to are outside as well, so they are still there.
  have hkept : ∀ fk ∈ S.foreignKeys t, fk.onDelete ≠ .restrict →
      satisfied collate db fk row = true := by
    intro fk hfk honDelete
    rw [satisfied_iff]
    rcases satisfied_iff.mp (hconsistent.references t row hmem fk hfk) with
      hnull | ⟨parent, hparent, href⟩
    . left
      assumption
    right
    refine ⟨parent, ?_, href⟩
    rw [hsame]
    . assumption
    . intro hP
      exact hrow (hclosed.inherit t fk hfk honDelete row hmem parent hparent href hP)
  have hnot : ∀ action, action ≠ OnDelete.restrict →
      ((S.foreignKeys t).filter fun fk => !satisfied collate db fk row).filter
        (·.onDelete = action) = [] := by
    intro action haction
    rw [filter_eq_nil_iff]
    intro fk hfk
    rw [mem_filter] at hfk
    rw [decide_eq_true_eq]
    intro heq
    have := hkept fk hfk.left (heq ▸ haction)
    simp_all
  unfold settleRow
  have hcascade := hnot .cascade (by decide)
  have hclear := hnot .setNull (by decide)
  rw [filter_eq_nil_iff] at hcascade
  simp only [hclear]
  rw [if_neg]
  . simp
  . simpa using hcascade

omit [DecidableEq τ] in
theorem sameOutside_settleOnce : SameOutside P db₀ (settleOnce collate db) := by
  intro t row hrow
  unfold settleOnce
  rw [mem_filterMap]
  constructor
  . rintro ⟨old, hmem, hsettle⟩
    by_cases hold : P t old
    . -- It can only have been removed, and then `row` is not what is left of it.
      have hclear : ∀ fk ∈ S.foreignKeys t, fk.onDelete ≠ .setNull := by
        intro fk hfk heq
        exact hclosed.cleared t fk hfk heq old hold
      rw [settleRow_eq_some hclear hsettle] at hrow
      contradiction
    . rw [hsame t old hold] at hmem
      rw [settleRow_of_outside hconsistent hclosed hsame hmem hold] at hsettle
      cases hsettle
      assumption
  . intro hmem
    refine ⟨row, (hsame t row hrow).mpr hmem, ?_⟩
    exact settleRow_of_outside hconsistent hclosed hsame hmem hrow

omit [DecidableEq τ] in
theorem sameOutside_settle : SameOutside P db₀ (settle collate db) := by
  unfold settle
  generalize S.tables.length = n
  induction n generalizing db with
  | zero => exact hsame
  | succ n ih =>
    apply ih
    exact sameOutside_settleOnce hconsistent hclosed hsame

end Settle

theorem sameOutside_delete (hconsistent : Consistent collate db) (hclosed : Closed collate P db)
    (hfilter : ∀ row ∈ db t, filter row = true → P t row)
    (h : exec collate db (.delete t filter) = some db')
    : SameOutside P db db' := by
  rw [exec, check_eq_some] at h
  rw [← h.right]
  apply sameOutside_settle hconsistent hclosed
  apply sameOutside_update
  intro row hrow
  rw [mem_filter]
  constructor
  . exact And.left
  . intro hmem
    refine ⟨hmem, ?_⟩
    rw [Bool.not_eq_true']
    rw [← Bool.not_eq_true]
    intro hf
    exact hrow (hfilter row hmem hf)

end Frame

structure Scope (τ κ : Type) where
  columns : τ → Option (List κ)
  value : κ → Value

namespace Scope

def Holds (collate : String → String) (sc : Scope τ κ) (t : τ) (row : Row S t) : Prop :=
  ∃ cols, sc.columns t = some cols ∧ ∀ c ∈ cols, (row c).same collate (sc.value c) = true

variable (sc : Scope τ κ)

def Keyed (S : Schema τ κ) : Prop :=
  ∀ t cols, sc.columns t = some cols → ∀ c ∈ cols, c ∈ S.primaryKey t

structure Hereditary (S : Schema τ κ) : Prop where
  inherit : ∀ t, ∀ fk ∈ S.foreignKeys t, fk.onDelete ≠ .restrict →
    ∀ cols, sc.columns fk.parent = some cols →
    ∃ cols', sc.columns t = some cols' ∧ ∀ c ∈ cols', c ∈ cols ∧ (c, c) ∈ fk.columns
  cleared : ∀ t, ∀ fk ∈ S.foreignKeys t, fk.onDelete = .setNull → sc.columns t = none

variable {sc} {t : τ}

theorem holds_congr {row row' : Row S t}
    (h : ∀ cols, sc.columns t = some cols → ∀ c ∈ cols, row c = row' c)
    : sc.Holds collate t row ↔ sc.Holds collate t row' := by
  constructor
  . rintro ⟨cols, hcols, hsame⟩
    refine ⟨cols, hcols, ?_⟩
    intro c hc
    rw [← h cols hcols c hc]
    exact hsame c hc
  . rintro ⟨cols, hcols, hsame⟩
    refine ⟨cols, hcols, ?_⟩
    intro c hc
    rw [h cols hcols c hc]
    exact hsame c hc

theorem holds_of_agree (hkeyed : sc.Keyed S) {row row' : Row S t}
    (hagree : agree collate (S.primaryKey t) row row' = true) (h : sc.Holds collate t row)
    : sc.Holds collate t row' := by
  obtain ⟨cols, hcols, hsame⟩ := h
  refine ⟨cols, hcols, ?_⟩
  intro c hc
  rw [agree_iff] at hagree
  apply Value.same_trans
  . rw [Value.same_comm]
    exact hagree c (hkeyed t cols hcols c hc)
  . exact hsame c hc

theorem holds_of_whereAll (hcols : sc.columns t = some cols)
    (hconditions : ∀ c ∈ cols, (c, sc.value c) ∈ conditions)
    (h : whereAll collate conditions row = true)
    : sc.Holds collate t row := by
  refine ⟨cols, hcols, ?_⟩
  intro c hc
  unfold whereAll at h
  rw [all_eq_true] at h
  exact h _ (hconditions c hc)

theorem holds_of_references (href : references collate fk row parent = true)
    (hinherit : ∀ cols, sc.columns fk.parent = some cols →
      ∃ cols', sc.columns t = some cols' ∧ ∀ c ∈ cols', c ∈ cols ∧ (c, c) ∈ fk.columns)
    (hparent : sc.Holds collate fk.parent parent)
    : sc.Holds collate t row := by
  obtain ⟨cols, hcols, hsame⟩ := hparent
  obtain ⟨cols', hcols', hsub⟩ := hinherit cols hcols
  refine ⟨cols', hcols', ?_⟩
  intro c hc
  rw [references_iff] at href
  apply Value.same_trans
  . exact href (c, c) (hsub c hc).right
  . exact hsame c (hsub c hc).left

theorem closed_of_hereditary (h : sc.Hereditary S)
    : Closed collate (sc.Holds (S := S) collate) db where
  inherit := by
    intro t fk hfk honDelete row _ parent _ href
    exact holds_of_references href (h.inherit t fk hfk honDelete)
  cleared := by
    rintro t fk hfk honDelete row ⟨cols, hcols, _⟩
    rw [h.cleared t fk hfk honDelete] at hcols
    cases hcols

end Scope

variable [DecidableEq τ] [DecidableEq κ]

def Confined (collate : String → String) (P : (t : τ) → Row S t → Prop) (stmt : Stmt S) : Prop :=
  ∀ db db', Consistent collate db → exec collate db stmt = some db' → SameOutside P db db'

section

variable {P Q : (t : τ) → Row S t → Prop}

theorem Confined.mono (h : Confined collate P stmt) (hPQ : ∀ t row, P t row → Q t row)
    : Confined collate Q stmt := by
  intro db db' hconsistent hexec
  exact (h db db' hconsistent hexec).mono hPQ

theorem confined_insert (t : τ) (row : Row S t) (h : P t row)
    : Confined collate P (.insert t row) := by
  intro db db' _ hexec
  rw [exec_insert hexec]
  apply sameOutside_append
  simpa using h

theorem confined_update (t : τ) (sets : List (κ × Value)) (filter : Row S t → Bool)
    (hbefore : ∀ row, filter row = true → P t row)
    (hafter : ∀ row, filter row = true → P t (row.set sets))
    : Confined collate P (.update t sets filter) := by
  intro db db' _ hexec
  rw [exec_update hexec]
  apply sameOutside_map
  . intro row _
    exact hbefore row
  . intro row _
    exact hafter row

end

def Has (db : Db S) (t : τ) (cells : List (κ × Value)) : Prop :=
  ∃ row ∈ db t, ∀ p ∈ cells, row p.fst = p.snd

omit [DecidableEq τ] [DecidableEq κ] in
theorem Has.of_sameOutside (h : Has db t cells) (hsame : SameOutside P db db')
    (hP : ∀ row, ¬ P t row)
    : Has db' t cells := by
  obtain ⟨row, hrow, hcells⟩ := h
  refine ⟨row, ?_, hcells⟩
  rw [hsame t row (hP row)]
  assumption

theorem Has.exec_update {filter : Row S t' → Bool} (h : Has db t cells)
    (hsets : ∀ p ∈ cells, sets.lookup p.fst = none)
    (hexec : exec collate db (.update t' sets filter) = some db')
    : Has db' t cells := by
  rw [Sql.exec_update hexec]
  obtain ⟨row, hrow, hcells⟩ := h
  by_cases ht : t = t'
  . subst ht
    rw [Has, Function.update_self]
    refine ⟨_, mem_map_of_mem hrow, ?_⟩
    intro p hp
    split
    . simp [Row.set, hsets p hp, hcells p hp]
    . exact hcells p hp
  . rw [Has, Function.update_of_ne ht]
    exact ⟨row, hrow, hcells⟩

namespace Scope

variable {sc : Scope τ κ}

omit [DecidableEq τ] in
theorem holds_merge_iff
    (hupdates : ∀ cols, sc.columns t = some cols → ∀ c ∈ cols, updates.lookup c = none)
    : sc.Holds collate t (old.merge updates new) ↔ sc.Holds collate t old := by
  apply holds_congr
  intro cols hcols c hc
  simp [Row.merge, hupdates cols hcols c hc]

omit [DecidableEq τ] in
theorem holds_set_iff (hsets : ∀ cols, sc.columns t = some cols → ∀ c ∈ cols, sets.lookup c = none)
    : sc.Holds collate t (row.set sets) ↔ sc.Holds collate t row := by
  apply holds_congr
  intro cols hcols c hc
  simp [Row.set, hsets cols hcols c hc]

section Upsert

variable {db db' : Db S} {t : τ} {row : Row S t} {updates : List (κ × Assignment)}
  (hfirst : PrimaryFirst collate db row)
  (hexec : exec collate db (.upsert t row updates) = some db')

include hfirst hexec

theorem sameOutside_upsert (hkeyed : sc.Keyed S) (hrow : sc.Holds collate t row)
    (hupdates : ∀ cols, sc.columns t = some cols → ∀ c ∈ cols, updates.lookup c = none)
    : SameOutside (sc.Holds collate) db db' := by
  rcases exec_upsert_primary hfirst hexec with ⟨_, heq⟩ | ⟨_, heq⟩
  . rw [heq]
    apply sameOutside_append
    simpa using hrow
  . rw [heq]
    apply sameOutside_map
    . intro old _ hagree
      exact holds_of_agree hkeyed hagree hrow
    . intro old _ hagree
      rw [holds_merge_iff hupdates]
      exact holds_of_agree hkeyed hagree hrow

theorem mem_upsert
    : ∃ new ∈ db' t, new = row
        ∨ ∃ old ∈ db t, agree collate (S.primaryKey t) row old = true
          ∧ new = old.merge updates row := by
  rcases exec_upsert_primary hfirst hexec with ⟨_, heq⟩ | ⟨⟨old, hold, hagree⟩, heq⟩
  . rw [heq, Function.update_self]
    refine ⟨row, mem_append_right _ (mem_singleton_self _), ?_⟩
    left
    rfl
  . rw [heq, Function.update_self]
    refine ⟨old.merge updates row, ?_, Or.inr ⟨old, hold, hagree, rfl⟩⟩
    rw [mem_map]
    refine ⟨old, hold, ?_⟩
    rw [if_pos hagree]

theorem has_upsert (cells : List (κ × Value)) (hrow : ∀ p ∈ cells, row p.fst = p.snd)
    (hcells : ∀ p ∈ cells, updates.lookup p.fst = some .values
      ∨ (updates.lookup p.fst = none ∧ p.fst ∈ S.primaryKey t ∧ ∃ i, p.snd = .int i))
    : Has db' t cells := by
  obtain ⟨new, hnew, heq | ⟨old, _, hagree, heq⟩⟩ := mem_upsert hfirst hexec
  . rw [heq] at hnew
    exact ⟨row, hnew, hrow⟩
  . refine ⟨new, hnew, ?_⟩
    intro p hp
    rcases hcells p hp with hvalues | ⟨hnone, hkey, i, hi⟩
    . simp [heq, Row.merge, hvalues, hrow p hp]
    rw [agree_iff] at hagree
    have hsame := hagree p.fst hkey
    rw [hrow p hp, hi, Value.same_comm, Value.same_int] at hsame
    simp [heq, Row.merge, hnone, hsame, hi]

end Upsert

theorem confined_upsert (hkeyed : sc.Keyed S) (t : τ) (row : Row S t)
    (updates : List (κ × Assignment)) (hunique : S.uniqueKeys t = [])
    (hrow : sc.Holds collate t row)
    (hupdates : ∀ cols, sc.columns t = some cols → ∀ c ∈ cols, updates.lookup c = none)
    : Confined collate (sc.Holds collate) (.upsert t row updates) := by
  intro db db' _ hexec
  refine sameOutside_upsert ?_ hexec hkeyed hrow hupdates
  intro _ key hkey
  rw [hunique] at hkey
  cases hkey

theorem confined_delete (hereditary : sc.Hereditary S) (t : τ) (filter : Row S t → Bool)
    (hfilter : ∀ row, filter row = true → sc.Holds collate t row)
    : Confined collate (sc.Holds collate) (.delete t filter) := by
  intro db db' hconsistent hexec
  apply sameOutside_delete hconsistent (closed_of_hereditary hereditary) _ hexec
  intro row _
  exact hfilter row

end Scope

namespace Script

theorem run_append (script next : Script S) (db : Db S)
    : (script.append next).run collate db = (script.run collate db).bind (next.run collate) := by
  induction script generalizing db with
  | done => rfl
  | exec stmt script ih =>
    rw [append, run, run]
    cases Sql.exec collate db stmt with
    | none => rfl
    | some db' => exact ih db'
  | query f ih => exact ih db db

theorem run_ofList (stmts : List (Stmt S)) (db : Db S)
    : (ofList stmts).run collate db = stmts.foldlM (Sql.exec collate) db := by
  induction stmts generalizing db with
  | nil => rfl
  | cons stmt stmts ih =>
    rw [foldlM_cons]
    cases hexec : Sql.exec collate db stmt with
    | none => simp [ofList, run, hexec]
    | some db' =>
      rw [Option.bind_eq_bind, Option.bind_some, ← ih]
      simp [ofList, run, hexec]

theorem run_singleton (stmt : Stmt S) (db : Db S)
    : (ofList [stmt]).run collate db = Sql.exec collate db stmt := by
  rw [run_ofList, foldlM_cons]
  cases Sql.exec collate db stmt with
  | none => rfl
  | some db' => rfl

end Script

theorem foldlM_cons_eq_some {db db' : Db S}
    : (stmt :: stmts).foldlM (exec collate) db = some db'
        ↔
      ∃ db₁, exec collate db stmt = some db₁ ∧ stmts.foldlM (exec collate) db₁ = some db' := by
  rw [foldlM_cons, Option.bind_eq_bind, Option.bind_eq_some_iff]

variable {stmts : List (Stmt S)}

theorem foldlM_invariant (Q : Db S → Prop) {db db' : Db S} (hdb : Q db)
    (hstep : ∀ stmt ∈ stmts, ∀ db₁ db₂, Q db₁ → exec collate db₁ stmt = some db₂ → Q db₂)
    (h : stmts.foldlM (exec collate) db = some db')
    : Q db' := by
  induction stmts generalizing db with
  | nil =>
    cases h
    assumption
  | cons stmt stmts ih =>
    obtain ⟨db₁, hexec, h⟩ := foldlM_cons_eq_some.mp h
    rw [forall_mem_cons] at hstep
    exact ih (hstep.left db db₁ hdb hexec) hstep.right h

theorem consistent_foldlM (hdb : Consistent collate db)
    (h : stmts.foldlM (exec collate) db = some db')
    : Consistent collate db' := by
  apply foldlM_invariant (Consistent collate) hdb _ h
  intro _ _ _ _ _ hexec
  exact consistent_exec hexec

end Sql
