import Mathlib.Logic.Function.Iterate
import Mathlib.Data.List.Basic

/-!
This module contains tables with primary, unique and foreign keys, and the statements that change
them. A statement whose outcome would violate a key fails and changes nothing.
-/

namespace Sql

open List

inductive Value where
  | null
  | int (i : Int)
  | text (s : String)
  | bytes (b : List UInt8)
  | double (bits : UInt64)
deriving DecidableEq

namespace Value

def ofNat (n : Nat) : Value := .int n

def ofBool (b : Bool) : Value := .int (if b then 1 else 0)

def utf8 (s : String) : Value := .bytes s.toUTF8.toList

def ofOption {α : Type} (f : α → Value) (x : Option α) : Value := x.elim .null f

def asInt : Value → Option Int
  | .int i => some i
  | _ => none

end Value

def Value.same (collate : String → String) : Value → Value → Bool
  | .int i, .int j => i = j
  | .text s, .text s' => collate s = collate s'
  | .bytes b, .bytes b' => b = b'
  | .double x, .double x' => x = x'
  | _, _ => false

inductive OnDelete where
  | restrict
  | cascade
  | setNull
deriving DecidableEq

structure ForeignKey (τ κ : Type) where
  -- The columns, each with the column of the parent that it refers to.
  columns : List (κ × κ)
  parent : τ
  onDelete : OnDelete

structure Schema (τ κ : Type) where
  columns : τ → List κ
  nullable : τ → List κ
  primaryKey : τ → List κ
  uniqueKeys : τ → List (List κ)
  foreignKeys : τ → List (ForeignKey τ κ)
  tables : List τ
  complete : ∀ t, t ∈ tables

variable {τ κ : Type} (S : Schema τ κ)

def Schema.keys (t : τ) : List (List κ) :=
  S.primaryKey t :: S.uniqueKeys t

def Row (t : τ) : Type :=
  { f : κ → Value // ∀ c, c ∉ S.columns t → f c = .null }

instance (t : τ) : CoeFun (Row S t) (fun _ => κ → Value) := ⟨Subtype.val⟩

abbrev Db := (t : τ) → List (Row S t)

inductive Expr (κ : Type) where
  | literal (v : Value)
  | column (c : κ)

def Expr.eval {κ : Type} (f : κ → Value) : Expr κ → Value
  | .literal v => v
  | .column c => f c

inductive Assignment where
  -- `c = VALUES(c)`
  | values
  -- `c = COALESCE(VALUES(c), c)`
  | coalesce

inductive Stmt where
  | insert (t : τ) (row : Row S t)
  -- `INSERT … ON DUPLICATE KEY UPDATE`
  | upsert (t : τ) (row : Row S t) (updates : List (κ × Assignment))
  -- `INSERT INTO t SELECT … FROM t WHERE …`
  | insertSelect (t : τ) (exprs : List (Expr κ)) (filter : Row S t → Bool)
  | update (t : τ) (sets : List (κ × Value)) (filter : Row S t → Bool)
  | delete (t : τ) (filter : Row S t → Bool)

namespace Row

variable {S} {t : τ}

@[ext]
theorem ext (row row' : Row S t) (h : ∀ c, row c = row' c) : row = row' :=
  Subtype.ext (funext h)

variable [DecidableEq κ]

theorem lookup_zip_eq_none {cols : List κ} {values : List Value} {c : κ} (h : c ∉ cols)
    : (cols.zip values).lookup c = none := by
  rw [lookup_eq_none_iff]
  intro p hp
  rw [bne_iff_ne]
  intro heq
  apply h
  rw [heq]
  exact (of_mem_zip hp).left

def ofValues (t : τ) (values : List Value) : Row S t :=
  ⟨fun c => (((S.columns t).zip values).lookup c).getD .null, by
    intro c hc
    simp only [lookup_zip_eq_none hc]
    rfl⟩

theorem lookup_zip_map {cols : List κ} {f : κ → Value} {c : κ} (h : c ∈ cols)
    : (cols.zip (cols.map f)).lookup c = some (f c) := by
  induction cols with
  | nil => cases h
  | cons c' cols ih =>
    by_cases heq : c = c'
    . simp [heq]
    . rw [map_cons, zip_cons_cons, lookup_cons, beq_eq_false_iff_ne.mpr heq]
      exact ih ((mem_cons.mp h).resolve_left heq)

theorem ofValues_map (cols : List κ) (f : κ → Value) (c : κ) (hcols : cols <+: S.columns t)
    (hc : c ∈ cols)
    : ofValues (S := S) t (cols.map f ++ rest) c = f c := by
  obtain ⟨more, hmore⟩ := hcols
  have happend : (S.columns t).zip (cols.map f ++ rest)
      = cols.zip (cols.map f) ++ more.zip rest := by
    rw [← hmore]
    apply zip_append
    rw [length_map]
  simp only [ofValues, happend, lookup_append, lookup_zip_map hc]
  rfl

def set (row : Row S t) (sets : List (κ × Value)) : Row S t :=
  ⟨fun c => if c ∈ S.columns t then (sets.lookup c).getD (row c) else row c, by
    intro c hc
    simp only [hc, if_false]
    exact row.property c hc⟩

def merge (old : Row S t) (updates : List (κ × Assignment)) (new : Row S t) : Row S t :=
  ⟨fun c =>
    match updates.lookup c with
    | none => old c
    | some .values => new c
    | some .coalesce => if new c = .null then old c else new c, by
    intro c hc
    dsimp only
    split
    . exact old.property c hc
    . exact new.property c hc
    . simp only [new.property c hc, if_true]
      exact old.property c hc⟩

end Row

section

variable {S} (collate : String → String)

def agree {t : τ} (key : List κ) (row row' : Row S t) : Bool :=
  key.all fun c => (row c).same collate (row' c)

def references {t : τ} (fk : ForeignKey τ κ) (row : Row S t) (parent : Row S fk.parent) : Bool :=
  fk.columns.all fun c => (row c.fst).same collate (parent c.snd)

-- `WHERE c = v AND …`
def whereAll {t : τ} (conditions : List (κ × Value)) (row : Row S t) : Bool :=
  conditions.all fun c => (row c.fst).same collate c.snd

-- A foreign key with a `NULL` in it refers to nothing.
def satisfied (db : Db S) {t : τ} (fk : ForeignKey τ κ) (row : Row S t) : Bool :=
  fk.columns.any (fun c => row c.fst = .null) || (db fk.parent).any (references collate fk row)

structure Consistent (db : Db S) : Prop where
  notNull : ∀ t, ∀ row ∈ db t, ∀ c ∈ S.columns t, c ∉ S.nullable t → row c ≠ .null
  keys : ∀ t, (db t).Pairwise fun row row' => ∀ key ∈ S.keys t, agree collate key row row' = false
  references : ∀ t, ∀ row ∈ db t, ∀ fk ∈ S.foreignKeys t, satisfied collate db fk row = true

instance [DecidableEq κ] (db : Db S) : Decidable (Consistent collate db) :=
  decidable_of_iff
    (∀ t ∈ S.tables,
      (∀ row ∈ db t, ∀ c ∈ S.columns t, c ∉ S.nullable t → row c ≠ .null)
        ∧ ((db t).Pairwise fun row row' => ∀ key ∈ S.keys t, agree collate key row row' = false)
        ∧ ∀ row ∈ db t, ∀ fk ∈ S.foreignKeys t, satisfied collate db fk row = true)
    ⟨fun h => ⟨fun t => (h t (S.complete t)).left, fun t => (h t (S.complete t)).right.left,
      fun t => (h t (S.complete t)).right.right⟩,
      fun h t _ => ⟨h.notNull t, h.keys t, h.references t⟩⟩

variable [DecidableEq τ] [DecidableEq κ]

variable (db : Db S)

def check : Option (Db S) :=
  if Consistent collate db then some db else none

-- What becomes of a row when rows that it refers to are gone.
def settleRow {t : τ} (row : Row S t) : Option (Row S t) :=
  let lost := (S.foreignKeys t).filter fun fk => !satisfied collate db fk row
  if lost.any (·.onDelete = .cascade) then
    none
  else
    let cleared := lost.filter (·.onDelete = .setNull)
    some (row.set (cleared.flatMap fun fk => fk.columns.map fun c => (c.fst, .null)))

def settleOnce : Db S :=
  fun t => (db t).filterMap (settleRow collate db)

-- A chain of references is at most as long as there are tables.
def settle : Db S :=
  Nat.iterate (settleOnce collate) S.tables.length db

def exec : Stmt S → Option (Db S)
  | .insert t row => check collate (Function.update db t (db t ++ [row]))
  | .upsert t row updates =>
    -- The row to be updated is looked for in the primary key first.
    match (S.keys t).find? (fun key => (db t).any (agree collate key row)) with
    | none => check collate (Function.update db t (db t ++ [row]))
    | some key =>
      let rows := (db t).map fun old =>
        if agree collate key row old then old.merge updates row else old
      check collate (Function.update db t rows)
  | .insertSelect t exprs filter =>
    let selected := ((db t).filter filter).map fun row => Row.ofValues t (exprs.map (·.eval row))
    check collate (Function.update db t (db t ++ selected))
  | .update t sets filter =>
    let rows := (db t).map fun row => if filter row then row.set sets else row
    check collate (Function.update db t rows)
  | .delete t filter =>
    check collate (settle collate (Function.update db t ((db t).filter fun row => !filter row)))

end

inductive Script where
  | done
  | exec (stmt : Stmt S) (next : Script)
  | query (f : Db S → Script)

namespace Script

variable {S}

def ofList (stmts : List (Stmt S)) : Script S :=
  stmts.foldr .exec .done

def append (script next : Script S) : Script S :=
  match script with
  | .done => next
  | .exec stmt script => .exec stmt (script.append next)
  | .query f => .query fun db => (f db).append next

variable [DecidableEq τ] [DecidableEq κ]

def run (collate : String → String) : Script S → Db S → Option (Db S)
  | .done, db => some db
  | .exec stmt next, db => (Sql.exec collate db stmt).bind (run collate next)
  | .query f, db => run collate (f db) db

end Script

end Sql
