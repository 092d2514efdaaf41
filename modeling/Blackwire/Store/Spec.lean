import Blackwire.Store.Impl.Revisions
import Blackwire.Store.Lemmas.Scopes
import Mathlib.Data.Set.Basic

/-!
This module contains what the revisions are for: the configuration of a revision as the sets of its
rows, what an edit may do to it, and the chain that the accepted edits form.
-/

namespace Blackwire.Store

open Sql

abbrev Configuration := (t : TableName) → Set (Row t)

def withRevision {t : TableName} (row : Row t) (revision : Value) : Row t :=
  row.set [(.revisionId, revision)]

def configuration (db : Db) (revision : Int) : Configuration :=
  fun t => { row | ∃ stored ∈ db t, stored .revisionId = .int revision
    ∧ row = withRevision stored .null }

def Entity.In (e : Entity) (config : Configuration) : Prop :=
  ∃ row ∈ config e.kind.table, row e.kind.idColumn = .int e.id

def Dependent (collate : String → String) (config : Configuration) (inboundId : Int) (t : TableName)
    (row : Row t) : Prop :=
  (t = .users ∧ row .inboundId = .int inboundId)
    ∨ (t = .userCredentials ∧ ∃ user ∈ config .users, user .inboundId = .int inboundId
      ∧ (row .userId).same collate (user .userId) = true)

section Cells

/-! The values that a save puts into the row of its entity, whatever was there before. -/

def inboundCells (input : InboundWrite) : List (ColumnName × Value) := [
  (.tag, .text input.tag), (.listenAddress, .text input.listen), (.listenPort, .ofNat input.port),
  (.protocol, .text input.protocol), (.enabled, .ofBool input.enabled)]

def outboundCells (input : OutboundWrite) : List (ColumnName × Value) := [
  (.tag, .text input.tag), (.protocol, .text input.protocol), (.enabled, .ofBool input.enabled)]

def userCells (input : UserWrite) : List (ColumnName × Value) := [
  (.inboundId, .int input.inboundId), (.email, .text input.email),
  (.enabled, .ofBool input.enabled), (.flow, .text input.flow), (.note, .text input.note),
  (.trafficLimitBytes, .ofOption .int input.trafficLimitBytes),
  (.expiryAt, .ofOption .int input.expiryAt), (.subscriptionToken, .text input.subscriptionToken)]

end Cells

namespace Edit

def kind : Edit → EntityKind
  | .saveInbound _ | .deleteInbound _ => .inbound
  | .saveOutbound _ | .deleteOutbound _ => .outbound
  | .saveUser _ | .deleteUser _ => .user

def givenId : Edit → Option Int
  | .saveInbound input => input.id
  | .saveOutbound input => input.id
  | .saveUser input => input.id
  | .deleteInbound id | .deleteOutbound id | .deleteUser id => some id

def target (db : Db) (edit : Edit) : Entity :=
  ⟨edit.kind, edit.givenId.getD (nextId db edit.kind.table edit.kind.idColumn)⟩

def tag : Edit → Option String
  | .saveInbound input => some input.tag
  | .saveOutbound input => some input.tag
  | _ => none

def cells : Edit → Option (List (ColumnName × Value))
  | .saveInbound input => some (inboundCells input)
  | .saveOutbound input => some (outboundCells input)
  | .saveUser input => some (userCells input)
  | .deleteInbound _ | .deleteOutbound _ | .deleteUser _ => none

variable (collate : String → String) (edit : Edit) (before after : Configuration) (e : Entity)

def Touches (t : TableName) (row : Row t) : Prop :=
  match edit with
  | .deleteInbound _ => e.scope.Holds collate t row ∨ Dependent collate before e.id t row
  | _ => e.scope.Holds collate t row

def Effect : Prop :=
  match edit.cells with
  | some cells =>
    ∃ row ∈ after e.kind.table, ∀ p ∈ (e.kind.idColumn, .int e.id) :: cells, row p.fst = p.snd
  | none => ¬ e.In after

structure Edited : Prop where
  kind : e.kind = edit.kind
  given : ∀ id, edit.givenId = some id → e.id = id
  new : edit.givenId = none → ¬ e.In before
  frame : ∀ t row, ¬ edit.Touches collate before e t row → (row ∈ after t ↔ row ∈ before t)
  effect : edit.Effect after e

/--
A save without an id gets one that is not taken, and a save that adds an entity does not give it a
tag which the collation cannot tell from another one.
-/
structure Unambiguous : Prop where
  new : edit.givenId = none → ¬ e.In before
  tag : ∀ tag, edit.tag = some tag → ¬ e.In before →
    ∀ row ∈ before e.kind.table, (row .tag).same collate (.text tag) = false

end Edit

inductive Chain (collate : String → String) (db : Db) (first : Int)
    : List (Request × Int) → Int → Prop where
  | nil : Chain collate db first [] first
  | cons (request : Request) (revision : Int) (log : List (Request × Int)) (e : Entity)
      (hlog : Chain collate db first log request.expectedRevision)
      (hlt : request.expectedRevision < revision)
      (hparent : Has db .configurationRevisions [
        (.revision, .int revision), (.parentRevision, .int request.expectedRevision)])
      (hedited : request.edit.Edited collate (configuration db request.expectedRevision)
        (configuration db revision) e)
      : Chain collate db first ((request, revision) :: log) revision

namespace State

structure Initial (collate : String → String) (first : Int) (s : State) : Prop where
  consistent : Consistent collate s.db
  desired : desiredRevision s.db = some first
  -- `AUTO_INCREMENT` is ahead of all revisions there are.
  bound : ∀ row ∈ s.db .configurationRevisions, ∀ revision, row .revision = .int revision →
    revision < s.nextRevision
  idle : s.tx = none
  log : s.accepted = []

def Allowed (collate : String → String) (s : State) : Event → Prop
  | .begin request => desiredRevision s.db = some request.expectedRevision →
    request.edit.Unambiguous collate (configuration s.db request.expectedRevision)
      (request.edit.target s.db)
  | _ => True

end State

end Blackwire.Store
