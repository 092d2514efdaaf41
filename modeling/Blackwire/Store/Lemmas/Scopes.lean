import Blackwire.Lib.Sql.Frame
import Blackwire.Store.Impl.Revisions

/-!
This module contains the rows that belong to an inbound, an outbound or a user, and proves that the
statements for its details only touch them in the revision at hand.
-/

namespace Blackwire.Store

open Sql

inductive EntityKind where
  | inbound
  | outbound
  | user
deriving DecidableEq

structure Entity where
  kind : EntityKind
  id : Int

def TableName.isEndpoint (t : TableName) : Bool :=
  t ∈ [.streamSettings, .tlsSettings, .tlsAlpn, .realitySettings, .realityServerNames,
    .realityShortIds, .shadowtlsSettings, .websocketSettings, .transportHeaders, .splithttpSettings,
    .splithttpHosts, .grpcSettings, .endpointTuning]

namespace EntityKind

def table : EntityKind → TableName
  | .inbound => .inbounds
  | .outbound => .outbounds
  | .user => .users

def idColumn : EntityKind → ColumnName
  | .inbound => .inboundId
  | .outbound => .outboundId
  | .user => .userId

def columns : EntityKind → TableName → Option (List ColumnName)
  | .inbound, .inbounds | .inbound, .inboundProtocolSettings | .inbound, .sniffingSettings
  | .inbound, .sniffingOverrides | .inbound, .inboundLimits => some [.inboundId]
  | .outbound, .outbounds | .outbound, .outboundProtocolSettings => some [.outboundId]
  | .user, .users | .user, .userCredentials => some [.userId]
  | .inbound, t | .outbound, t => if t.isEndpoint then some [.endpointKind, .endpointId] else none
  | _, _ => none

theorem columns_primaryKey {kind : EntityKind}
    : ∀ t ∈ TableName.all, ∀ cols ∈ kind.columns t,
        .revisionId ∉ cols ∧ ∀ c ∈ .revisionId :: cols, c ∈ t.primaryKey := by
  cases kind <;> decide

end EntityKind

namespace Entity

def value (e : Entity) : ColumnName → Value
  | .endpointKind =>
    match e.kind with
    | .outbound => .text EndpointKind.outbound.name
    | _ => .text EndpointKind.inbound.name
  | _ => .int e.id

def scope (e : Entity) : Scope TableName ColumnName where
  columns := e.kind.columns
  value := e.value

def scopeAt (e : Entity) (revision : Int) (within : TableName → Bool)
    : Scope TableName ColumnName where
  columns t := if within t then (e.kind.columns t).map (.revisionId :: ·) else none
  value c := if c = .revisionId then .int revision else e.value c

variable {e : Entity} {revision : Int} {collate : String → String} {within : TableName → Bool}
  (kind : EntityKind)

theorem columns_scopeAt
    : (e.scopeAt revision within).columns t = some cols
        ↔
      within t = true ∧ ∃ own, e.kind.columns t = some own ∧ cols = .revisionId :: own := by
  have hunfold : (e.scopeAt revision within).columns t
      = if within t then (e.kind.columns t).map (.revisionId :: ·) else none := rfl
  rw [hunfold]
  split
  . next h =>
    rw [Option.map_eq_some_iff]
    simp only [h, true_and, eq_comm]
  . next h => simp [h]

theorem value_scopeAt (hown : e.kind.columns t = some own) (hc : c ∈ own)
    : (e.scopeAt revision within).value c = e.value c := by
  have hrevision := (e.kind.columns_primaryKey t (schema.complete t) own hown).left
  apply if_neg
  intro heq
  rw [heq] at hc
  contradiction

theorem keyed_scopeAt : (e.scopeAt revision within).Keyed schema := by
  intro t cols hcols
  obtain ⟨_, own, hown, rfl⟩ := columns_scopeAt.mp hcols
  exact (e.kind.columns_primaryKey t (schema.complete t) own hown).right

theorem holds_scopeAt_iff {t : TableName} {row : Row t}
    : (e.scopeAt revision within).Holds collate t row
        ↔
      within t = true ∧ row .revisionId = .int revision ∧ e.scope.Holds collate t row := by
  constructor
  . rintro ⟨cols, hcols, hsame⟩
    obtain ⟨hwithin, own, hown, rfl⟩ := columns_scopeAt.mp hcols
    rw [List.forall_mem_cons] at hsame
    refine ⟨hwithin, Value.same_int.mp hsame.left, own, hown, ?_⟩
    intro c hc
    have := hsame.right c hc
    rw [value_scopeAt hown hc] at this
    assumption
  . rintro ⟨hwithin, hrevision, own, hown, hsame⟩
    refine ⟨.revisionId :: own, columns_scopeAt.mpr ⟨hwithin, own, hown, rfl⟩, ?_⟩
    rw [List.forall_mem_cons]
    refine ⟨Value.same_int.mpr hrevision, ?_⟩
    intro c hc
    rw [value_scopeAt hown hc]
    exact hsame c hc

variable {within : TableName → Bool}

theorem holds_scopeAt_mono (h : ∀ t, within t = true → within' t = true) (t : TableName)
    (row : Row t) (hrow : (e.scopeAt revision within).Holds collate t row)
    : (e.scopeAt revision within').Holds collate t row := by
  rw [holds_scopeAt_iff] at hrow ⊢
  exact ⟨h t hrow.left, hrow.right⟩

def InheritsVia (kind : EntityKind) (within : TableName → Bool) (t : TableName)
    (fk : ForeignKey TableName ColumnName) : Prop :=
  fk.onDelete ≠ .restrict → within fk.parent = true → ∀ own ∈ kind.columns fk.parent,
    within t = true ∧ ∃ own' ∈ (kind.columns t).toList,
      ∀ c ∈ .revisionId :: own', c ∈ .revisionId :: own ∧ (c, c) ∈ fk.columns

instance (kind : EntityKind) (within : TableName → Bool) (t : TableName)
    (fk : ForeignKey TableName ColumnName) : Decidable (InheritsVia kind within t fk) :=
  inferInstanceAs (Decidable (_ → _ → _))

theorem columns_of_setNull
    : ∀ t ∈ TableName.all, ∀ fk ∈ t.foreignKeys, fk.onDelete = .setNull →
        kind.columns t = none := by
  cases kind <;> decide

variable (e revision) in
theorem inherit_scopeAt (h : InheritsVia e.kind within t fk) (honDelete : fk.onDelete ≠ .restrict)
    (cols : List ColumnName) (hcols : (e.scopeAt revision within).columns fk.parent = some cols)
    : ∃ cols', (e.scopeAt revision within).columns t = some cols'
        ∧ ∀ c ∈ cols', c ∈ cols ∧ (c, c) ∈ fk.columns := by
  obtain ⟨hwithin, own, hown, rfl⟩ := columns_scopeAt.mp hcols
  obtain ⟨hwithin', own', hown', hsub⟩ := h honDelete hwithin own hown
  refine ⟨.revisionId :: own', ?_, hsub⟩
  rw [Option.mem_toList] at hown'
  exact columns_scopeAt.mpr ⟨hwithin', own', hown', rfl⟩

theorem hereditary_scopeAt
    (h : ∀ t ∈ TableName.all, ∀ fk ∈ t.foreignKeys, InheritsVia e.kind within t fk)
    : (e.scopeAt revision within).Hereditary schema where
  inherit := by
    intro t fk hfk
    exact inherit_scopeAt e revision (h t (schema.complete t) fk hfk)
  cleared := by
    intro t fk hfk honDelete
    have hnone := columns_of_setNull e.kind t (schema.complete t) fk hfk honDelete
    simp [scopeAt, hnone]

theorem inherits_endpoint
    : ∀ t ∈ TableName.all, ∀ fk ∈ t.foreignKeys, InheritsVia kind TableName.isEndpoint t fk := by
  cases kind <;> decide

theorem inherits_sniffingOverrides
    : ∀ t ∈ TableName.all, ∀ fk ∈ t.foreignKeys,
        InheritsVia .inbound (· = .sniffingOverrides) t fk := by
  decide

theorem inherits_of_ne
    : ∀ t ∈ TableName.all, kind ≠ .inbound ∨ t ≠ .users → ∀ fk ∈ t.foreignKeys,
        InheritsVia kind (fun _ => true) t fk := by
  cases kind <;> decide

end Entity

open List

namespace Entity

variable (e : Entity) (revision : Int) {within : TableName → Bool}

theorem columns_isPrefix {kind : EntityKind}
    : ∀ t ∈ TableName.all, ∀ own ∈ kind.columns t, .revisionId :: own <+: t.columns := by
  cases kind <;> decide

theorem value_scopeAt_ne_null (c : ColumnName) : (e.scopeAt revision within).value c ≠ .null := by
  unfold scopeAt value
  dsimp only
  split
  . nofun
  . split
    . split <;> nofun
    . nofun

section

variable (hwithin : within t = true) (hown : e.kind.columns t = some own)
include hwithin hown

theorem holds_ofValues
    {rest : List Value}
    : (e.scopeAt revision within).Holds collate t
        (Row.ofValues (S := schema) t (.int revision :: own.map e.value ++ rest)) := by
  have hvalues : .int revision :: own.map e.value
      = (.revisionId :: own).map (e.scopeAt revision within).value := by
    congr 1
    apply map_congr_left
    intro c hc
    rw [value_scopeAt hown hc]
  refine ⟨.revisionId :: own, columns_scopeAt.mpr ⟨hwithin, own, hown, rfl⟩, ?_⟩
  intro c hc
  rw [hvalues]
  rw [Row.ofValues_map _ _ c (columns_isPrefix t (schema.complete t) own hown) hc]
  apply Value.same_self
  apply value_scopeAt_ne_null

theorem confined_insert_ofValues
    : Confined collate ((e.scopeAt revision within).Holds collate)
        (.insert t (Row.ofValues (S := schema) t (.int revision :: own.map e.value ++ rest))) := by
  apply confined_insert
  exact holds_ofValues e revision hwithin hown

theorem confined_overwrite (hunique : t.uniqueKeys = [])
    : Confined collate ((e.scopeAt revision within).Holds collate)
        (overwrite t (.int revision :: own.map e.value ++ rest)) := by
  apply Scope.confined_upsert keyed_scopeAt _ _ _ hunique
  . exact holds_ofValues e revision hwithin hown
  . intro cols hcols c hc
    rw [lookup_eq_none_iff]
    intro p hp
    obtain ⟨c', hc', rfl⟩ := mem_map.mp hp
    rw [bne_iff_ne]
    rintro rfl
    have hkey := keyed_scopeAt t cols hcols c hc
    rw [mem_filter, decide_eq_true_eq] at hc'
    exact hc'.right hkey

end

theorem confined_deleteAt
    (hinherits : ∀ t ∈ TableName.all, ∀ fk ∈ t.foreignKeys, InheritsVia e.kind within t fk)
    (hwithin : within t = true) (hown : e.kind.columns t = some own)
    (conditions : List (ColumnName × Value)) (hrevision : (.revisionId, .int revision) ∈ conditions)
    (hconditions : ∀ c ∈ own, (c, e.value c) ∈ conditions)
    : Confined collate ((e.scopeAt revision within).Holds collate)
        (deleteAt collate t conditions) := by
  apply Scope.confined_delete (hereditary_scopeAt hinherits)
  intro row hrow
  refine Scope.holds_of_whereAll (columns_scopeAt.mpr ⟨hwithin, own, hown, rfl⟩) ?_ hrow
  rw [forall_mem_cons]
  refine ⟨hrevision, ?_⟩
  intro c hc
  rw [value_scopeAt hown hc]
  exact hconditions c hc

end Entity

def EndpointKind.entityKind : EndpointKind → EntityKind
  | .inbound => .inbound
  | .outbound => .outbound

section Endpoint

variable (collate : String → String) (revision : Int) (kind : EndpointKind) (id : Int)

def endpointScope : Scope TableName ColumnName :=
  Entity.scopeAt ⟨kind.entityKind, id⟩ revision TableName.isEndpoint

theorem columns_of_isEndpoint
    : ∀ t ∈ TableName.all, t.isEndpoint = true →
        kind.entityKind.columns t = some [.endpointKind, .endpointId] ∧ t.uniqueKeys = [] := by
  cases kind <;> decide

theorem endpointKey_eq
    : endpointKey revision kind id
        =
      .int revision
        :: [ColumnName.endpointKind, .endpointId].map (Entity.value ⟨kind.entityKind, id⟩) := by
  cases kind <;> rfl

def EndpointOnly (stmt : Stmt) : Prop :=
  Confined collate ((endpointScope revision kind id).Holds collate) stmt

variable {collate revision kind id}

theorem confined_overwrite_endpoint (ht : t.isEndpoint = true)
    : EndpointOnly collate revision kind id
        (overwrite t (endpointKey revision kind id ++ rest)) := by
  obtain ⟨hown, hunique⟩ := columns_of_isEndpoint kind t (schema.complete t) ht
  rw [endpointKey_eq]
  exact Entity.confined_overwrite _ revision ht hown hunique

variable {t : TableName}

section

variable (ht : t.isEndpoint = true)
include ht

theorem confined_insert_endpoint
    : EndpointOnly collate revision kind id
        (.insert t (Row.ofValues (S := schema) t (endpointKey revision kind id ++ rest))) := by
  obtain ⟨hown, _⟩ := columns_of_isEndpoint kind t (schema.complete t) ht
  rw [endpointKey_eq]
  exact Entity.confined_insert_ofValues _ revision ht hown

theorem confined_delete_endpoint
    : EndpointOnly collate revision kind id
        (deleteAt collate t (endpointConditions revision kind id ++ more)) := by
  obtain ⟨hown, _⟩ := columns_of_isEndpoint kind t (schema.complete t) ht
  apply Entity.confined_deleteAt _ revision (Entity.inherits_endpoint _) ht hown
  . apply mem_append_left
    exact mem_cons_self
  . cases kind <;> simp [endpointConditions, Entity.value, EndpointKind.entityKind]

theorem confined_deleteEndpoint
    : EndpointOnly collate revision kind id (deleteEndpoint collate revision kind id t) := by
  exact confined_delete_endpoint ht

theorem confined_deleteTransport
    : EndpointOnly collate revision kind id
        (deleteTransport collate revision kind id t transportKind) := by
  exact confined_delete_endpoint ht

theorem confined_insertPositions
    : ∀ stmt ∈ insertPositions revision kind id t values,
        EndpointOnly collate revision kind id stmt := by
  intro stmt hstmt
  obtain ⟨p, _, rfl⟩ := mem_map.mp hstmt
  exact confined_insert_endpoint ht

end

theorem confined_insertHeaders
    : ∀ stmt ∈ insertHeaders revision kind id transportKind headers,
        EndpointOnly collate revision kind id stmt := by
  intro stmt hstmt
  obtain ⟨header, _, rfl⟩ := mem_map.mp hstmt
  exact confined_insert_endpoint rfl

theorem confined_writeTls
    : ∀ stmt ∈ writeTls collate revision kind id tls,
        EndpointOnly collate revision kind id stmt := by
  cases tls with
  | none =>
    rw [writeTls, forall_mem_singleton]
    exact confined_deleteEndpoint rfl
  | some tls =>
    rw [writeTls, forall_mem_append, forall_mem_cons, forall_mem_singleton]
    refine ⟨⟨?_, ?_⟩, ?_⟩
    . exact confined_overwrite_endpoint rfl
    . exact confined_deleteEndpoint rfl
    . exact confined_insertPositions rfl

theorem confined_writeShadowTls
    : ∀ stmt ∈ writeShadowTls collate revision kind id shadow,
        EndpointOnly collate revision kind id stmt := by
  cases shadow with
  | none =>
    rw [writeShadowTls, forall_mem_singleton]
    exact confined_deleteEndpoint rfl
  | some shadow =>
    rw [writeShadowTls, forall_mem_singleton]
    exact confined_overwrite_endpoint rfl

theorem confined_writeReality
    : ∀ stmt ∈ writeReality collate revision kind id reality,
        EndpointOnly collate revision kind id stmt := by
  cases reality with
  | none =>
    rw [writeReality, forall_mem_singleton]
    exact confined_deleteEndpoint rfl
  | some reality =>
    rw [writeReality]
    simp only [forall_mem_append]
    refine ⟨⟨⟨?_, ?_⟩, ?_⟩, ?_⟩
    . rw [forall_mem_cons, forall_mem_singleton, append_assoc, append_assoc]
      constructor
      . exact confined_overwrite_endpoint rfl
      . exact confined_deleteEndpoint rfl
    . exact confined_insertPositions rfl
    . rw [forall_mem_singleton]
      exact confined_deleteEndpoint rfl
    . exact confined_insertPositions rfl

theorem confined_writeTransportPath
    : ∀ stmt ∈ writeTransportPath collate revision kind id transportKind path,
        EndpointOnly collate revision kind id stmt := by
  cases path with
  | none =>
    rw [writeTransportPath, forall_mem_singleton]
    exact confined_deleteTransport rfl
  | some path =>
    rw [writeTransportPath, forall_mem_singleton]
    exact confined_overwrite_endpoint rfl

theorem confined_writeWebTransport
    : ∀ stmt ∈ writeWebTransport collate revision kind id transportKind config,
        EndpointOnly collate revision kind id stmt := by
  cases config with
  | none =>
    rw [writeWebTransport, forall_mem_singleton]
    exact confined_deleteTransport rfl
  | some config =>
    rw [writeWebTransport, forall_mem_append, forall_mem_cons, forall_mem_singleton]
    refine ⟨⟨?_, ?_⟩, ?_⟩
    . exact confined_overwrite_endpoint rfl
    . exact confined_deleteTransport rfl
    . exact confined_insertHeaders

theorem confined_writeSplithttp
    : ∀ stmt ∈ writeSplithttp collate revision kind id config,
        EndpointOnly collate revision kind id stmt := by
  cases config with
  | none =>
    rw [writeSplithttp, forall_mem_cons, forall_mem_singleton]
    constructor
    . exact confined_deleteEndpoint rfl
    . exact confined_deleteTransport rfl
  | some config =>
    rw [writeSplithttp]
    simp only [forall_mem_append]
    refine ⟨⟨⟨?_, ?_⟩, ?_⟩, ?_⟩
    . rw [forall_mem_cons, forall_mem_singleton]
      constructor
      . exact confined_overwrite_endpoint rfl
      . exact confined_deleteEndpoint rfl
    . exact confined_insertPositions rfl
    . rw [forall_mem_singleton]
      exact confined_deleteTransport rfl
    . exact confined_insertHeaders

theorem confined_writeGrpc
    : ∀ stmt ∈ writeGrpc collate revision kind id grpc,
        EndpointOnly collate revision kind id stmt := by
  cases grpc with
  | none =>
    rw [writeGrpc, forall_mem_singleton]
    exact confined_deleteEndpoint rfl
  | some grpc =>
    rw [writeGrpc, forall_mem_singleton]
    exact confined_overwrite_endpoint rfl

theorem confined_writeStreamDetails
    : ∀ stmt ∈ writeStreamDetails collate revision kind id stream,
        EndpointOnly collate revision kind id stmt := by
  unfold writeStreamDetails
  simp only [forall_mem_append]
  refine ⟨⟨⟨⟨⟨⟨⟨?_, ?_⟩, ?_⟩, ?_⟩, ?_⟩, ?_⟩, ?_⟩, ?_⟩
  . apply confined_writeTls
  . apply confined_writeShadowTls
  . apply confined_writeReality
  . apply confined_writeWebTransport
  . apply confined_writeWebTransport
  . apply confined_writeTransportPath
  . apply confined_writeSplithttp
  . apply confined_writeGrpc

theorem confined_writeEndpointTuning
    : ∀ stmt ∈ writeEndpointTuning collate revision kind id settings,
        EndpointOnly collate revision kind id stmt := by
  unfold writeEndpointTuning
  split
  . rw [forall_mem_singleton]
    exact confined_deleteEndpoint rfl
  . rw [forall_mem_singleton]
    exact confined_overwrite_endpoint rfl

end Endpoint

section Entities

variable (collate : String → String) (revision id : Int) (kind : EntityKind)

def detailScope : Scope TableName ColumnName :=
  Entity.scopeAt ⟨kind, id⟩ revision (· ≠ kind.table)

def DetailOnly (stmt : Stmt) : Prop :=
  Confined collate ((detailScope revision id kind).Holds collate) stmt

theorem value_idColumn : Entity.value ⟨kind, id⟩ kind.idColumn = .int id := by
  cases kind <;> rfl

theorem ne_table_of_isEndpoint
    : ∀ t ∈ TableName.all, t.isEndpoint = true → decide (t ≠ kind.table) = true := by
  cases kind <;> decide

variable {collate revision id kind}

theorem confined_of_endpoint (kind : EndpointKind) (h : EndpointOnly collate revision kind id stmt)
    : DetailOnly collate revision id kind.entityKind stmt := by
  apply h.mono
  apply Entity.holds_scopeAt_mono
  intro t
  exact ne_table_of_isEndpoint kind.entityKind t (schema.complete t)

theorem confined_overwrite_detail (hne : t ≠ kind.table)
    (hown : kind.columns t = some [kind.idColumn]) (hunique : t.uniqueKeys = [])
    : DetailOnly collate revision id kind (overwrite t (.int revision :: .int id :: rest)) := by
  rw [← value_idColumn id kind]
  exact Entity.confined_overwrite ⟨kind, id⟩ revision (decide_eq_true hne) hown hunique

theorem confined_deleteOverrides
    : DetailOnly collate revision id .inbound
        (deleteAt collate .sniffingOverrides
          [(.revisionId, .int revision), (.inboundId, .int id)]) := by
  have hdelete : Confined collate
      ((Entity.scopeAt ⟨.inbound, id⟩ revision (· = .sniffingOverrides)).Holds collate)
      (deleteAt collate .sniffingOverrides
        [(.revisionId, .int revision), (.inboundId, .int id)]) := by
    have hown : EntityKind.inbound.columns .sniffingOverrides = some [.inboundId] := rfl
    apply Entity.confined_deleteAt ⟨.inbound, id⟩ revision Entity.inherits_sniffingOverrides rfl
      hown
    . exact mem_cons_self
    . simp [Entity.value]
  apply hdelete.mono
  apply Entity.holds_scopeAt_mono
  simp [EntityKind.table]

theorem confined_writeSniffing
    : ∀ stmt ∈ writeSniffing collate revision id sniffing,
        DetailOnly collate revision id .inbound stmt := by
  rw [writeSniffing, forall_mem_append, forall_mem_cons, forall_mem_singleton]
  refine ⟨⟨?_, ?_⟩, ?_⟩
  . apply confined_overwrite_detail <;> decide
  . apply confined_deleteOverrides
  . intro stmt hstmt
    obtain ⟨p, _, rfl⟩ := mem_map.mp hstmt
    have hown : EntityKind.inbound.columns .sniffingOverrides = some [.inboundId] := rfl
    exact Entity.confined_insert_ofValues ⟨.inbound, id⟩ revision rfl hown

theorem confined_writeInboundDetails
    : ∀ stmt ∈ writeInboundDetails collate revision id input,
        DetailOnly collate revision id .inbound stmt := by
  unfold writeInboundDetails
  simp only [forall_mem_append]
  refine ⟨⟨⟨?_, ?_⟩, ?_⟩, ?_⟩
  . cases input.settings with
    | none => nofun
    | some settings =>
      rw [Option.elim_some, forall_mem_cons]
      constructor
      . apply confined_overwrite_detail <;> decide
      . intro stmt hstmt
        apply confined_of_endpoint .inbound
        exact confined_writeEndpointTuning stmt hstmt
  . cases input.streamSettings with
    | none => nofun
    | some stream =>
      intro stmt hstmt
      apply confined_of_endpoint .inbound
      exact confined_writeStreamDetails stmt hstmt
  . cases input.sniffing with
    | none => nofun
    | some sniffing => exact confined_writeSniffing
  . cases input.limits with
    | none => nofun
    | some limits =>
      rw [Option.elim_some, forall_mem_singleton]
      apply confined_overwrite_detail <;> decide

end Entities

end Blackwire.Store
