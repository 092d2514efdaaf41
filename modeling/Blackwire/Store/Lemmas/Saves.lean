import Blackwire.Store.Lemmas.Fork
import Blackwire.Store.Lemmas.Scopes

/-!
This module proves that saving an entity only touches the rows of that entity, provided that it does
not hit the unique keys of another one. Deleting an inbound also touches the rows of its users.
-/

namespace Blackwire.Store

open Sql List

variable {db db' : Db}

abbrev Entity.rows (e : Entity) (revision : Int) : Scope TableName ColumnName :=
  e.scopeAt revision fun _ => true

theorem primaryKey_table {kind : EntityKind}
    : kind.table.primaryKey = [.revisionId, kind.idColumn] := by
  cases kind <;> rfl

structure Keeps (collate : String → String) (e : Entity) (revision : Int)
    (cells : List (ColumnName × Value)) (stmt : Stmt) : Prop where
  confined : Confined collate ((e.rows revision).Holds collate) stmt
  has : ∀ db db', Consistent collate db → exec collate db stmt = some db' →
    Has db e.kind.table cells → Has db' e.kind.table cells

theorem keeps_of_confined (h : DetailOnly collate revision e.id e.kind stmt)
    : Keeps collate e revision cells stmt where
  confined := by
    apply h.mono
    apply Entity.holds_scopeAt_mono
    intros
    rfl
  has := by
    intro db db' hdb hexec hhas
    apply hhas.of_sameOutside (h db db' hdb hexec)
    intro row hrow
    have hwithin := (Entity.holds_scopeAt_iff.mp hrow).left
    simp at hwithin

def Entity.cells (e : Entity) (revision : Int) (cells : List (ColumnName × Value))
    : List (ColumnName × Value) :=
  (.revisionId, .int revision) :: (e.kind.idColumn, .int e.id) :: cells

def Entity.Saved (collate : String → String) (e : Entity) (revision : Int)
    (cells : List (ColumnName × Value)) (db db' : Db) : Prop :=
  SameOutside ((e.rows revision).Holds collate) db db'
    ∧ Has db' e.kind.table (e.cells revision cells)

theorem columns_table {kind : EntityKind} : kind.columns kind.table = some [kind.idColumn] := by
  cases kind <;> rfl

theorem Entity.key_of_holds {e : Entity} {row : Row e.kind.table}
    (h : (e.rows revision).Holds collate e.kind.table row)
    : row .revisionId = .int revision ∧ row e.kind.idColumn = .int e.id := by
  obtain ⟨_, hrevision, own, hown, hsame⟩ := Entity.holds_scopeAt_iff.mp h
  have hcolumns : e.kind.columns e.kind.table = some own := hown
  rw [columns_table, Option.some.injEq] at hcolumns
  subst hcolumns
  rw [forall_mem_singleton] at hsame
  have hvalue : e.scope.value e.kind.idColumn = .int e.id := value_idColumn e.id e.kind
  rw [hvalue, Value.same_int] at hsame
  exact ⟨hrevision, hsame⟩

section

variable {e : Entity} {row : Row e.kind.table} {updates : List (ColumnName × Assignment)}
  {cells : List (ColumnName × Value)} (hscope : (e.rows revision).Holds collate e.kind.table row)
  (hupdates : ∀ c ∈ e.kind.table.primaryKey, updates.lookup c = none)
  (hcells : ∀ p ∈ cells, row p.fst = p.snd ∧ updates.lookup p.fst = some .values)
  (hfirst : PrimaryFirst collate db row)

include hscope hupdates hcells hfirst

theorem upsert_rows (hexec : exec collate db (.upsert e.kind.table row updates) = some db')
    : e.Saved collate revision cells db db' := by
  constructor
  . apply Scope.sameOutside_upsert hfirst hexec Entity.keyed_scopeAt hscope
    intro cols hcols c hc
    apply hupdates
    exact Entity.keyed_scopeAt _ cols hcols c hc
  . obtain ⟨hrevision, hid⟩ := e.key_of_holds hscope
    rw [primaryKey_table, forall_mem_cons, forall_mem_singleton] at hupdates
    have hkey : schema.primaryKey e.kind.table = [.revisionId, e.kind.idColumn] :=
      primaryKey_table
    apply Scope.has_upsert hfirst hexec
    . rw [Entity.cells, forall_mem_cons, forall_mem_cons]
      exact ⟨hrevision, hid, fun p hp => (hcells p hp).left⟩
    . rw [Entity.cells, forall_mem_cons, forall_mem_cons, hkey]
      refine ⟨Or.inr ⟨hupdates.left, ?_, _, rfl⟩, Or.inr ⟨hupdates.right, ?_, _, rfl⟩, ?_⟩
      . exact mem_cons_self
      . exact mem_cons_of_mem _ mem_cons_self
      . intro p hp
        left
        exact (hcells p hp).right

theorem save_rows (hrest : ∀ stmt ∈ rest, Keeps collate e revision (e.cells revision cells) stmt)
    (h : (.upsert e.kind.table row updates :: rest).foldlM (exec collate) db = some db')
    : e.Saved collate revision cells db db' := by
  obtain ⟨db₁, hexec, h⟩ := foldlM_cons_eq_some.mp h
  have hall := foldlM_invariant
    (fun db' => Consistent collate db' ∧ e.Saved collate revision cells db db')
    ⟨consistent_exec hexec, upsert_rows hscope hupdates hcells hfirst hexec⟩
    (by
      rintro stmt hstmt db₁ db₂ ⟨hdb, hsame, hhas⟩ hexec
      refine ⟨consistent_exec hexec, ?_, ?_⟩
      . exact hsame.trans ((hrest stmt hstmt).confined db₁ db₂ hdb hexec)
      . exact (hrest stmt hstmt).has db₁ db₂ hdb hexec hhas) h
  exact hall.right

end

def Entity.TagFree (collate : String → String) (e : Entity) (revision : Int) (tag : String)
    (db : Db) : Prop :=
  ¬ e.In (configuration db revision) →
    ∀ old ∈ configuration db revision e.kind.table, (old .tag).same collate (.text tag) = false

theorem first_of_unambiguous (kind : EndpointKind) {id : Int} {tag : String}
    {row : Row kind.entityKind.table}
    (hscope : (Entity.rows ⟨kind.entityKind, id⟩ revision).Holds collate kind.entityKind.table row)
    (htag : row .tag = .text tag)
    (hfree : Entity.TagFree collate ⟨kind.entityKind, id⟩ revision tag db)
    : PrimaryFirst collate db row := by
  intro hnone
  obtain ⟨hrevision, hid⟩ := Entity.key_of_holds hscope
  have hpk : schema.primaryKey kind.entityKind.table = [.revisionId, kind.entityKind.idColumn] :=
    primaryKey_table
  have hunique : schema.uniqueKeys kind.entityKind.table = [[.revisionId, .tag]] := by
    cases kind <;> rfl
  have hnew : ¬ Entity.In ⟨kind.entityKind, id⟩ (configuration db revision) := by
    rw [Entity.in_configuration_iff]
    rintro ⟨old, hold, hrevision', hid'⟩
    have := hnone old hold
    simp [hpk, agree, hrevision, hid, hrevision', hid', Value.same] at this
  rw [hunique, forall_mem_singleton]
  intro old hold
  rw [← Bool.not_eq_true, agree_iff, forall_mem_cons, forall_mem_singleton]
  rintro ⟨hsame_revision, hsame_tag⟩
  rw [hrevision, Value.same_comm, Value.same_int] at hsame_revision
  have hdiffers := hfree hnew (withRevision old .null) ⟨old, hold, hsame_revision, rfl⟩
  rw [withRevision_of_ne (by decide), Value.same_comm, ← htag, hsame_tag] at hdiffers
  cases hdiffers

theorem confined_overwrite_stream {id : Int}
    : DetailOnly collate revision id kind.entityKind
        (overwrite .streamSettings (endpointKey revision kind id ++ rest)) := by
  apply confined_of_endpoint kind
  exact confined_overwrite_endpoint rfl

theorem saveInbound_rows (id : Int) {input : InboundWrite} (position : Int)
    (hfree : Entity.TagFree collate ⟨.inbound, id⟩ revision input.tag db)
    (h : (saveInboundStmts collate revision id input position).foldlM (exec collate) db = some db')
    : Entity.Saved collate ⟨.inbound, id⟩ revision (inboundCells input) db db' := by
  have hscope : (Entity.rows ⟨.inbound, id⟩ revision).Holds collate .inbounds
      (inboundRow revision id input position) := by
    exact Entity.holds_ofValues ⟨.inbound, id⟩ revision rfl columns_table
  apply save_rows hscope _ _ _ _ h
  . dsimp only
    decide
  . intro p hp
    simp only [inboundCells, mem_cons, not_mem_nil, or_false] at hp
    rcases hp with rfl | rfl | rfl | rfl | rfl <;> exact ⟨rfl, rfl⟩
  . exact first_of_unambiguous .inbound hscope rfl hfree
  . intro stmt hstmt
    apply keeps_of_confined
    rcases mem_cons.mp hstmt with rfl | hstmt
    . exact confined_overwrite_stream
    . exact confined_writeInboundDetails stmt hstmt

variable {id : Int}

theorem keeps_updateOutbound
    (hsets : ∀ p ∈ Entity.cells ⟨.outbound, id⟩ revision cells, sets.lookup p.fst = none)
    : Keeps collate ⟨.outbound, id⟩ revision (Entity.cells ⟨.outbound, id⟩ revision cells)
        (.update .outbounds sets
          (whereAll collate [(.revisionId, .int revision), (.outboundId, .int id)])) where
  confined := by
    have hcolumns : (Entity.rows ⟨.outbound, id⟩ revision).columns .outbounds
        = some [.revisionId, .outboundId] := rfl
    have hbefore : ∀ row : Row .outbounds,
        whereAll collate [(.revisionId, .int revision), (.outboundId, .int id)] row = true →
          (Entity.rows ⟨.outbound, id⟩ revision).Holds collate .outbounds row := by
      intro row hrow
      apply Scope.holds_of_whereAll hcolumns _ hrow
      simp [Entity.scopeAt, Entity.value]
    rw [Entity.cells, forall_mem_cons, forall_mem_cons] at hsets
    apply confined_update _ _ _ hbefore
    intro row hrow
    rw [Scope.holds_set_iff]
    . exact hbefore row hrow
    . intro cols hcols
      rw [hcolumns, Option.some.injEq] at hcols
      rw [← hcols, forall_mem_cons, forall_mem_singleton]
      exact ⟨hsets.left, hsets.right.left⟩
  has := by
    intro db db' _ hexec hhas
    exact hhas.exec_update hsets hexec

theorem keeps_writeOutboundDetails
    : ∀ stmt ∈ writeOutboundDetails collate revision id input,
        Keeps collate ⟨.outbound, id⟩ revision
          (Entity.cells ⟨.outbound, id⟩ revision (outboundCells input)) stmt := by
  unfold writeOutboundDetails
  rw [forall_mem_append]
  constructor
  . cases input.settings with
    | none => nofun
    | some settings =>
      rw [Option.elim_some, writeOutboundSettings, forall_mem_append, forall_mem_cons,
        forall_mem_singleton]
      refine ⟨⟨?_, ?_⟩, ?_⟩
      . apply keeps_updateOutbound
        intro p hp
        simp only [Entity.cells, outboundCells, mem_cons, not_mem_nil, or_false] at hp
        rcases hp with rfl | rfl | rfl | rfl | rfl <;> rfl
      . apply keeps_of_confined
        exact confined_overwrite_detail nofun rfl rfl
      . intro stmt hstmt
        apply keeps_of_confined
        apply confined_of_endpoint .outbound
        exact confined_writeEndpointTuning stmt hstmt
  . cases input.streamSettings with
    | none => nofun
    | some stream =>
      intro stmt hstmt
      apply keeps_of_confined
      apply confined_of_endpoint .outbound
      exact confined_writeStreamDetails stmt hstmt

theorem saveOutbound_rows (id : Int) {input : OutboundWrite} (position : Int)
    (hfree : Entity.TagFree collate ⟨.outbound, id⟩ revision input.tag db)
    (h : (saveOutboundStmts collate revision id input position).foldlM (exec collate) db = some db')
    : Entity.Saved collate ⟨.outbound, id⟩ revision (outboundCells input) db db' := by
  have hscope : (Entity.rows ⟨.outbound, id⟩ revision).Holds collate .outbounds
      (outboundRow revision id input position) := by
    exact Entity.holds_ofValues ⟨.outbound, id⟩ revision rfl columns_table
  apply save_rows hscope _ _ _ _ h
  . dsimp only
    decide
  . intro p hp
    simp only [outboundCells, mem_cons, not_mem_nil, or_false] at hp
    rcases hp with rfl | rfl | rfl <;> exact ⟨rfl, rfl⟩
  . exact first_of_unambiguous .outbound hscope rfl hfree
  . intro stmt hstmt
    rcases mem_cons.mp hstmt with rfl | hstmt
    . apply keeps_of_confined
      exact confined_overwrite_stream
    . exact keeps_writeOutboundDetails stmt hstmt

theorem confined_upsertCredentials
    : DetailOnly collate revision id .user
        (.upsert .userCredentials (credentialsRow revision id input) [
          (.credentialKind, .values), (.uuidValue, .coalesce), (.passwordValue, .coalesce),
          (.method, .coalesce), (.authValue, .coalesce)]) := by
  have hown : EntityKind.user.columns .userCredentials = some [.userId] := rfl
  apply Scope.confined_upsert Entity.keyed_scopeAt _ _ _ rfl
  . exact Entity.holds_ofValues ⟨.user, id⟩ revision rfl hown
  . intro cols hcols c hc
    obtain ⟨_, own, hown', rfl⟩ := Entity.columns_scopeAt.mp hcols
    cases hown.symm.trans hown'
    simp only [mem_cons, not_mem_nil, or_false] at hc
    rcases hc with rfl | rfl <;> rfl

theorem first_of_credentials {db₁ : Db}
    (hupdates : ∀ c ∈ [ColumnName.revisionId, .userId], updates.lookup c = none)
    (huser : exec collate db (.upsert .users (userRow revision id input) updates) = some db₁)
    (hparent : Has db₁ .users [(.revisionId, .int revision), (.userId, .int id)])
    : PrimaryFirst collate db (userRow revision id input) := by
  intro hnone
  rcases exec_upsert huser with ⟨hall, _⟩ | ⟨key, _, heq⟩
  . intro key hkey
    exact hall key (mem_cons_of_mem _ hkey)
  -- The user that is found was there before, with the same id.
  obtain ⟨user, hmem, hcells⟩ := hparent
  rw [forall_mem_cons, forall_mem_singleton] at hcells hupdates
  rw [heq, Function.update_self] at hmem
  obtain ⟨old, hold, rfl⟩ := mem_map.mp hmem
  have hkey' : old .revisionId = .int revision ∧ old .userId = .int id := by
    split at hcells
    . simpa [Row.merge, hupdates.left, hupdates.right] using hcells
    . exact hcells
  have hpk : schema.primaryKey .users = [.revisionId, .userId] := rfl
  have hagree : agree collate (schema.primaryKey .users) (userRow revision id input) old
      = true := by
    rw [agree_iff, hpk, forall_mem_cons, forall_mem_singleton, hkey'.left, hkey'.right]
    constructor
    . exact Value.same_self nofun
    . exact Value.same_self nofun
  rw [hnone old hold] at hagree
  cases hagree

theorem hasUser_of_credentials
    (hupdates : ∀ c ∈ [ColumnName.revisionId, .userId], updates.lookup c = none)
    (hexec : exec collate db (.upsert .userCredentials (credentialsRow revision id input) updates)
      = some db')
    : Has db .users [(.revisionId, .int revision), (.userId, .int id)] := by
  have hcredentials : Has db' .userCredentials
      [(.revisionId, .int revision), (.userId, .int id)] := by
    apply Scope.has_upsert _ hexec
    . rw [forall_mem_cons, forall_mem_singleton]
      exact ⟨rfl, rfl⟩
    . rw [forall_mem_cons, forall_mem_singleton] at hupdates ⊢
      refine ⟨Or.inr ⟨hupdates.left, ?_, _, rfl⟩, Or.inr ⟨hupdates.right, ?_, _, rfl⟩⟩
      . exact mem_cons_self
      . exact mem_cons_of_mem _ mem_cons_self
    . nofun
  obtain ⟨row, hrow, hcells⟩ := hcredentials
  rw [forall_mem_cons, forall_mem_singleton] at hcells
  have hsatisfied := (consistent_exec hexec).references .userCredentials row hrow
    (TableName.sameNames [.revisionId, .userId] .users .cascade) (mem_singleton_self _)
  rcases satisfied_iff.mp hsatisfied with ⟨c, hc, hnull⟩ | ⟨parent, hparent, href⟩
  . simp only [TableName.sameNames, map_cons, map_nil, mem_cons, not_mem_nil,
      or_false] at hc
    rcases hc with rfl | rfl
    . rw [hcells.left] at hnull
      cases hnull
    . rw [hcells.right] at hnull
      cases hnull
  . rw [exec_upsert_of_ne hexec (by decide)] at hparent
    refine ⟨parent, hparent, ?_⟩
    rw [references_iff] at href
    simp only [TableName.sameNames, map_cons, forall_mem_cons,
      hcells.left, hcells.right] at href
    rw [forall_mem_cons, forall_mem_singleton]
    rw [Value.same_comm, Value.same_int, Value.same_comm, Value.same_int] at href
    exact ⟨href.left, href.right.left⟩

theorem saveUser_rows (id : Int) {input : UserWrite}
    (h : (saveUserStmts revision id input).foldlM (exec collate) db = some db')
    : Entity.Saved collate ⟨.user, id⟩ revision (userCells input) db db' := by
  obtain ⟨db₁, huser, hrest⟩ := foldlM_cons_eq_some.mp h
  obtain ⟨db₂, hcredentials, _⟩ := foldlM_cons_eq_some.mp hrest
  have hscope : (Entity.rows ⟨.user, id⟩ revision).Holds collate .users
      (userRow revision id input) := by
    exact Entity.holds_ofValues ⟨.user, id⟩ revision rfl columns_table
  apply save_rows hscope _ _ _ _ h
  . dsimp only
    decide
  . intro p hp
    simp only [userCells, mem_cons, not_mem_nil, or_false] at hp
    rcases hp with rfl | rfl | rfl | rfl | rfl | rfl | rfl | rfl <;> exact ⟨rfl, rfl⟩
  . apply first_of_credentials _ huser
    . apply hasUser_of_credentials _ hcredentials
      decide
    . decide
  . rw [forall_mem_singleton]
    apply keeps_of_confined
    exact confined_upsertCredentials

variable {kind : EntityKind} (id : Int)

def deleteEntity (collate : String → String) (revision : Int) (kind : EntityKind) (id : Int)
    : Stmt :=
  deleteAt collate kind.table [(.revisionId, .int revision), (kind.idColumn, .int id)]

theorem deleteEntity_gone (h : exec collate db (deleteEntity collate revision kind id) = some db')
    : ¬ Entity.In ⟨kind, id⟩ (configuration db' revision) := by
  have hclear : ∀ fk ∈ kind.table.foreignKeys, fk.onDelete ≠ .setNull := by
    cases kind <;> decide
  rw [Entity.in_configuration_iff]
  rintro ⟨stored, hmem, hrevision, hid⟩
  have hfilter := (exec_delete_mem hclear h hmem).right
  simp [whereAll, hrevision, hid, Value.same] at hfilter

variable (kind) in
theorem confined_deleteEntity (hkind : kind ≠ .inbound)
    : Confined collate ((Entity.rows ⟨kind, id⟩ revision).Holds collate)
        (deleteEntity collate revision kind id) := by
  apply Entity.confined_deleteAt ⟨kind, id⟩ revision _ rfl columns_table
  . exact mem_cons_self
  . rw [forall_mem_singleton, value_idColumn]
    exact mem_cons_of_mem _ mem_cons_self
  . intro t ht
    exact Entity.inherits_of_ne kind t ht (Or.inl hkind)

theorem foreignKeys_to_users
    : ∀ t ∈ TableName.all, ∀ fk ∈ t.foreignKeys,
        (fk.parent = .users → t = .userCredentials
          ∧ (.revisionId, .revisionId) ∈ fk.columns ∧ (.userId, .userId) ∈ fk.columns)
        ∧ fk.parent ≠ .userCredentials := by
  decide

theorem foreignKeys_of_users
    : ∀ fk ∈ TableName.users.foreignKeys, fk.parent = .inbounds
        ∧ (.revisionId, .revisionId) ∈ fk.columns ∧ (.inboundId, .inboundId) ∈ fk.columns := by
  decide

theorem revisionId_of_setNull
    : ∀ t ∈ TableName.all, ∀ fk ∈ t.foreignKeys, fk.onDelete = .setNull →
        .revisionId ∉ t.columns := by
  decide

theorem holds_inbound_of_references {t : TableName}
    {row : Row t} {parent : Row fk.parent} (ht : t ≠ .users) (hfk : fk ∈ t.foreignKeys)
    (honDelete : fk.onDelete ≠ .restrict) (href : references collate fk row parent = true)
    (hparent : (Entity.rows ⟨.inbound, id⟩ revision).Holds collate fk.parent parent)
    : (Entity.rows ⟨.inbound, id⟩ revision).Holds collate t row := by
  apply Scope.holds_of_references href _ hparent
  have hinherits := Entity.inherits_of_ne .inbound t (schema.complete t) (Or.inr ht) fk hfk
  exact Entity.inherit_scopeAt ⟨.inbound, id⟩ revision hinherits honDelete

theorem user_of_references {row : Row .users}
    {parent : Row fk.parent} (hfk : fk ∈ TableName.users.foreignKeys)
    (href : references collate fk row parent = true)
    (hparent : (Entity.rows ⟨.inbound, id⟩ revision).Holds collate fk.parent parent)
    : row .revisionId = .int revision ∧ row .inboundId = .int id := by
  obtain ⟨hinbounds, hrevision, hinbound⟩ := foreignKeys_of_users fk hfk
  have hcolumns : (Entity.rows ⟨.inbound, id⟩ revision).columns fk.parent
      = some [.revisionId, .inboundId] := by
    rw [hinbounds]
    rfl
  obtain ⟨cols, hcols, hsame⟩ := hparent
  cases hcolumns.symm.trans hcols
  rw [references_iff] at href
  rw [forall_mem_cons, forall_mem_singleton] at hsame
  constructor
  . exact Value.same_int.mp (Value.same_trans _ (href _ hrevision) hsame.left)
  . exact Value.same_int.mp (Value.same_trans _ (href _ hinbound) hsame.right)

theorem credentials_of_references {t : TableName}
    {row : Row t} {parent : Row fk.parent} (hfk : fk ∈ t.foreignKeys) (hmem : parent ∈ db fk.parent)
    (href : references collate fk row parent = true)
    (hrevision : parent .revisionId = .int revision)
    (hparent : Dependent collate (configuration db revision) id fk.parent parent)
    : row .revisionId = .int revision ∧ Dependent collate (configuration db revision) id t row := by
  obtain ⟨hto, hnot⟩ := foreignKeys_to_users t (schema.complete t) fk hfk
  rw [references_iff] at href
  rcases hparent with ⟨husers, hinbound⟩ | ⟨hcredentials, _⟩
  . obtain ⟨ht, hrevisions, huserIds⟩ := hto husers
    have hsame := href _ hrevisions
    rw [hrevision, Value.same_int] at hsame
    refine ⟨hsame, Or.inr ⟨ht, ?_⟩⟩
    have huserId := href _ huserIds
    cases fk with
    | mk columns table onDelete =>
      subst husers
      refine ⟨withRevision parent .null, ⟨parent, hmem, hrevision, rfl⟩, ?_, ?_⟩
      . rw [withRevision_of_ne (by decide)]
        exact hinbound
      . rw [withRevision_of_ne (by decide)]
        exact huserId
  . contradiction

theorem closed_inbound
    : Closed collate (fun t row => row .revisionId = .int revision
        ∧ Edit.Touches collate (.deleteInbound id) (configuration db revision) ⟨.inbound, id⟩ t row)
        db where
  inherit := by
    rintro t fk hfk honDelete row _ parent hmem href ⟨hrevision, hscope | hdependent⟩
    . have hparent : (Entity.rows ⟨.inbound, id⟩ revision).Holds collate fk.parent parent := by
        rw [Entity.holds_scopeAt_iff]
        exact ⟨rfl, hrevision, hscope⟩
      by_cases ht : t = .users
      . subst ht
        obtain ⟨hrow, hinbound⟩ := user_of_references id hfk href hparent
        exact ⟨hrow, Or.inr (Or.inl ⟨rfl, hinbound⟩)⟩
      . have hholds := holds_inbound_of_references id ht hfk honDelete href hparent
        obtain ⟨_, hrow, hscope⟩ := Entity.holds_scopeAt_iff.mp hholds
        exact ⟨hrow, Or.inl hscope⟩
    . obtain ⟨hrow, hdependent⟩ := credentials_of_references id hfk hmem href hrevision hdependent
      exact ⟨hrow, Or.inr hdependent⟩
  cleared := by
    rintro t fk hfk honDelete row ⟨hrevision, _⟩
    apply revisionId_of_setNull t (schema.complete t) fk hfk honDelete
    exact mem_columns_of_revision hrevision

end Blackwire.Store
