import Blackwire.Store.Lemmas.Saves
import Blackwire.Store.Lemmas.Fork
import Blackwire.Lib.Machine

/-!
This module proves what a transaction that reaches its end has done to the database, and that the
revisions which are published in a run form a chain, however the calls that make them interleave, as
long as no call is ambiguous about its entity.
-/

namespace Blackwire.Store

open Sql

namespace Edit

variable {edit : Edit}

variable (edit) in
theorem ne_revisionId_of_cells {cells : List (ColumnName × Value)} (h : edit.cells = some cells)
    : ∀ p ∈ cells, p.fst ≠ .revisionId := by
  cases edit with
  | saveInbound input =>
    cases h
    simp [inboundCells]
  | saveOutbound input =>
    cases h
    simp [outboundCells]
  | saveUser input =>
    cases h
    simp [userCells]
  | _ => cases h

variable (edit) in
theorem touches_withRevision (before : Configuration) (e : Entity) (t : TableName) (row : Row t)
    : edit.Touches collate before e t (withRevision row .null)
        ↔
      edit.Touches collate before e t row := by
  cases edit with
  | deleteInbound id =>
    unfold Touches Dependent
    rw [Entity.holds_withRevision, withRevision_of_ne (by decide), withRevision_of_ne (by decide)]
  | _ => exact e.holds_withRevision row

theorem effect_of_has {cells : List (ColumnName × Value)} (hcells : edit.cells = some cells)
    (h : Has db' e.kind.table (e.cells revision cells))
    : edit.Effect (configuration db' revision) e := by
  obtain ⟨row, hrow, hvalues⟩ := h
  rw [Entity.cells, List.forall_mem_cons, List.forall_mem_cons] at hvalues
  unfold Effect
  rw [hcells]
  refine ⟨withRevision row .null, ⟨row, hrow, hvalues.left, rfl⟩, ?_⟩
  rw [List.forall_mem_cons]
  constructor
  . rw [withRevision_of_ne idColumn_ne]
    exact hvalues.right.left
  . intro p hp
    rw [withRevision_of_ne (edit.ne_revisionId_of_cells hcells p hp)]
    exact hvalues.right.right p hp

theorem sameOutside_touches (h : SameOutside ((e.rows revision).Holds collate) db db')
    : SameOutside
        (fun t row => row .revisionId = .int revision ∧ edit.Touches collate before e t row)
        db db' := by
  apply h.mono
  intro t row hrow
  obtain ⟨_, hrevision, hscope⟩ := Entity.holds_scopeAt_iff.mp hrow
  refine ⟨hrevision, ?_⟩
  cases edit with
  | deleteInbound id => exact Or.inl hscope
  | _ => exact hscope

variable (edit) in
theorem run_script (hdb : Consistent collate db)
    (hunambiguous : edit.Unambiguous collate (configuration db revision) (edit.target db))
    (h : (edit.script collate revision).run collate db = some db')
    : SameOutside
        (fun t row => row .revisionId = .int revision
          ∧ edit.Touches collate (configuration db revision) (edit.target db) t row)
        db db'
        ∧ edit.Effect (configuration db' revision) (edit.target db) := by
  cases edit with
  | saveInbound input =>
    rw [script, Store.saveInbound, Script.run, Script.run_ofList] at h
    obtain ⟨hsame, hhas⟩ := saveInbound_rows _ _ (hunambiguous.tag input.tag rfl) h
    exact ⟨sameOutside_touches hsame, effect_of_has rfl hhas⟩
  | saveOutbound input =>
    rw [script, Store.saveOutbound, Script.run, Script.run_ofList] at h
    obtain ⟨hsame, hhas⟩ := saveOutbound_rows _ _ (hunambiguous.tag input.tag rfl) h
    exact ⟨sameOutside_touches hsame, effect_of_has rfl hhas⟩
  | saveUser input =>
    obtain ⟨hsame, hhas⟩ := saveUser_rows _ h
    exact ⟨sameOutside_touches hsame, effect_of_has rfl hhas⟩
  | deleteInbound id =>
    rw [script, Store.deleteInbound, Script.run_singleton] at h
    refine ⟨?_, deleteEntity_gone id h⟩
    apply sameOutside_delete hdb (closed_inbound id) _ h
    intro row _ hrow
    simp [whereAll] at hrow
    refine ⟨hrow.left, Or.inl ⟨[.inboundId], rfl, ?_⟩⟩
    rw [List.forall_mem_singleton]
    exact Value.same_int.mpr hrow.right
  | deleteOutbound id =>
    rw [script, Store.deleteOutbound, Script.run_singleton] at h
    refine ⟨?_, deleteEntity_gone id h⟩
    apply sameOutside_touches
    exact confined_deleteEntity .outbound id (by decide) db db' hdb h
  | deleteUser id =>
    rw [script, Store.deleteUser, Script.run_singleton] at h
    refine ⟨?_, deleteEntity_gone id h⟩
    apply sameOutside_touches
    exact confined_deleteEntity .user id (by decide) db db' hdb h

end Edit

open List

variable {db db' : Db}

section Desired

theorem mem_of_desiredRevision (h : desiredRevision db = some revision)
    : Has db .configurationState [(.singletonId, .int 1), (.desiredRevision, .int revision)] := by
  unfold desiredRevision at h
  split at h
  . cases h
  . next row hfind =>
    split at h
    . next hdesired =>
      cases h
      have hid := find?_some hfind
      rw [decide_eq_true_eq] at hid
      refine ⟨row, mem_of_find?_eq_some hfind, ?_⟩
      rw [forall_mem_cons, forall_mem_singleton]
      exact ⟨hid, hdesired⟩
    . cases h

theorem desiredRevision_of_has (hdb : Consistent collate db)
    (h : Has db .configurationState [(.singletonId, .int 1), (.desiredRevision, .int revision)])
    : desiredRevision db = some revision := by
  obtain ⟨row, hrow, hcells⟩ := h
  rw [forall_mem_cons, forall_mem_singleton] at hcells
  unfold desiredRevision
  split
  . next hnone =>
    have := find?_eq_none.mp hnone row hrow
    simp [hcells.left] at this
  . next other hfind =>
    have hid := find?_some hfind
    rw [decide_eq_true_eq] at hid
    have heq : other = row := by
      apply hdb.eq_of_agree (mem_of_find?_eq_some hfind) hrow [.singletonId] mem_cons_self
      rw [agree_iff, forall_mem_singleton, hid, hcells.left]
      exact Value.same_self nofun
    rw [heq, hcells.right]

theorem has_of_desiredRevision (hdb : Consistent collate db)
    (h : desiredRevision db = some revision)
    : Has db .configurationRevisions [(.revision, .int revision)] := by
  obtain ⟨row, hrow, hcells⟩ := mem_of_desiredRevision h
  rw [forall_mem_cons, forall_mem_singleton] at hcells
  have hsatisfied := hdb.references .configurationState row hrow
    ⟨[(.desiredRevision, .revision)], .configurationRevisions, .restrict⟩ mem_cons_self
  rcases satisfied_iff.mp hsatisfied with ⟨c, hc, hnull⟩ | ⟨parent, hparent, href⟩
  . rw [mem_singleton] at hc
    rw [hc, hcells.right] at hnull
    cases hnull
  . rw [references_iff, forall_mem_singleton, hcells.right, Value.same_comm,
      Value.same_int] at href
    refine ⟨parent, hparent, ?_⟩
    rw [forall_mem_singleton]
    assumption

theorem exec_publishRevision (h : exec collate db (publishRevision collate revision) = some db')
    : (∀ t, t ≠ .configurationState → db' t = db t)
        ∧ (Has db .configurationState [(.singletonId, .int 1)] →
          desiredRevision db' = some revision) := by
  have hupdate := exec_update h
  constructor
  . intro t ht
    rw [hupdate, Function.update_of_ne ht]
  . rintro ⟨row, hrow, hcells⟩
    rw [forall_mem_singleton] at hcells
    apply desiredRevision_of_has (consistent_exec h)
    rw [Has, hupdate, Function.update_self]
    refine ⟨_, mem_map_of_mem hrow, ?_⟩
    rw [if_pos (by simp [whereAll, hcells]), forall_mem_cons, forall_mem_singleton]
    exact ⟨hcells, rfl⟩

end Desired

section Publish

variable {request : Request}

structure Published (collate : String → String) (db db' : Db) (request : Request) (revision : Int)
    : Prop where
  consistent : Consistent collate db'
  desired : desiredRevision db' = some revision
  kept : ∀ k, k ≠ revision → configuration db' k = configuration db k
  revisions : ∀ row, row ∈ db' .configurationRevisions
    ↔ row ∈ db .configurationRevisions ∨ row = revisionRow revision request
  edited : request.edit.Edited collate (configuration db request.expectedRevision)
    (configuration db' revision) (request.edit.target db)

theorem configuration_congr (h : ∀ t, .revisionId ∈ t.columns → db' t = db t) (k : Int)
    : configuration db' k = configuration db k := by
  funext t
  apply Set.ext
  intro row
  constructor
  . rintro ⟨stored, hmem, hrevision, rfl⟩
    rw [h t (mem_columns_of_revision hrevision)] at hmem
    exact ⟨stored, hmem, hrevision, rfl⟩
  . rintro ⟨stored, hmem, hrevision, rfl⟩
    rw [← h t (mem_columns_of_revision hrevision)] at hmem
    exact ⟨stored, hmem, hrevision, rfl⟩

theorem run_script_eq_some {db₁ : Db}
    (h : (request.script collate revision).run collate db₁ = some db')
    : ∃ db₂ db₃,
        (Script.ofList (copyRevisionRows collate request.expectedRevision revision)).run collate db₁
          = some db₂
        ∧ (request.edit.script collate revision).run collate db₂ = some db₃
        ∧ exec collate db₃ (publishRevision collate revision) = some db' := by
  rw [Request.script, Script.run_append, Option.bind_eq_some_iff] at h
  obtain ⟨db₂, hcopy, h⟩ := h
  rw [Script.run_append, Option.bind_eq_some_iff] at h
  obtain ⟨db₃, hedit, h⟩ := h
  rw [Script.run_singleton] at h
  exact ⟨db₂, db₃, hcopy, hedit, h⟩

section

variable (hdb : Consistent collate db)
  (hrevisions : ∀ row ∈ db .configurationRevisions, row .revision ≠ .int revision)
  (hcreate : exec collate db (createRevisionMetadata revision request) = some db₁)
  (hcopy : (Script.ofList (copyRevisionRows collate request.expectedRevision revision)).run collate
    db₁ = some db₂)

include hcreate in
theorem create_of_revisionId (t : TableName) (ht : .revisionId ∈ t.columns) : db₁ t = db t := by
  rw [exec_insert hcreate, Function.update_of_ne]
  rintro rfl
  revert ht
  decide

include hcopy in
theorem fork_of_not_revisionId (ht : .revisionId ∉ t.columns) : db₂ t = db₁ t := by
  rw [run_copyRevisionRows hcopy, copies_eq_nil ht, append_nil]

include hcreate hcopy

theorem target_fork (edit : Edit) : edit.target db₂ = edit.target db := by
  have ht : .revisionId ∈ edit.kind.table.columns := by
    cases edit.kind <;> decide
  unfold Edit.target
  rw [nextId_fork (run_copyRevisionRows hcopy) _ _ idColumn_ne]
  unfold nextId
  rw [create_of_revisionId hcreate _ ht]

theorem configuration_fork_of_ne (hk : k ≠ revision)
    : configuration db₂ k = configuration db k := by
  rw [configuration_of_ne (sameOutside_fork (run_copyRevisionRows hcopy)) k hk]
  exact configuration_congr (create_of_revisionId hcreate) k

include hdb hrevisions

theorem configuration_fork_eq
    : configuration db₂ revision = configuration db request.expectedRevision := by
  rw [configuration_fork (run_copyRevisionRows hcopy)]
  . exact configuration_congr (create_of_revisionId hcreate) _
  . intro t row hrow hrevision
    rw [create_of_revisionId hcreate t (mem_columns_of_revision hrevision)] at hrow
    exact fresh_of_consistent hdb hrevisions t row hrow hrevision

end

theorem mem_iff_of_sameOutside {P : (t : TableName) → Row t → Prop}
    (hsame : SameOutside (fun t row => row .revisionId = .int revision ∧ P t row) db db')
    (ht : .revisionId ∉ t.columns) (row : Row t)
    : row ∈ db' t ↔ row ∈ db t := by
  apply hsame
  rintro ⟨hrevision, _⟩
  exact ht (mem_columns_of_revision hrevision)

theorem published {db₁ : Db} (hdb : Consistent collate db)
    (hdesired : desiredRevision db = some request.expectedRevision)
    (hrevisions : ∀ row ∈ db .configurationRevisions, row .revision ≠ .int revision)
    (hunambiguous : request.edit.Unambiguous collate
      (configuration db request.expectedRevision) (request.edit.target db))
    (hcreate : exec collate db (createRevisionMetadata revision request) = some db₁)
    (hscript : (request.script collate revision).run collate db₁ = some db')
    : Published collate db db' request revision := by
  obtain ⟨db₂, db₃, hcopy, hedit, hpublish⟩ := run_script_eq_some hscript
  have hdb₂ : Consistent collate db₂ := by
    rw [Script.run_ofList] at hcopy
    exact consistent_foldlM (consistent_exec hcreate) hcopy
  have hforked := configuration_fork_eq hdb hrevisions hcreate hcopy
  have htarget := target_fork hcreate hcopy request.edit
  rw [← hforked, ← htarget] at hunambiguous
  obtain ⟨hsame, heffect⟩ := request.edit.run_script hdb₂ hunambiguous hedit
  obtain ⟨hothers, hset⟩ := exec_publishRevision hpublish
  have hversioned : ∀ t, .revisionId ∈ t.columns → db' t = db₃ t := by
    intro t ht
    apply hothers
    rintro rfl
    revert ht
    decide
  have hlast := configuration_congr hversioned
  constructor
  . exact consistent_exec hpublish
  . apply hset
    obtain ⟨row, hrow, hcells⟩ := mem_of_desiredRevision hdesired
    rw [forall_mem_cons] at hcells
    refine ⟨row, ?_, ?_⟩
    . rw [mem_iff_of_sameOutside hsame (by decide),
        fork_of_not_revisionId hcopy (by decide), exec_insert hcreate,
        Function.update_of_ne (by decide)]
      assumption
    . rw [forall_mem_singleton]
      exact hcells.left
  . intro k hk
    rw [hlast, configuration_of_ne hsame k hk]
    exact configuration_fork_of_ne hcreate hcopy hk
  . intro row
    rw [hothers _ (by decide), mem_iff_of_sameOutside hsame (by decide),
      fork_of_not_revisionId hcopy (by decide), exec_insert hcreate, Function.update_self,
      mem_append, mem_singleton]
  . rw [hlast, ← htarget, ← hforked]
    constructor
    . rfl
    . intro id hid
      simp [Edit.target, hid]
    . exact hunambiguous.new
    . exact mem_configuration_iff hsame (request.edit.touches_withRevision _ _)
    . exact heffect

end Publish

open Machine

theorem Chain.mono (h : Chain collate db first log tip)
    (hkept : ∀ k ≤ tip, configuration db' k = configuration db k)
    (hrevisions : ∀ row ∈ db .configurationRevisions, row ∈ db' .configurationRevisions)
    : Chain collate db' first log tip := by
  induction h with
  | nil => exact Chain.nil
  | cons request revision log e _ hlt hparent hedited ih =>
    apply Chain.cons request revision log e _ hlt
    . obtain ⟨row, hrow, hcells⟩ := hparent
      exact ⟨row, hrevisions row hrow, hcells⟩
    . rw [hkept revision (Int.le_refl _), hkept _ (Int.le_of_lt hlt)]
      exact hedited
    . apply ih
      intro k hk
      apply hkept
      omega

namespace State

section Steps

variable (s : State)

theorem begin_cases
    : s.begin collate isIpAddr request = s
        ∨ (s.tx = none ∧ desiredRevision s.db = some request.expectedRevision
          ∧ s.begin collate isIpAddr request = { s with
            nextRevision := s.nextRevision + 1
            tx := (exec collate s.db (createRevisionMetadata s.nextRevision request)).map fun db =>
              ⟨request, s.nextRevision, db, request.script collate s.nextRevision⟩ }) := by
  unfold begin
  split
  . next hidle _ hbegin =>
    right
    refine ⟨hidle, ?_, rfl⟩
    unfold beginRevision at hbegin
    split at hbegin
    . cases hbegin
    . next hdesired =>
      split at hbegin
      . cases hbegin
      . next heq =>
        rw [hdesired]
        simpa using heq
  . left
    rfl

-- What a transaction is still going to do does not change on the way.
theorem advance_cases
    : s.advance collate = s
        ∨ s.advance collate = { s with tx := none }
        ∨ ∃ tx tx', s.tx = some tx ∧ s.advance collate = { s with tx := some tx' }
          ∧ tx'.request = tx.request ∧ tx'.revision = tx.revision
          ∧ tx'.rest.run collate tx'.db = tx.rest.run collate tx.db := by
  unfold advance
  split
  . left
    rfl
  . next tx htx =>
    split
    . left
      rfl
    . next f hrest =>
      right
      right
      refine ⟨tx, _, htx, rfl, rfl, rfl, ?_⟩
      rw [hrest]
      rfl
    . next stmt rest hrest =>
      right
      cases hexec : exec collate tx.db stmt with
      | none =>
        left
        rfl
      | some db =>
        right
        refine ⟨tx, _, htx, rfl, rfl, rfl, ?_⟩
        rw [hrest, Script.run, hexec]
        rfl

theorem commit_cases
    : s.commit = s
        ∨ ∃ tx, s.tx = some tx ∧ tx.rest = .done
          ∧ s.commit = { s with
            db := tx.db
            tx := none
            accepted := (tx.request, tx.revision) :: s.accepted } := by
  unfold commit
  split
  . left
    rfl
  . next tx htx =>
    split
    . next hrest =>
      right
      exact ⟨tx, htx, hrest, rfl⟩
    . left
      rfl

end Steps

section Invariant

structure Running (collate : String → String) (s : State) (tx : Tx) : Prop where
  desired : desiredRevision s.db = some tx.request.expectedRevision
  bound : ∀ row ∈ s.db .configurationRevisions, ∀ revision, row .revision = .int revision →
    revision < tx.revision
  handedOut : tx.revision < s.nextRevision
  unambiguous : tx.request.edit.Unambiguous collate
    (configuration s.db tx.request.expectedRevision) (tx.request.edit.target s.db)
  script : ∃ db, exec collate s.db (createRevisionMetadata tx.revision tx.request) = some db
    ∧ tx.rest.run collate tx.db = (tx.request.script collate tx.revision).run collate db

structure Inv (collate : String → String) (first : Int) (s : State) : Prop where
  consistent : Consistent collate s.db
  bound : ∀ row ∈ s.db .configurationRevisions, ∀ revision, row .revision = .int revision →
    revision < s.nextRevision
  chain : ∃ tip, desiredRevision s.db = some tip ∧ Chain collate s.db first s.accepted tip
  running : ∀ tx, s.tx = some tx → s.Running collate tx

variable {s : State}

theorem Initial.inv (h : s.Initial collate first) : s.Inv collate first where
  consistent := h.consistent
  bound := h.bound
  chain := by
    refine ⟨first, h.desired, ?_⟩
    rw [h.log]
    exact Chain.nil
  running := by
    intro tx htx
    rw [h.idle] at htx
    cases htx

theorem Inv.forget (h : s.Inv collate first) (hn : s.nextRevision ≤ n)
    : Inv collate first { s with nextRevision := n, tx := none } where
  consistent := h.consistent
  bound := by
    intro row hrow revision hrevision
    have := h.bound row hrow revision hrevision
    dsimp only
    omega
  chain := h.chain
  running := by
    intro tx htx
    cases htx

theorem Running.lt {tx : Tx} (h : s.Running collate tx) (hdb : Consistent collate s.db)
    : tx.request.expectedRevision < tx.revision := by
  obtain ⟨row, hrow, hcells⟩ := has_of_desiredRevision hdb h.desired
  rw [List.forall_mem_singleton] at hcells
  exact h.bound row hrow _ hcells

theorem Running.published {tx : Tx} (h : s.Running collate tx) (hdb : Consistent collate s.db)
    (hdone : tx.rest = .done)
    : Published collate s.db tx.db tx.request tx.revision := by
  obtain ⟨db, hcreate, hscript⟩ := h.script
  rw [hdone, Script.run] at hscript
  apply Store.published hdb h.desired _ h.unambiguous hcreate hscript.symm
  intro row hrow hrevision
  have := h.bound row hrow _ hrevision
  omega

section

variable (h : s.Inv collate first)
include h

theorem inv_begin (hallowed : s.Allowed collate (.begin request))
    : (s.begin collate isIpAddr request).Inv collate first := by
  rcases s.begin_cases with hsame | ⟨_, hdesired, hbegin⟩
  . rw [hsame]
    assumption
  rw [hbegin]
  cases hcreate : exec collate s.db (createRevisionMetadata s.nextRevision request) with
  | none =>
    apply h.forget
    omega
  | some db =>
    constructor
    . exact h.consistent
    . intro row hrow revision hrevision
      have := h.bound row hrow revision hrevision
      dsimp only
      omega
    . exact h.chain
    . intro tx htx
      cases htx
      constructor
      . exact hdesired
      . exact h.bound
      . dsimp only
        omega
      . exact hallowed hdesired
      . exact ⟨db, hcreate, rfl⟩

theorem inv_advance : (s.advance collate).Inv collate first := by
  rcases s.advance_cases with hsame | hgone | ⟨tx, tx', htx, hadvance, hrequest, hrevision, hrun⟩
  . rw [hsame]
    assumption
  . rw [hgone]
    exact h.forget (Int.le_refl _)
  rw [hadvance]
  have hrunning := h.running tx htx
  constructor
  . exact h.consistent
  . exact h.bound
  . exact h.chain
  . intro _ heq
    cases heq
    constructor
    . rw [hrequest]
      exact hrunning.desired
    . rw [hrevision]
      exact hrunning.bound
    . rw [hrevision]
      exact hrunning.handedOut
    . rw [hrequest]
      exact hrunning.unambiguous
    . rw [hrequest, hrevision, hrun]
      exact hrunning.script

theorem inv_commit : s.commit.Inv collate first := by
  rcases s.commit_cases with hsame | ⟨tx, htx, hdone, hcommit⟩
  . rw [hsame]
    assumption
  rw [hcommit]
  have hrunning := h.running tx htx
  have hlt := hrunning.lt h.consistent
  have hpublished := hrunning.published h.consistent hdone
  constructor
  . exact hpublished.consistent
  . intro row hrow revision hrevision
    rcases (hpublished.revisions row).mp hrow with hrow | rfl
    . exact h.bound row hrow revision hrevision
    . cases hrevision
      exact hrunning.handedOut
  . refine ⟨tx.revision, hpublished.desired, ?_⟩
    obtain ⟨tip, htip, hchain⟩ := h.chain
    rw [hrunning.desired, Option.some.injEq] at htip
    subst htip
    apply Chain.cons tx.request tx.revision s.accepted _ _ hlt
    . refine ⟨revisionRow tx.revision tx.request, (hpublished.revisions _).mpr (Or.inr rfl), ?_⟩
      rw [List.forall_mem_cons, List.forall_mem_singleton]
      exact ⟨rfl, rfl⟩
    . rw [hpublished.kept _ (Int.ne_of_lt hlt)]
      exact hpublished.edited
    . apply hchain.mono
      . intro k hk
        apply hpublished.kept
        omega
      . intro row hrow
        exact (hpublished.revisions row).mpr (Or.inl hrow)
  . intro _ heq
    cases heq

theorem inv_step (hallowed : s.Allowed collate event)
    : (s.step collate isIpAddr event).Inv collate first := by
  cases event with
  | begin request => exact inv_begin h hallowed
  | advance => exact inv_advance h
  | commit => exact inv_commit h
  | abort => exact h.forget (Int.le_refl _)

-- Only a commit is seen, and it only adds a revision.
theorem Inv.kept (htip : desiredRevision s.db = some tip) (hk : k ≤ tip)
    : configuration (s.step collate isIpAddr event).db k = configuration s.db k := by
  cases event with
  | begin request =>
    rcases s.begin_cases with hsame | ⟨_, _, hbegin⟩
    . rw [step, hsame]
    . rw [step, hbegin]
  | advance =>
    rcases s.advance_cases with hsame | hgone | ⟨_, _, _, hadvance, _⟩
    . rw [step, hsame]
    . rw [step, hgone]
    . rw [step, hadvance]
  | commit =>
    rcases s.commit_cases with hsame | ⟨tx, htx, hdone, hcommit⟩
    . rw [step, hsame]
    rw [step, hcommit]
    have hrunning := h.running tx htx
    have hlt := hrunning.lt h.consistent
    rw [hrunning.desired, Option.some.injEq] at htip
    apply (hrunning.published h.consistent hdone).kept
    omega
  | abort => rfl

end

theorem revisions_form_chain (start s : State) (first : Int) (hstart : start.Initial collate first)
    (hs : Reach (State.step collate isIpAddr) (State.Allowed collate) start s)
    : ∃ tip, desiredRevision s.db = some tip ∧ Chain collate s.db first s.accepted tip
        ∧ ∀ event k, k ≤ tip →
          configuration (s.step collate isIpAddr event).db k = configuration s.db k := by
  have hinv : s.Inv collate first := by
    apply hs.invariant (State.Inv collate first) start s hstart.inv
    intro t event hinv hallowed
    exact inv_step hinv hallowed
  obtain ⟨tip, htip, hchain⟩ := hinv.chain
  refine ⟨tip, htip, hchain, ?_⟩
  intro event k hk
  exact hinv.kept htip hk

end Invariant

section Runs

def oneInbound : Db
  | .configurationRevisions => [.ofValues _ [
    .int 1, .null, .text "system", .text "Initial configuration", .text "hot_swap"]]
  | .configurationState => [.ofValues _ [.int 1, .int 1, .int 1, .text "active", .null]]
  | .inbounds => [.ofValues _ [
    .int 1, .int 1, .text "in", .text "0.0.0.0", .int 443, .text "vless", .int 1, .int 0]]
  | _ => []

def idle : State := ⟨oneInbound, 2, none, []⟩

def addInbound (tag : String) : Request :=
  ⟨"admin", 1, .saveInbound
    ⟨none, tag, "127.0.0.1", 1080, "socks", true, "tcp", "none", none, none, none, none⟩⟩

def call (request : Request) : List Event :=
  .begin request :: (List.replicate 38 .advance ++ [.commit])

def afterCall (request : Request) : State :=
  (call request).foldl (State.step id fun _ => true) idle

theorem initial_idle : idle.Initial id 1 where
  consistent := by decide +kernel
  desired := by decide +kernel
  bound := by
    intro row hrow revision hrevision
    cases List.mem_singleton.mp hrow
    cases hrevision
    decide
  idle := rfl
  log := rfl

theorem allowed_call (hbegin : allowed idle (.begin request))
    (hother : ∀ s event, (∀ request, event ≠ .begin request) → allowed s event)
    : Reach (State.step id fun _ => true) allowed idle (afterCall request) := by
  apply Reach.foldl _ _ Reach.start
  refine ⟨hbegin, ?_⟩
  apply allowed_of_forall
  intro event hevent s
  apply hother
  rintro request rfl
  simp at hevent

theorem revisions_form_chain_after_add
    : (afterCall (addInbound "new")).accepted = [(addInbound "new", 2)]
        ∧ ∃ tip, desiredRevision (afterCall (addInbound "new")).db = some tip
          ∧ Chain id (afterCall (addInbound "new")).db 1 (afterCall (addInbound "new")).accepted tip
          ∧ ∀ event k, k ≤ tip →
            configuration ((afterCall (addInbound "new")).step id (fun _ => true) event).db k
              = configuration (afterCall (addInbound "new")).db k := by
  refine ⟨rfl, ?_⟩
  apply revisions_form_chain idle _ 1 initial_idle
  apply allowed_call
  . intro _
    constructor
    . intro _
      rw [Entity.in_configuration_iff]
      decide +kernel
    . rintro tag htag _ row ⟨stored, hstored, _, rfl⟩
      cases htag
      cases List.mem_singleton.mp hstored
      rfl
  . intro s event hevent
    cases event with
    | begin request => exact absurd rfl (hevent request)
    | _ => trivial

theorem not_edited_of_overwritten {db : Db} (tag : String)
    (hbefore : ∃ row ∈ db .inbounds, row .revisionId = .int 1 ∧ row .inboundId = .int 1
      ∧ row .listenAddress = .text "0.0.0.0")
    (hafter : ∀ row ∈ db .inbounds, row .revisionId = .int 2 →
      row .listenAddress = .text "127.0.0.1")
    (e : Entity)
    : ¬ (addInbound tag).edit.Edited id (configuration db 1) (configuration db 2) e := by
  intro hedited
  obtain ⟨row, hrow, hrevision, hid, hlisten⟩ := hbefore
  have hmem : withRevision row .null ∈ configuration db 1 .inbounds := ⟨row, hrow, hrevision, rfl⟩
  -- It is not the entity of the edit, because that is a new one.
  have hnot : ¬ (addInbound tag).edit.Touches id (configuration db 1) e .inbounds
      (withRevision row .null) := by
    rw [Edit.touches_withRevision]
    rintro ⟨own, hown, hsame⟩
    obtain ⟨kind, id⟩ := e
    cases hedited.kind
    cases hown
    rw [List.forall_mem_singleton, hid] at hsame
    have heq : Value.int 1 = .int id := Value.same_int.mp hsame
    cases heq
    exact hedited.new rfl ((Entity.in_configuration_iff _ _ _).mpr ⟨row, hrow, hrevision, hid⟩)
  obtain ⟨stored, hstored, hrevision', heq⟩ := (hedited.frame .inbounds _ hnot).mpr hmem
  have hcell : row .listenAddress = stored .listenAddress := by
    rw [← withRevision_of_ne (by decide), heq, withRevision_of_ne (by decide)]
  rw [hafter stored hstored hrevision', hlisten] at hcell
  revert hcell
  decide

theorem add_overwrites_inbound_of_same_tag
    : idle.Initial id 1
        ∧ Reach (State.step id fun _ => true) (fun _ _ => True) idle
          (afterCall (addInbound "in"))
        ∧ (addInbound "in").edit.givenId = none
        ∧ (afterCall (addInbound "in")).accepted = [(addInbound "in", 2)]
        ∧ ∀ e, ¬ (addInbound "in").edit.Edited id (configuration (afterCall (addInbound "in")).db 1)
          (configuration (afterCall (addInbound "in")).db 2) e := by
  refine ⟨initial_idle, ?_, rfl, rfl, ?_⟩
  . apply allowed_call
    . trivial
    . intros
      trivial
  . apply not_edited_of_overwritten
    . decide +kernel
    . decide +kernel

end Runs

end State

end Blackwire.Store
