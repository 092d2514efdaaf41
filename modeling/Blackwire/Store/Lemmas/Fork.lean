import Blackwire.Store.Spec

/-!
This module connects the rows of the database with the configurations of the revisions, and proves
that forking a revision gives the new one the configuration of its parent and leaves those of all
other revisions alone.
-/

namespace Blackwire.Store

open Sql

section

variable {t : TableName} {row : Row t}

theorem withRevision_of_ne (hc : c ≠ .revisionId)
    : withRevision row v c = row c := by
  simp [withRevision, Row.set, List.lookup_cons, beq_eq_false_iff_ne.mpr hc]

theorem withRevision_revisionId (ht : .revisionId ∈ t.columns)
    : withRevision row v .revisionId = v := by
  have hmem : .revisionId ∈ schema.columns t := ht
  simp [withRevision, Row.set, hmem]

theorem withRevision_withRevision (v w : Value)
    : withRevision (withRevision row v) w = withRevision row w := by
  apply Row.ext
  intro c
  by_cases hc : c = .revisionId
  . subst hc
    by_cases ht : .revisionId ∈ schema.columns t
    . simp [withRevision, Row.set, ht]
    . simp [withRevision, Row.set, ht]
  . rw [withRevision_of_ne hc, withRevision_of_ne hc, withRevision_of_ne hc]

theorem mem_columns_of_revision (h : row .revisionId = .int v)
    : .revisionId ∈ t.columns := by
  apply Classical.byContradiction
  intro ht
  rw [row.property _ ht] at h
  cases h

end

theorem idColumn_ne {kind : EntityKind} : kind.idColumn ≠ .revisionId := by
  cases kind <;> decide

theorem Entity.in_configuration_iff (e : Entity) (db : Db) (revision : Int)
    : e.In (configuration db revision)
        ↔
      ∃ stored ∈ db e.kind.table,
        stored .revisionId = .int revision ∧ stored e.kind.idColumn = .int e.id := by
  constructor
  . rintro ⟨row, ⟨stored, hmem, hrevision, rfl⟩, hid⟩
    rw [withRevision_of_ne idColumn_ne] at hid
    exact ⟨stored, hmem, hrevision, hid⟩
  . rintro ⟨stored, hmem, hrevision, hid⟩
    refine ⟨withRevision stored .null, ⟨stored, hmem, hrevision, rfl⟩, ?_⟩
    rw [withRevision_of_ne idColumn_ne]
    assumption

theorem Entity.holds_withRevision (e : Entity) (row : Row t)
    : e.scope.Holds collate t (withRevision row v) ↔ e.scope.Holds collate t row := by
  apply Scope.holds_congr
  intro cols hcols c hc
  apply withRevision_of_ne
  rintro rfl
  exact (e.kind.columns_primaryKey t (schema.complete t) cols hcols).left hc

section Frame

variable {db db' : Db} {revision : Int} {P : (t : TableName) → Row t → Prop}
  (hsame : SameOutside (fun t row => row .revisionId = .int revision ∧ P t row) db db')

include hsame

theorem configuration_of_ne (k : Int) (hk : k ≠ revision)
    : configuration db' k = configuration db k := by
  have hstored : ∀ t (stored : Row t), stored .revisionId = .int k →
      (stored ∈ db' t ↔ stored ∈ db t) := by
    intro t stored hrevision
    apply hsame
    rintro ⟨heq, _⟩
    rw [hrevision, Value.int.injEq] at heq
    contradiction
  funext t
  apply Set.ext
  intro row
  constructor
  . rintro ⟨stored, hmem, hrevision, rfl⟩
    exact ⟨stored, (hstored t stored hrevision).mp hmem, hrevision, rfl⟩
  . rintro ⟨stored, hmem, hrevision, rfl⟩
    exact ⟨stored, (hstored t stored hrevision).mpr hmem, hrevision, rfl⟩

theorem mem_configuration_iff (hP : ∀ t (row : Row t), P t (withRevision row .null) ↔ P t row)
    (t : TableName) (row : Row t) (hrow : ¬ P t row)
    : row ∈ configuration db' revision t ↔ row ∈ configuration db revision t := by
  have hstored : ∀ stored : Row t, row = withRevision stored .null →
      (stored ∈ db' t ↔ stored ∈ db t) := by
    rintro stored rfl
    apply hsame
    rw [hP] at hrow
    exact fun h => hrow h.right
  constructor
  . rintro ⟨stored, hmem, hrevision, heq⟩
    exact ⟨stored, (hstored stored heq).mp hmem, hrevision, heq⟩
  . rintro ⟨stored, hmem, hrevision, heq⟩
    exact ⟨stored, (hstored stored heq).mpr hmem, hrevision, heq⟩

end Frame

open List

variable {db db' : Db}

section Copy

def copies (db : Db) (source target : Int) (t : TableName) : List (Row t) :=
  ((db t).filter fun row => row .revisionId = .int source).map (withRevision · (.int target))

theorem mem_copies
    : row ∈ copies db source target t
        ↔
      ∃ stored ∈ db t, stored .revisionId = .int source
        ∧ row = withRevision stored (.int target) := by
  simp [copies, and_assoc, eq_comm]

theorem ofValues_columns {row : Row t} (hcolumns : t.columns = .revisionId :: selected)
    (hselected : .revisionId ∉ selected)
    : Row.ofValues (S := schema) t (.int target :: selected.map row)
        =
      withRevision row (.int target) := by
  have hschema : schema.columns t = .revisionId :: selected := hcolumns
  have hvalues : .int target :: selected.map row
      = (.revisionId :: selected).map fun c => if c = .revisionId then .int target else row c := by
    congr 1
    apply map_congr_left
    intro c hc
    rw [if_neg]
    rintro rfl
    contradiction
  apply Row.ext
  intro c
  by_cases hc : c ∈ schema.columns t
  . rw [hvalues, ← append_nil (List.map _ _), Row.ofValues_map]
    . split
      . next heq =>
        subst heq
        rw [withRevision_revisionId hc]
      . next hne => rw [withRevision_of_ne hne]
    . rw [hschema]
    . rw [← hschema]
      assumption
  . rw [Subtype.property (Row.ofValues t _) c hc, Subtype.property (withRevision row _) c hc]

theorem exec_copyStmt
    (hcolumns : copied.fst.columns = .revisionId :: copied.snd ∧ .revisionId ∉ copied.snd)
    (h : exec collate db (copyStmt collate source target copied) = some db')
    : db'
        =
      Function.update db copied.fst (db copied.fst ++ copies db source target copied.fst) := by
  rw [exec_insertSelect h]
  congr 2
  have hfilter : whereAll (t := copied.fst) (S := schema) collate [(.revisionId, .int source)]
      = fun row => decide (row .revisionId = .int source) := by
    funext row
    rw [Bool.eq_iff_iff]
    simp [whereAll]
  rw [hfilter]
  apply map_congr_left
  intro row _
  rw [map_cons, map_map]
  exact ofValues_columns hcolumns.left hcolumns.right

theorem foldlM_copyStmt {copied : List (TableName × List ColumnName)}
    (hcolumns : ∀ p ∈ copied, p.fst.columns = .revisionId :: p.snd ∧ .revisionId ∉ p.snd)
    (hnodup : (copied.map Prod.fst).Nodup)
    (h : (copied.map (copyStmt collate source target)).foldlM (exec collate) db = some db')
    : ∀ t, db' t = if t ∈ copied.map Prod.fst then db t ++ copies db source target t else db t := by
  induction copied generalizing db with
  | nil =>
    cases h
    intro t
    rfl
  | cons head tail ih =>
    obtain ⟨db₁, hexec, h⟩ := foldlM_cons_eq_some.mp h
    rw [forall_mem_cons] at hcolumns
    rw [map_cons, nodup_cons] at hnodup
    have hhead := exec_copyStmt hcolumns.left hexec
    intro t
    rw [ih hcolumns.right hnodup.right h t, map_cons]
    by_cases ht : t = head.fst
    . subst ht
      rw [if_neg hnodup.left, if_pos mem_cons_self, hhead, Function.update_self]
    . have hkept : db₁ t = db t := by rw [hhead, Function.update_of_ne ht]
      simp only [mem_cons, ht, false_or, copies, hkept]

theorem columns_of_copied
    : ∀ p ∈ copiedColumns, p.fst.columns = .revisionId :: p.snd ∧ .revisionId ∉ p.snd := by
  decide

theorem nodup_copied : (copiedColumns.map Prod.fst).Nodup := by
  decide

theorem mem_copied_iff
    : ∀ t ∈ TableName.all, t ∈ copiedColumns.map Prod.fst ↔ .revisionId ∈ t.columns := by
  decide

theorem copies_eq_nil (ht : .revisionId ∉ t.columns)
    : copies db source target t = [] := by
  rw [eq_nil_iff_forall_not_mem]
  intro row hrow
  obtain ⟨stored, _, hrevision, _⟩ := mem_copies.mp hrow
  exact ht (mem_columns_of_revision hrevision)

theorem run_copyRevisionRows
    (h : (Script.ofList (copyRevisionRows collate source target)).run collate db = some db')
    : ∀ t, db' t = db t ++ copies db source target t := by
  intro t
  rw [foldlM_copyStmt columns_of_copied nodup_copied h t]
  split
  . rfl
  . next ht =>
    rw [mem_copied_iff t (schema.complete t)] at ht
    rw [copies_eq_nil ht, append_nil]

end Copy

theorem selectMax_eq_some (rows : List (Row t)) (c : ColumnName) (i : Int)
    : selectMax rows c = some i
        ↔
      (∃ row ∈ rows, row c = .int i) ∧ ∀ j, (∃ row ∈ rows, row c = .int j) → j ≤ i := by
  have hmem : ∀ j, j ∈ (rows.filterMap fun row => (row c).asInt)
      ↔ ∃ row ∈ rows, row c = .int j := by
    intro j
    simp only [mem_filterMap, Value.asInt_eq_some]
  simp only [← hmem]
  exact max?_eq_some_iff

section Fork

variable (hfork : ∀ t, db' t = db t ++ copies db source target t)

include hfork

theorem sameOutside_fork
    : SameOutside (fun _ row => row .revisionId = .int target ∧ True) db db' := by
  intro t row hrow
  rw [hfork, mem_append]
  constructor
  . rintro (hmem | hmem)
    . assumption
    . obtain ⟨stored, _, hrevision, rfl⟩ := mem_copies.mp hmem
      have ht := mem_columns_of_revision hrevision
      exact absurd ⟨withRevision_revisionId ht, trivial⟩ hrow
  . exact Or.inl

theorem configuration_fork (hfresh : ∀ t, ∀ row ∈ db t, row .revisionId ≠ .int target)
    : configuration db' target = configuration db source := by
  funext t
  apply Set.ext
  intro row
  constructor
  . rintro ⟨stored, hmem, hrevision, rfl⟩
    rw [hfork, mem_append] at hmem
    rcases hmem with hmem | hmem
    . exact absurd hrevision (hfresh t stored hmem)
    . obtain ⟨original, horiginal, hsource, rfl⟩ := mem_copies.mp hmem
      exact ⟨original, horiginal, hsource, withRevision_withRevision _ _⟩
  . rintro ⟨original, horiginal, hsource, rfl⟩
    have ht := mem_columns_of_revision hsource
    refine ⟨withRevision original (.int target), ?_, withRevision_revisionId ht,
      (withRevision_withRevision _ _).symm⟩
    rw [hfork, mem_append]
    right
    exact mem_copies.mpr ⟨original, horiginal, hsource, rfl⟩

theorem nextId_fork (t : TableName) (c : ColumnName) (hc : c ≠ .revisionId)
    : nextId db' t c = nextId db t c := by
  have hmax : selectMax (db' t) c = selectMax (db t) c := by
    apply Option.ext
    intro i
    -- The copies have no other values in the column.
    have hvalues : ∀ j, (∃ row ∈ db' t, row c = .int j) ↔ ∃ row ∈ db t, row c = .int j := by
      intro j
      constructor
      . rintro ⟨row, hrow, hvalue⟩
        rw [hfork, mem_append] at hrow
        rcases hrow with hrow | hrow
        . exact ⟨row, hrow, hvalue⟩
        . obtain ⟨stored, hstored, _, rfl⟩ := mem_copies.mp hrow
          rw [withRevision_of_ne hc] at hvalue
          exact ⟨stored, hstored, hvalue⟩
      . rintro ⟨row, hrow, hvalue⟩
        refine ⟨row, ?_, hvalue⟩
        rw [hfork, mem_append]
        left
        assumption
    rw [selectMax_eq_some, selectMax_eq_some]
    simp only [hvalues]
  unfold nextId
  rw [hmax]

end Fork

section Fresh

def TableName.rank (t : TableName) : Nat := TableName.all.idxOf t

theorem foreignKey_of_revision
    : ∀ t ∈ TableName.all, .revisionId ∈ t.columns → ∃ fk ∈ t.foreignKeys,
        (∀ c ∈ fk.columns, c.fst ∈ t.columns ∧ c.fst ∉ t.nullable)
          ∧ ((fk.parent = .configurationRevisions ∧ (.revisionId, .revision) ∈ fk.columns)
            ∨ (fk.parent.rank < t.rank ∧ (.revisionId, .revisionId) ∈ fk.columns)) := by
  decide

theorem fresh_of_consistent (hdb : Consistent collate db)
    (hrevisions : ∀ row ∈ db .configurationRevisions, row .revision ≠ .int target)
    : ∀ t, ∀ row ∈ db t, row .revisionId ≠ .int target := by
  intro t
  induction hrank : t.rank using Nat.strong_induction_on generalizing t with
  | _ n ih =>
    intro row hrow hrevision
    have ht := mem_columns_of_revision hrevision
    obtain ⟨fk, hfk, hnotNull, hparent⟩ := foreignKey_of_revision t (schema.complete t) ht
    rcases satisfied_iff.mp (hdb.references t row hrow fk hfk) with
      ⟨c, hc, hnull⟩ | ⟨parent, hmem, href⟩
    . exact hdb.notNull t row hrow c.fst (hnotNull c hc).left (hnotNull c hc).right hnull
    rw [references_iff] at href
    rcases hparent with ⟨htable, hcolumn⟩ | ⟨hlt, hcolumn⟩
    . have hsame := href _ hcolumn
      rw [hrevision, Value.same_comm, Value.same_int] at hsame
      cases fk with
      | mk columns table onDelete =>
        subst htable
        exact hrevisions parent hmem hsame
    . have hsame := href _ hcolumn
      rw [hrevision, Value.same_comm, Value.same_int] at hsame
      exact ih _ (hrank ▸ hlt) fk.parent rfl parent hmem hsame

end Fresh

end Blackwire.Store
