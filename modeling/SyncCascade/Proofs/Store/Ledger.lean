import SyncCascade.Proofs.Rerun.Counting
import SyncCascade.Proofs.Store.Integrity

/-!
# The history as a ledger

No key keeps the rows of the history apart. They are, because archiving passes over the entities that
the history has under the same sync, or as completed. The entities and files of the rows are still
there, because entities are never deleted and a file with an entity is not deleted either.
-/

namespace SyncCascade

def EntityHistory.entity (h : EntityHistory) : EntityKey := ⟨h.fileId, h.entityId⟩

namespace Database

structure Ledger (db : Database) : Prop where
  distinct : db.history.Pairwise fun h h' =>
    ¬ (h.entityId = h'.entityId ∧ h.fileId = h'.fileId ∧ h.syncId = h'.syncId)
  /-- So at most one row of an entity is completed. -/
  completedLast : db.history.Pairwise fun h h' => h.entity = h'.entity → h.status ≠ .completed
  entityThere : ∀ h ∈ db.history, db.entities.contains h.entity = true
  fileThere : ∀ h ∈ db.history, ∃ f, db.files.find? h.fileId = some f ∧ h.baseSyncId = some f.syncId

variable {db db' : Database} {base rerun : SyncId} {h : EntityHistory}

theorem ledger_empty : empty.Ledger where
  distinct := .nil
  completedLast := .nil
  entityThere _ hh := by cases hh
  fileThere _ hh := by cases hh

theorem of_mem_archiveRows (hh : h ∈ db.archiveRows base rerun) :
    ∃ k e, db.entities.find? k = some e ∧ db.ownsFile base e.fileId = true ∧
      db.Unarchived rerun e ∧ h = .archive e rerun base := by
  obtain ⟨e, he, rfl⟩ := List.mem_map.1 hh
  obtain ⟨hrow, hkept⟩ := List.mem_filter.1 he
  obtain ⟨k, hk⟩ := Table.mem_rows.1 hrow
  rw [Bool.and_eq_true, Bool.not_eq_true', isArchived_eq_false_iff] at hkept
  exact ⟨k, e, hk, hkept.1, hkept.2, rfl⟩

theorem archiveRows_distinct (hdb : db.Keyed) (base rerun : SyncId) :
    (db.archiveRows base rerun).Pairwise fun h h' => h.entity ≠ h'.entity := by
  have hnodup := Table.nodup_map_rows hdb.entities
  rw [List.nodup_iff_pairwise_ne, List.pairwise_map] at hnodup
  unfold archiveRows
  rw [List.pairwise_map]
  exact hnodup.filter _

theorem archiveRows_new {h' : EntityHistory} (hh : h ∈ db.history)
    (hh' : h' ∈ db.archiveRows base rerun) (hentity : h.entity = h'.entity) :
    h.status ≠ .completed ∧ h.syncId ≠ h'.syncId := by
  obtain ⟨-, e, -, -, hunarchived, rfl⟩ := of_mem_archiveRows hh'
  obtain ⟨hfile, hid⟩ := EntityKey.mk.inj hentity
  exact hunarchived h hh ⟨hid, hfile⟩

theorem Ledger.archiveEntities (hledger : db.Ledger) (hdb : db.Keyed) (base rerun : SyncId) :
    (db.archiveEntities base rerun).2.Ledger := by
  have hdistinct := archiveRows_distinct hdb base rerun
  constructor
  case distinct =>
    refine List.pairwise_append.2 ⟨hledger.distinct, hdistinct.imp ?_, ?_⟩
    · rintro h h' hne ⟨hid, hfile, -⟩
      exact hne (congrArg₂ EntityKey.mk hfile hid)
    · rintro h hh h' hh' ⟨hid, hfile, hsync⟩
      exact (archiveRows_new hh hh' (congrArg₂ EntityKey.mk hfile hid)).2 hsync
  case completedLast =>
    refine List.pairwise_append.2 ⟨hledger.completedLast, hdistinct.imp ?_, ?_⟩
    · exact fun hne hsame => (hne hsame).elim
    · exact fun h hh h' hh' hsame => (archiveRows_new hh hh' hsame).1
  case entityThere =>
    intro h hh
    rcases List.mem_append.1 hh with hh | hh
    · exact hledger.entityThere h hh
    · obtain ⟨k, e, he, -, -, rfl⟩ := of_mem_archiveRows hh
      have hkey : (EntityHistory.archive e rerun base).entity = k := hdb.entities he
      rw [hkey]
      exact Table.contains_eq_true.2 ⟨e, he⟩
  case fileThere =>
    intro h hh
    rcases List.mem_append.1 hh with hh | hh
    · exact hledger.fileThere h hh
    · obtain ⟨k, e, -, howns, -, rfl⟩ := of_mem_archiveRows hh
      obtain ⟨f, hf, hsync⟩ := ownsFile_iff.1 howns
      exact ⟨f, hf, congrArg some hsync.symm⟩

/-- The history is only added to, at its end. -/
def Extends (db db' : Database) : Prop := db.history <+: db'.history

theorem Extends.refl (db : Database) : db.Extends db := List.prefix_refl _

theorem Extends.trans {db'' : Database} (h : db.Extends db') (h' : db'.Extends db'') :
    db.Extends db'' :=
  List.IsPrefix.trans h h'

theorem Evolves.extends (hstep : db.Evolves db') : db.Extends db' := by
  rcases hstep.history with hsame | ⟨base, rerun, rfl⟩
  · exact ⟨[], (List.append_nil _).trans hsame.symm⟩
  · exact List.prefix_append _ _

theorem Ledger.evolves (hledger : db.Ledger) (hdb : db.Integral) (hstep : db.Evolves db')
    (hhistory : db'.history = db.history) : db'.Ledger := by
  constructor
  case distinct =>
    rw [hhistory]
    exact hledger.distinct
  case completedLast =>
    rw [hhistory]
    exact hledger.completedLast
  case entityThere =>
    rw [hhistory]
    intro h hh
    obtain ⟨e, he⟩ := Table.contains_eq_true.1 (hledger.entityThere h hh)
    obtain ⟨e', he', -⟩ := hstep.entities.kept he
    exact Table.contains_eq_true.2 ⟨e', he'⟩
  case fileThere =>
    rw [hhistory]
    intro h hh
    obtain ⟨e, he⟩ := Table.contains_eq_true.1 (hledger.entityThere h hh)
    obtain ⟨f, hf, hbase⟩ := hledger.fileThere h hh
    obtain ⟨g, f', hg, hf', hsame⟩ := hdb.file_stays hstep he
    have hfile : e.fileId = h.fileId := congrArg EntityKey.file (hdb.keyed.entities he)
    rw [hfile] at hg hf'
    cases hg.symm.trans hf
    exact ⟨f', hf', hbase.trans (congrArg some hsame.2.symm)⟩

/-- The ledger needs the entities and files to be as they should, so both are kept together. -/
theorem preserved_ledger : Preserved fun db => db.Integral ∧ db.Ledger := by
  rintro now db c reply db' ⟨hdb, hledger⟩ hok
  have hstep := apply_evolves hdb.keyed hok
  refine ⟨hdb.evolves hstep, ?_⟩
  rcases hstep.history with hsame | ⟨base, rerun, rfl⟩
  · exact hledger.evolves hdb hstep hsame
  · exact hledger.archiveEntities hdb.keyed base rerun

end Database

open Database in
/-- In every state of a run from the empty database the history is a ledger, both as committed and as
the unit of work in progress sees it, and what is committed of it begins with what was committed in any
earlier state. The trace in which this is read changes nothing and ends with the state that the run
leaves. -/
theorem history_is_ledger {β : Type} (broker : Broker β) (transaction : TransactionConfig)
    (queue : QueueConfig) (w : World Session β) (activities : List Activity) :
    let run := plainRun broker transaction queue (w.withStore (.ofDatabase .empty)) activities
    let traced := tracedRun broker transaction queue
      (w.withStore (.fresh (.ofDatabase .empty))) activities
    let states := Session.ofDatabase .empty :: traced.2.store.states
    run = (traced.1, traced.2.withStore traced.2.store.state) ∧
      states.getLast? = some run.2.store ∧
      (∀ s ∈ states, s.committed.Ledger ∧ s.visible.Ledger) ∧
      states.Pairwise fun s s' => s.committed.history <+: s'.committed.history := by
  intro run traced states
  have hrun : run = (traced.1, traced.2.withStore traced.2.store.state) :=
    tracedRun_fresh broker transaction queue w (.ofDatabase .empty) activities
  have hmoves := tracedRun_moves broker transaction queue ⟨integral_empty, ledger_empty⟩
    preserved_ledger Extends.refl (fun h hok => (apply_evolves h.1.keyed hok).extends) w activities
  refine ⟨hrun, ?_, fun s hs => ?_, ?_⟩
  · rw [hrun]
    exact hmoves.last
  · have hkeeps := hmoves.holds s hs
    exact ⟨hkeeps.committed.2, hkeeps.visible.2⟩
  · exact Session.pairwise_committed Extends.refl Extends.trans (Extends.refl _) hmoves.chain

end SyncCascade
