import SyncCascade.Proofs.Rerun.Reopening
import SyncCascade.Proofs.Store.Ledger

/-!
# What a rerun overwrites

A rerun takes the status, the changeset and the failure reason from the entities that it is handed. What
an entity was before is in the history then, under the rerun, unless the history already had the entity
as completed or under that rerun: of such an entity no row is added.
-/

namespace SyncCascade

/-- The entity `e` is overwritten by `e'`. -/
def Entity.Loses (e e' : Entity) : Prop :=
  e'.status ≠ e.status ∨ e'.changesetId ≠ e.changesetId ∨ e'.failReason ≠ e.failReason

/-- The row keeps the entity as it is. -/
structure EntityHistory.Keeps (h : EntityHistory) (e : Entity) : Prop where
  entity : h.entity = e.key
  status : h.status = e.status
  changesetId : h.changesetId = e.changesetId
  action : h.action = e.action
  failReason : h.failReason = e.failReason

namespace Database

variable {db db' : Database} {base : SyncId} {rerun : SyncRun} {k : EntityKey} {e e' : Entity}

theorem mem_history_withRerun {h : EntityHistory} :
    h ∈ (db.withRerun base rerun).history ↔ h ∈ db.history ∨
      ∃ k e, db.entities.find? k = some e ∧ db.ownsFile base e.fileId = true ∧
        db.Unarchived rerun.id e ∧ h = .archive e rerun.id base := by
  unfold withRerun
  rw [List.mem_append]
  refine or_congr_right ?_
  constructor
  · intro hh
    obtain ⟨e, he, rfl⟩ := List.mem_map.1 hh
    obtain ⟨hrow, hkept⟩ := List.mem_filter.1 he
    obtain ⟨k, hk⟩ := Table.mem_rows.1 hrow
    obtain ⟨howns, hunarchived⟩ := of_decide_eq_true hkept
    exact ⟨k, e, hk, howns, hunarchived, rfl⟩
  · rintro ⟨k, e, hk, howns, hunarchived, rfl⟩
    refine List.mem_map.2 ⟨e, List.mem_filter.2 ⟨Table.mem_rows.2 ⟨k, hk⟩, ?_⟩, rfl⟩
    exact decide_eq_true ⟨howns, hunarchived⟩

theorem archive_keeps (e : Entity) (rerun base : SyncId) :
    (EntityHistory.archive e rerun base).Keeps e :=
  ⟨rfl, rfl, rfl, rfl, rfl⟩

/-- What becomes of the entity `e` when a rerun is made: it stays, and if it is overwritten, it is in the
history just if it was not archived before. -/
structure Archives (db db' : Database) (rerun : SyncId) (k : EntityKey) (e e' : Entity) : Prop where
  there : db'.entities.find? k = some e'
  action : e'.action = e.action
  recorded : e.Loses e' → db.Unarchived rerun e → ∃ h ∈ db'.history, h.syncId = rerun ∧ h.Keeps e
  /-- The history gets no row of an entity that was archived before. -/
  passedOver : ¬ db.Unarchived rerun e → ∀ h ∈ db'.history, h.entity = k → h ∈ db.history

theorem entity_withRerun (he : db.entities.find? k = some e) :
    ∃ e', (db.withRerun base rerun).entities.find? k = some e' ∧ e'.action = e.action ∧
      (e.Loses e' → db.ownsFile base e.fileId = true) := by
  have hfound := find?_entities_withRerun db base rerun k
  rw [he, Option.map_some] at hfound
  refine ⟨_, hfound, ?_⟩
  split
  next hhanded => exact ⟨rfl, fun _ => hhanded.1⟩
  next =>
    refine ⟨rfl, ?_⟩
    rintro (h | h | h) <;> exact absurd rfl h

theorem withRerun_archives (hkeyed : db.Keyed) (he : db.entities.find? k = some e) :
    ∃ e', db.Archives (db.withRerun base rerun) rerun.id k e e' := by
  obtain ⟨e', he', haction, howns⟩ := entity_withRerun he
  refine ⟨e', he', haction, ?_, ?_⟩
  case refine_1 =>
    intro hloses hunarchived
    exact ⟨_, mem_history_withRerun.2 (.inr ⟨k, e, he, howns hloses, hunarchived, rfl⟩), rfl,
      archive_keeps ..⟩
  case refine_2 =>
    intro harchived h hh hentity
    rcases mem_history_withRerun.1 hh with hold | ⟨k', e₁, he₁, -, hunarchived, rfl⟩
    · exact hold
    · have hkey : k' = k := (hkeyed.entities he₁).symm.trans hentity
      subst hkey
      cases he.symm.trans he₁
      exact absurd hunarchived harchived

end Database

namespace Rerun

open SyncCascade.Session

/-- When a rerun is made in a state that a run from the empty database reaches, this becomes of every
entity. -/
theorem create_archives {β : Type} (broker : Broker β) (transaction : TransactionConfig)
    (queue : QueueConfig) (w : World Session β) (activities : List Activity)
    (config : TransactionConfig) (base : SyncId) (request : RerunRequest) {sync : SyncRun}
    {w₂ : World Session β} :
    let w₁ := (plainRun broker transaction queue (w.withStore (.ofDatabase .empty)) activities).2
    (create storage config base request).run w₁ = (.ok (.created sync), w₂) →
      ∀ k e, w₁.store.committed.entities.find? k = some e →
        ∃ e', w₁.store.committed.Archives w₂.store.committed sync.id k e e' := by
  intro w₁ hrun k e he
  have hkeyed := (plainRun_keeps broker transaction queue Database.keyed_empty
    Database.preserved_keyed w activities).committed
  rw [committed_of_created config base request hkeyed hrun]
  exact Database.withRerun_archives hkeyed he

open Sample in
/-- What the entity that was not synced was is in the history under the rerun. -/
theorem create_archives_sample :
    let db := (made (calls 3)).store.committed
    let db' := ((create storage .default base request).run (made (calls 3))).2.store.committed
    let e : Entity := ⟨⟨"b"⟩, filled, none, .notSynced, .create, some "gone"⟩
    let e' : Entity := ⟨⟨"b"⟩, filled, none, .inRerun, .create, none⟩
    db.Archives db' request.id ⟨filled, ⟨"b"⟩⟩ e e' ∧
      ∃ h ∈ db'.history, h.syncId = request.id ∧ h.Keeps e := by
  intro db db' e e'
  have he : db.entities.find? ⟨filled, ⟨"b"⟩⟩ = some e := by decide +kernel
  obtain ⟨e₁, harchives⟩ := create_archives BrokerRehearsal.broker .default .default fresh
    (making (calls 3)) .default base request create_made _ e he
  have he' : db'.entities.find? ⟨filled, ⟨"b"⟩⟩ = some e' := by decide +kernel
  cases he'.symm.trans harchives.there
  exact ⟨harchives, harchives.recorded (.inl nofun) (by decide +kernel)⟩

namespace Sample

def firstRequest : RerunRequest := ⟨⟨⟨6⟩⟩, ⟨30, 0⟩, none⟩

/-- Of two entities one was completed when the first rerun was made, and the other one was archived
under the second rerun before that was made. Then both fail. -/
def archivedActivities : List Activity :=
  [.call (.insertSync (baseRow 0)),
    .call (.insertFile ⟨filled, base, .inProgress, some 2, ⟨0, 0⟩, none⟩),
    .call (.insertEntities [⟨⟨"a"⟩, filled, none, .completed, .create, none⟩,
      ⟨⟨"b"⟩, filled, none, .inProgress, .create, none⟩]), .commit,
    .createRerun base firstRequest, .closeSync firstRequest.id "close",
    .call (.archiveEntities base request.id),
    .call (.patchEntity ⟨"a"⟩ filled ⟨some .failed, none, none, some "lost"⟩),
    .call (.patchEntity ⟨"b"⟩ filled ⟨some .failed, none, none, some "lost"⟩), .commit]

end Sample

open Sample in
/-- The rerun leaves no trace of the failures: of the first entity the history has that it was completed
once, and of the second one, under the rerun, what it was when it was archived too early. -/
theorem failures_not_archived :
    let w := (plainRun BrokerRehearsal.broker .default .default (fresh.withStore (.ofDatabase .empty))
      archivedActivities).2
    let created := (create storage .default base request).run w
    let db := w.store.committed
    let db' := created.2.store.committed
    created.1 = .ok (.created { secondRow with totalFiles := some 0 }) ∧
      db.entities.rows = [⟨⟨"a"⟩, filled, none, .failed, .create, some "lost"⟩,
        ⟨⟨"b"⟩, filled, none, .failed, .create, some "lost"⟩] ∧
      db'.entities.rows = [⟨⟨"a"⟩, filled, none, .inRerun, .create, none⟩,
        ⟨⟨"b"⟩, filled, none, .inRerun, .create, none⟩] ∧
      db'.historyOf request.id =
        [.archive ⟨⟨"b"⟩, filled, none, .inRerun, .create, none⟩ request.id base] := by
  decide +kernel

end Rerun

end SyncCascade
