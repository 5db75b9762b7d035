import SyncCascade.Broker.Rehearsal
import SyncCascade.Proofs.Engine
import SyncCascade.Proofs.Reachable
import SyncCascade.Proofs.Store.Completion

/-!
# No premature completion

Whatever a run from the empty database has come to, no operation on it completes a sync or a file that
is not ready by the counts it finds, be it a call, an operation of the closure engine or a rerun. The
rerun trims its base before it tries to close it, so its base is ready as it is trimmed.
-/

namespace SyncCascade

namespace Database

variable {db db' : Database} {now : Timestamp} {base : SyncId} {request : RerunRequest}
  {outcome : RerunOutcome}

theorem not_readySync_trimmed {id : SyncId} {s : SyncRun} (hs : db.syncs.find? id = some s)
    (htotal : s.totalFiles = none) (base : SyncId) : ¬ (db.trimmed base).ReadySync id := by
  have hnone : totalWithout (db.bareCount base) s.totalFiles = none := by
    rw [htotal]
    unfold totalWithout
    split <;> rfl
  by_cases hid : id = base
  · subst hid
    exact not_readySync_of_undeclared (find?_trimmed hs) hnone
  · refine not_readySync_of_undeclared (s := s) ?_ htotal
    unfold trimmed
    rw [Table.find?_modify, if_neg hid, hs]

theorem readySync_trimmed {row : SyncRun} (hfiles : db.files.size < Word.limit 31)
    (hadmits : db.Admits base request.id row) (hexhausted : db.Exhausted base row) :
    (db.trimmed base).ReadySync base := by
  obtain ⟨-, hfailed, -⟩ := Rerun.obstacle_eq_none_iff.1 hadmits.clear
  refine readySync_of_syncCloses ?_ (find?_trimmed hadmits.row_eq) ?_
  · exact Nat.lt_of_le_of_lt (Table.size_filter_le ..) hfiles
  · unfold syncCloses
    rw [completedFiles_trimmed, hfailed, Bool.and_eq_true, beq_iff_eq]
    exact ⟨rfl, hexhausted⟩

theorem eq_of_syncCompletes_trimmed {id : SyncId}
    (h : db.SyncCompletes ((db.trimmed base).withCompleted now base) id) : id = base := by
  obtain ⟨s, s', hs, hopen, hs', hdone⟩ := h
  by_cases hne : id = base
  · exact hne
  · unfold trimmed at hs'
    rw [find?_withCompleted, if_neg hne, Table.find?_modify, if_neg hne, hs] at hs'
    cases hs'
    exact absurd hdone hopen

theorem withRerun_completesSyncs {tried : Option SyncId} {m : Database} {rerun : SyncRun}
    (hfree : db.syncs.contains rerun.id = false) :
    CompletesSyncs tried m db (db.withRerun base rerun) := by
  refine .of_status fun {id s s'} hs hs' => ?_
  rw [find?_withRerun, if_neg (Table.ne_of_free hfree hs), hs] at hs'
  split at hs' <;> cases hs' <;> rfl

theorem withRerun_completesFiles (hkeyed : db.Keyed) (base : SyncId) (rerun : SyncRun) :
    CompletesFiles db (db.withRerun base rerun) := by
  refine .of_step fun {id f} hf => ?_
  have hf' := db.find?_files_withRerun base rerun id
  rw [hf] at hf'
  by_cases hbare : db.bare base f = true
  · rw [Option.filter_some, if_neg (by simp [hbare])] at hf'
    exact .deleted hf' (entityCount_of_bare hkeyed hf hbare)
  · rw [Option.filter_some, if_pos (by simpa using hbare), Option.map_some] at hf'
    split at hf'
    next hreopens =>
      rw [hkeyed.files hf] at hreopens
      exact .reopened hf' rfl hreopens.2.2
    next => exact .kept hf' rfl

theorem attempted_completes (hkeyed : db.Keyed) (hfiles : db.files.size < Word.limit 31)
    (h : Attempted now db base request outcome db') :
    Completes (some base) (db.trimmed base) db db' := by
  cases h with
  | notCreated hadmits hbare hexhausted =>
    refine ⟨.of_ready (not_readySync_trimmed · · base) fun _ hcompletes => ?_,
      deleteEmpty_completesFiles hkeyed base rfl⟩
    exact ⟨base, rfl, readySync_trimmed hfiles hadmits hexhausted,
      .inl (eq_of_syncCompletes_trimmed hcompletes)⟩
  | created hadmits =>
    rw [withRow_trimmed hkeyed]
    exact ⟨withRerun_completesSyncs hadmits.free, withRerun_completesFiles hkeyed base _⟩

end Database

/-- What may be done to a database. -/
inductive Operation where
  | call (c : StoreCall)
  | closeChangesets (ids : List ChangesetId) (correlationId : String)
  | closeFile (id : FileId) (correlationId : String)
  | closeSync (id : SyncId) (correlationId : String)
  | createRerun (base : SyncId) (request : RerunRequest)

namespace Operation

def activity : Operation → Activity
  | call c => .call c
  | closeChangesets ids correlationId => .closeChangesets ids correlationId
  | closeFile id correlationId => .closeFile id correlationId
  | closeSync id correlationId => .closeSync id correlationId
  | createRerun base request => .createRerun base request

/-- The sync that the operation tries to close, if it gets so far. -/
def tried : Operation → Option SyncId
  | call c => c.tried
  | closeSync id _ => some id
  | createRerun base _ => some base
  | _ => none

/-- The database when the sync is tried, if that is `db` before the operation. -/
def moment (db : Database) : Operation → Database
  | createRerun base _ => db.trimmed base
  | _ => db

/-- What the operation works on: a call on what the unit of work in progress sees, and every other
operation, which has its own transaction, on what is committed. -/
def view (s : Session) : Operation → Database
  | call _ => s.visible
  | _ => s.committed

end Operation

theorem Session.Keeps.view {P : Database → Prop} {s : Session} (h : s.Keeps P) (op : Operation) :
    P (op.view s) := by
  cases op with
  | call => exact h.visible
  | closeChangesets | closeFile | closeSync | createRerun => exact h.committed

section Run

open SyncCascade.Action SyncCascade.Session

variable {β : Type} {w : World Session β}

theorem Action.Ensures.store {α : Type} {a : Action Session β α} {P : Session → Prop}
    (h : a.Ensures w (fun _ w' => P w'.store) fun _ w' => P w'.store) : P (a.run w).2.store :=
  Ensures.outcome (P := fun _ w' => P w'.store) h

theorem Action.Ensures.committed {α : Type} {a : Action Session β α} {P : Database → Prop}
    (h : a.Ensures w (fun _ w' => ∃ db', P db' ∧ Has db' w'.store)
      fun _ w' => ∃ db', P db' ∧ Has db' w'.store) : P (a.run w).2.store.committed := by
  obtain ⟨db', hdb', rfl⟩ := Ensures.store (P := fun s => ∃ db', P db' ∧ Has db' s) h
  exact hdb'

variable (broker : Broker β) (transaction : TransactionConfig) (queue : QueueConfig)

theorem query_completes (c : StoreCall) (hsyncs : w.store.visible.SyncsKeyed)
    (hkeyed : w.store.visible.Keyed) (hfiles : w.store.visible.files.size < Word.limit 31)
    (hentities : w.store.visible.entities.size < Word.limit 31) :
    ((plainEngine broker transaction queue).query c).Ensures w
      (fun _ w' => Database.Completes c.tried w.store.visible w.store.visible w'.store.visible)
      fun _ w' => Database.Completes c.tried w.store.visible w.store.visible w'.store.visible := by
  have hw : World.Standing (Views w.store.committed w.store.visible w.store.failingCommits) w.broker
      w.clock w := ⟨⟨rfl, rfl, rfl⟩, rfl, rfl⟩
  cases happly : w.store.visible.apply w.clock.wall c with
  | error e =>
    refine (query_refused hw happly).mono (fun _ _ h => h.elim) ?_
    rintro _ w' ⟨-, h⟩
    rw [h.1.2.1]
    exact .refl ..
  | ok out =>
    refine (query_views hw happly).mono ?_ fun _ _ h => h.elim
    rintro _ w' ⟨-, h⟩
    rw [h.1.2.1]
    exact Database.apply_completes hsyncs hkeyed hfiles hentities happly

/-- No operation completes what is not ready, in a state whose rows stand under their keys. -/
theorem perform_completes (op : Operation) (hsyncs : (op.view w.store).SyncsKeyed)
    (hkeyed : (op.view w.store).Keyed) (hfiles : (op.view w.store).files.size < Word.limit 31)
    (hentities : (op.view w.store).entities.size < Word.limit 31) :
    Database.Completes op.tried (op.moment (op.view w.store)) (op.view w.store)
      (op.view (((plainEngine broker transaction queue).perform Session.failNext
        op.activity).run w).2.store) := by
  have hw : World.Standing (Awaits w.store.committed w.store.failingCommits) w.broker w.clock w :=
    ⟨⟨rfl, rfl⟩, rfl, rfl⟩
  have happly : ∀ {c : StoreCall} {reply : c.Reply} {db' : Database},
      (op.view w.store).apply w.clock.wall c = .ok (reply, db') →
        Database.Completes c.tried (op.view w.store) (op.view w.store) db' :=
    Database.apply_completes hsyncs hkeyed hfiles hentities
  cases op with
  | call c =>
    refine Ensures.store (P := fun s => Database.Completes _ _ _ s.visible) ?_
    unfold Operation.activity Engine.perform
    rw [ensures_bind, ensures_discard]
    exact query_completes broker transaction queue c hsyncs hkeyed hfiles hentities
  | closeChangesets ids correlationId =>
    have hstep := happly (c := .markCompleted ids) rfl
    refine Ensures.committed ?_
    unfold Operation.activity Engine.perform
    rw [ensures_bind, ensures_discard]
    refine (Engine.closeChangesets_ensures ids correlationId hw).mono ?_ ?_
    · exact fun _ w' h => ⟨_, hstep, h.1⟩
    · rintro _ w' (h | ⟨-, h⟩)
      · exact ⟨_, hstep, h.1⟩
      · exact ⟨_, .refl .., h.1⟩
  | closeFile id correlationId =>
    have hstep := happly (c := .tryCloseFile id) rfl
    refine Ensures.committed ?_
    unfold Operation.activity Engine.perform
    rw [ensures_bind, ensures_discard]
    refine (Engine.closeFile_ensures id correlationId hw).mono ?_ ?_
    · exact fun _ w' h => ⟨_, hstep, h.1⟩
    · rintro _ w' (h | ⟨-, h⟩)
      · exact ⟨_, hstep, h.1⟩
      · exact ⟨_, .refl .., h.1⟩
  | closeSync id correlationId =>
    have hstep := happly (c := .tryCloseSync id) rfl
    refine Ensures.committed ?_
    unfold Operation.activity Engine.perform
    rw [ensures_bind]
    refine (Engine.closeSync_ensures id correlationId hw).mono ?_ ?_
    · exact fun _ w' h => ⟨_, hstep, h.2.1⟩
    · exact fun _ w' h => ⟨_, .refl .., h.2.1⟩
  | createRerun base request =>
    refine Ensures.committed ?_
    unfold Operation.activity Engine.perform
    rw [ensures_bind]
    refine (Rerun.create_ensures transaction hw).mono ?_ ?_
    · rintro outcome w' ⟨db', hattempted, h⟩
      exact ⟨db', Database.attempted_completes hkeyed hfiles hattempted, h.1⟩
    · exact fun _ w' h => ⟨_, .refl .., h.2.1⟩

/-- In every state that a run from the empty database reaches, an operation completes ready syncs and
files only, and a completed file ends to be so only by being opened again for an entity that was not
synced, or by being deleted for having none. -/
theorem run_completes (w : World Session β) (activities : List Activity) (op : Operation) :
    let w₁ := (plainRun broker transaction queue (w.withStore (.ofDatabase .empty)) activities).2
    let w₂ := (((plainEngine broker transaction queue).perform Session.failNext op.activity).run w₁).2
    let db := op.view w₁.store
    db.files.size < Word.limit 31 → db.entities.size < Word.limit 31 →
      Database.Completes op.tried (op.moment db) db (op.view w₂.store) := by
  intro w₁ w₂ db hfiles hentities
  have hsyncs := plainRun_keeps broker transaction queue Database.syncsKeyed_empty
    Database.preserved_syncsKeyed w activities
  have hkeyed := plainRun_keeps broker transaction queue Database.keyed_empty
    Database.preserved_keyed w activities
  refine perform_completes broker transaction queue op ?_ ?_ hfiles hentities
  · exact hsyncs.view op
  · exact hkeyed.view op

open Rerun.Sample in
/-- The small sync declares two files, so one without the empty one, and that one is completed. Asked
for a rerun it closes. -/
theorem run_completes_sample :
    let w : World Session BrokerRehearsal := .initial (.ofDatabase .empty) ⟨[], [], []⟩
    let activities := (calls 2).map (fun c => .call c.2) ++ [.commit]
    let op := Operation.createRerun base request
    let w₁ := (plainRun BrokerRehearsal.broker .default .default w activities).2
    let db := w₁.store.committed
    let db' := (((plainEngine BrokerRehearsal.broker .default .default).perform Session.failNext
      op.activity).run w₁).2.store.committed
    db.SyncCompletes db' base ∧ Database.Completes (some base) (db.trimmed base) db db' := by
  intro w activities op w₁ db db'
  refine ⟨⟨baseRow 2, { baseRow 1 with status := .completed, endDate := some ⟨0, 0⟩ }, ?_⟩, ?_⟩
  · decide +kernel
  · exact run_completes BrokerRehearsal.broker .default .default w activities op (by decide +kernel)
      (by decide +kernel)

end Run

end SyncCascade
