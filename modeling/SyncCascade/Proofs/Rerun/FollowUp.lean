import SyncCascade.Proofs.Engine

/-!
# What follows a rerun

After a rerun was made, entities are patched and the closure engine works, in any order and at any
times. Once a transaction has been committed, no later one fails for want of attempts. So what a step
does to the committed database and which syncs it tells to be closed is a matter of the database
alone, whatever the broker answers.
-/

namespace SyncCascade

/-- What may be done after a rerun was made. An entity is patched in a transaction of its own. -/
inductive FollowUp where
  | patchEntity (id : EntityId) (file : FileId) (patch : EntityPatch)
  | closeChangesets (ids : List ChangesetId) (correlationId : String)
  | closeFile (id : FileId) (correlationId : String)
  | closeSync (id : SyncId) (correlationId : String)

namespace Engine

variable {σ β : Type} (E : Engine σ β)

/-- Does what the step says and gives the syncs that its result tells to be closed. -/
def pursue : FollowUp → Action σ β (List SyncId)
  | .patchEntity id file patch => do
    discard <| E.transact "patch_entity" id.text (E.query (.patchEntity id file patch))
    pure []
  | .closeChangesets ids correlationId => do
    discard <| E.closeChangesets ids correlationId
    pure []
  | .closeFile id correlationId => do
    discard <| E.closeFile id correlationId
    pure []
  | .closeSync id correlationId => do
    return (← E.closeSync id correlationId).closed

/-- Steps at their times: what each tells, and the world after all. A step that fails tells nothing and
stops no other. -/
def pursueAll (w : World σ β) : List (Clock × FollowUp) → List (List SyncId) × World σ β
  | [] => ([], w)
  | (clock, step) :: rest =>
    let (result, w) := (E.pursue step).run { w with clock := clock }
    let (closings, w) := pursueAll w rest
    (told result :: closings, w)

variable {E} {τ : Type} {Q : σ → τ → Prop} {T : Storage τ}

theorem pursue_mirrors (hS : Storage.Mirrors Q E.storage T) (step : FollowUp) :
    Action.Mirrors Q (E.pursue step) (({ E with storage := T }).pursue step) := by
  cases step with
  | patchEntity id file patch =>
    exact .bind (.bind (Transaction.run_mirrors hS (query_mirrors hS _) _ _) fun _ => .pure _)
      fun _ => .pure _
  | closeChangesets ids correlationId =>
    exact .bind (.bind (closeChangesets_mirrors hS ids correlationId) fun _ => .pure _)
      fun _ => .pure _
  | closeFile id correlationId =>
    exact .bind (.bind (closeFile_mirrors hS id correlationId) fun _ => .pure _) fun _ => .pure _
  | closeSync id correlationId =>
    exact .bind (closeSync_mirrors hS id correlationId) fun _ => .pure _

end Engine

namespace Database

/-- What the step tells to be closed and the database after it, where its transaction is committed. -/
def pursue (now : Timestamp) (db : Database) : FollowUp → List SyncId × Database
  | .patchEntity id file patch => ([], (db.patchEntity id file patch).toOption.getD db)
  | .closeChangesets ids _ => ([], (db.markCompleted ids).2)
  | .closeFile id _ => ([], (db.tryCloseFile now id).2)
  | .closeSync id _ => db.tryCloseSync now id

theorem pursue_patched {now : Timestamp} {db db' : Database} {id : EntityId} {file : FileId}
    {patch : EntityPatch} (h : db.patchEntity id file patch = .ok db') :
    db.pursue now (.patchEntity id file patch) = ([], db') := by
  simp only [pursue, h, Except.toOption, Option.getD_some]

theorem pursue_unpatched {now : Timestamp} {db : Database} {id : EntityId} {file : FileId}
    {patch : EntityPatch} {e : Failure} (h : db.patchEntity id file patch = .error e) :
    db.pursue now (.patchEntity id file patch) = ([], db) := by
  simp only [pursue, h, Except.toOption, Option.getD_none]

def pursueAll (db : Database) : List (Clock × FollowUp) → List (List SyncId) × Database
  | [] => ([], db)
  | (clock, step) :: rest =>
    let (closed, db) := db.pursue clock.wall step
    let (closings, db) := pursueAll db rest
    (closed :: closings, db)

theorem pursueAll_cons (db : Database) (clock : Clock) (step : FollowUp)
    (rest : List (Clock × FollowUp)) :
    db.pursueAll ((clock, step) :: rest) =
      ((db.pursue clock.wall step).1 :: ((db.pursue clock.wall step).2.pursueAll rest).1,
        ((db.pursue clock.wall step).2.pursueAll rest).2) := rfl

theorem pursueAll_append (db : Database) (steps steps' : List (Clock × FollowUp)) :
    db.pursueAll (steps ++ steps') =
      ((db.pursueAll steps).1 ++ ((db.pursueAll steps).2.pursueAll steps').1,
        ((db.pursueAll steps).2.pursueAll steps').2) := by
  induction steps generalizing db with
  | nil => rfl
  | cons step rest ih =>
    obtain ⟨clock, step⟩ := step
    rw [List.cons_append, pursueAll_cons, pursueAll_cons, ih]
    rfl

end Database

namespace Session

open SyncCascade.Action

variable {β α : Type} {w : World Session β}

def Reliable (s : Session) : Prop := s.failingCommits = 0

theorem reliable_mirrors : Storage.Mirrors (fun s t => s = t ∧ s.Reliable) storage storage := by
  refine Storage.mirrors_of_invariant (fun _ _ _ h => h) ?_ ?_ fun _ h => h
  · intro clock c s h
    simp only [storage, Session.call]
    split
    · exact h
    · exact h
  · intro clock s h
    have hcommit : s.commit = (.ok (), ⟨s.visible, none, 0⟩) := by
      unfold Session.commit
      rw [show s.failingCommits = 0 from h]
    simp only [storage, hcommit]
    rfl

theorem run_reliable (config : TransactionConfig) (context : WorkContext)
    (work : Action Session β α) (w : World Session β) :
    (Transaction.run storage config context work).Ensures w (fun _ w' => w'.store.Reliable)
      fun _ _ => True := by
  refine Transaction.run_ensures (P := fun _ => True) (fun _ _ _ h => h) config context
    (fun w _ => ?_) trivial
  refine Transaction.once_ensures (Ensures.of_forall (fun _ w => ?_) fun _ _ => trivial)
  refine Ensures.of_forall (fun _ w => ?_) fun _ _ => trivial
  unfold Transaction.commit
  rw [ensures_onStore]
  simp only [storage, Session.commit]
  cases w.store.failingCommits with
  | zero => rfl
  | succ n => trivial

end Session

namespace Engine

open SyncCascade.Action SyncCascade.Session

variable {β : Type} (broker : Broker β) (transaction : TransactionConfig) (queue : QueueConfig)
  {w : World Session β} {db : Database}

theorem pursue_ensures (hallowed : 0 < transaction.retry.attempts) (hdb : w.store.committed = db)
    (hreliable : w.store.Reliable) (step : FollowUp) :
    ((plainEngine broker transaction queue).pursue step).Ensures w
      (fun closed w' => closed = (db.pursue w.clock.wall step).1 ∧
        w'.store.committed = (db.pursue w.clock.wall step).2)
      fun _ w' => [] = (db.pursue w.clock.wall step).1 ∧
        w'.store.committed = (db.pursue w.clock.wall step).2 := by
  have hw : World.Standing (Awaits db 0) w.broker w.clock w := ⟨⟨hdb, hreliable⟩, rfl, rfl⟩
  have hattempts : ¬ transaction.retry.attempts ≤ 0 := Nat.not_le_of_gt hallowed
  cases step with
  | patchEntity id file patch =>
    unfold pursue
    rw [ensures_bind, ensures_discard]
    cases hpatch : db.patchEntity id file patch with
    | ok db' =>
      have happly : db.apply w.clock.wall (.patchEntity id file patch) = .ok ((), db') := by
        simp only [Database.apply, hpatch, Except.map]
      rw [Database.pursue_patched hpatch]
      refine (transact_query happly _ _ hw).mono ?_ fun _ _ h => absurd h.1 hattempts
      exact fun _ w' h => ⟨rfl, h.2.1⟩
    | error e =>
      have happly : db.apply w.clock.wall (.patchEntity id file patch) = .error e := by
        simp only [Database.apply, hpatch, Except.map]
      rw [Database.pursue_unpatched hpatch]
      refine (Session.run_ensures (Q := fun _ _ => False) (fun w hw => ?_) transaction _
        (standing_has hw)).mono (fun _ _ h => h.choose_spec.1.elim) fun _ _ h => ⟨rfl, h.1⟩
      refine (query_refused (standing_views hw) happly).mono (fun _ _ h => h.elim) ?_
      exact fun _ w' h => ⟨h.2.1.1, h.2.2⟩
  | closeChangesets ids correlationId =>
    unfold pursue
    rw [ensures_bind, ensures_discard]
    refine (closeChangesets_ensures ids correlationId hw).mono (fun _ _ h => ⟨rfl, h.1⟩) ?_
    exact fun _ _ h => h.elim (fun h => ⟨rfl, h.1⟩) fun h => absurd h.1 hattempts
  | closeFile id correlationId =>
    unfold pursue
    rw [ensures_bind, ensures_discard]
    refine (closeFile_ensures id correlationId hw).mono (fun _ _ h => ⟨rfl, h.1⟩) ?_
    exact fun _ _ h => h.elim (fun h => ⟨rfl, h.1⟩) fun h => absurd h.1 hattempts
  | closeSync id correlationId =>
    unfold pursue
    rw [ensures_bind]
    refine (closeSync_ensures id correlationId hw).mono ?_ fun _ _ h => absurd h.1 hattempts
    exact fun _ _ h => ⟨h.1, h.2.1⟩

theorem pursueAll_eq (hallowed : 0 < transaction.retry.attempts) (hdb : w.store.committed = db)
    (hreliable : w.store.Reliable)
    (steps : List (Clock × FollowUp)) :
    ((plainEngine broker transaction queue).pursueAll w steps).1 = (db.pursueAll steps).1 ∧
      ((plainEngine broker transaction queue).pursueAll w steps).2.store.committed =
        (db.pursueAll steps).2 := by
  induction steps generalizing w db with
  | nil => exact ⟨rfl, hdb⟩
  | cons step rest ih =>
    obtain ⟨clock, step⟩ := step
    have hstep := pursue_ensures broker transaction queue (w := { w with clock := clock }) hallowed hdb
      hreliable step
    have hkept := (pursue_mirrors (E := plainEngine broker transaction queue) reliable_mirrors
      step).invariant (w := { w with clock := clock }) hreliable
    rw [Database.pursueAll_cons]
    unfold pursueAll
    unfold Ensures at hstep
    generalize ((plainEngine broker transaction queue).pursue step).run { w with clock := clock } =
      out at hstep hkept
    obtain ⟨result, w'⟩ := out
    dsimp only at hkept ⊢
    cases result with
    | ok closed =>
      obtain ⟨hclosed, hdb'⟩ := hstep
      obtain ⟨hclosings, hlast⟩ := ih hdb' hkept
      exact ⟨by rw [← hclosed, ← hclosings]; rfl, hlast⟩
    | error e =>
      obtain ⟨hclosed, hdb'⟩ := hstep
      obtain ⟨hclosings, hlast⟩ := ih hdb' hkept
      exact ⟨by rw [← hclosed, ← hclosings]; rfl, hlast⟩

end Engine

end SyncCascade
