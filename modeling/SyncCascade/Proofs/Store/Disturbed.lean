import SyncCascade.Proofs.Mirror
import SyncCascade.Proofs.Store.Session

/-!
# Commits that are made to fail at any time

The number of commits that fail can be set while a job is handled, between one transaction and the
next. Such a session goes with the list of what is set before its next commits. Whatever stands there, a
transaction that fails leaves the committed database, and one that succeeds commits what its work saw
last. Where no commit is made to fail, none fails.
-/

namespace SyncCascade

structure Disturbed where
  session : Session
  /-- To what the number of failing commits is set before each of the next commits; later ones find
  what the last one left. -/
  faults : List Nat
deriving DecidableEq

namespace Disturbed

open SyncCascade.Action

def commit (t : Disturbed) : Except Failure Unit × Disturbed :=
  match t.faults with
  | [] => (t.session.commit.1, ⟨t.session.commit.2, []⟩)
  | n :: rest =>
    (({ t.session with failingCommits := n } : Session).commit.1,
      ⟨({ t.session with failingCommits := n } : Session).commit.2, rest⟩)

/-- The storage in memory under such disturbance. -/
def storage : Storage Disturbed :=
  { Session.storage.within session fun s t => { t with session := s } with
    commit := fun _ t => t.commit }

theorem storage_mirrors :
    Session.storage.Mirrors (fun s t => t = ⟨s, []⟩) storage where
  start clock level := by
    rintro s _ rfl
    exact ⟨rfl, rfl⟩
  call clock c := by
    rintro s _ rfl
    exact ⟨rfl, rfl⟩
  commit clock := by
    rintro s _ rfl
    exact ⟨rfl, rfl⟩
  rollback := by
    rintro s _ rfl
    rfl
  announcesStart := rfl
  announces := rfl

/-- No commit fails from now on. -/
def Quiet (t : Disturbed) : Prop := t.faults = [] ∧ t.session.failingCommits = 0

/-- This database is committed, and no commit fails if that is `quiet`. -/
def Has (db : Database) (quiet : Prop) (t : Disturbed) : Prop :=
  t.session.committed = db ∧ (quiet → t.Quiet)

/-- As `Has`, and the unit of work in progress sees `view`. -/
def Sees (db view : Database) (quiet : Prop) (t : Disturbed) : Prop :=
  t.session.committed = db ∧ t.session.visible = view ∧ (quiet → t.Quiet)

/-- A commit commits what is visible and stays quiet, or it fails, which no quiet one does, and leaves
what was committed. -/
theorem commit_cases (t : Disturbed) :
    (t.commit.1 = .ok () ∧ t.commit.2.session.committed = t.session.visible ∧
      (t.Quiet → t.commit.2.Quiet)) ∨
      ((∃ e, t.commit.1 = .error e) ∧ t.commit.2.session.committed = t.session.committed ∧
        ¬ t.Quiet) := by
  obtain ⟨⟨committed, working, failing⟩, faults⟩ := t
  cases faults with
  | nil =>
    cases failing with
    | zero => exact .inl ⟨rfl, rfl, fun _ => ⟨rfl, rfl⟩⟩
    | succ n => exact .inr ⟨⟨_, rfl⟩, rfl, fun h => nomatch h.2⟩
  | cons n rest =>
    cases n with
    | zero => exact .inl ⟨rfl, rfl, fun h => nomatch h.1⟩
    | succ n => exact .inr ⟨⟨_, rfl⟩, rfl, fun h => nomatch h.1⟩

variable {β α : Type} {db view : Database} {quiet : Prop} {b : β} {clock : Clock}
  {w : World Disturbed β}

theorem query_ensures (h : World.Standing (Sees db view quiet) b clock w) {c : StoreCall}
    {reply : c.Reply} {view' : Database} (happly : view.apply clock.wall c = .ok (reply, view')) :
    (Transaction.query storage c).Ensures w
      (fun r w' => r = reply ∧ World.Standing (Sees db view' quiet) b clock w') fun _ _ => False := by
  obtain ⟨⟨hdb, rfl, hquiet⟩, rfl, rfl⟩ := h
  unfold Transaction.query
  refine Ensures.announcingIf (ensures_onStore.2 ?_) (fun _ _ _ _ h => h) _
  have hcall : storage.call w.clock c w.store =
      (.ok reply, { w.store with session := { w.store.session with working := some view' } }) := by
    simp only [storage, Storage.within, Session.storage, Session.call, happly]
  rw [hcall]
  exact ⟨rfl, ⟨hdb, rfl, hquiet⟩, rfl, rfl⟩

theorem start_ensures (h : World.Standing (Has db quiet) b clock w) (level : IsolationLevel) :
    (Transaction.start storage level).Ensures w
      (fun _ w' => World.Standing (Sees db db quiet) b clock w') fun _ _ => False := by
  obtain ⟨⟨hdb, hquiet⟩, hb, hclock⟩ := h
  unfold Transaction.start
  refine Ensures.announcingIf (ensures_onStore.2 ?_) (fun _ _ _ _ h => h) _
  have hstart : storage.start w.clock level w.store =
      (.ok (), { w.store with session := w.store.session.start }) := rfl
  rw [hstart]
  exact ⟨⟨hdb, hdb, hquiet⟩, hb, hclock⟩

theorem commit_ensures (h : World.Standing (Sees db view quiet) b clock w) :
    (Transaction.commit storage).Ensures w
      (fun _ w' => World.Standing (Has view quiet) b clock w')
      fun _ w' => ¬ quiet ∧ World.Standing (Has db quiet) b clock w' := by
  obtain ⟨⟨hdb, hview, hquiet⟩, hb, hclock⟩ := h
  unfold Transaction.commit
  rw [ensures_onStore]
  rcases commit_cases w.store with ⟨hok, hcommitted, hstays⟩ | ⟨⟨e, herror⟩, hcommitted, hnot⟩
  · have hstep : storage.commit w.clock w.store = (.ok (), w.store.commit.2) := Prod.ext hok rfl
    rw [hstep]
    exact ⟨⟨hcommitted.trans hview, fun hq => hstays (hquiet hq)⟩, hb, hclock⟩
  · have hstep : storage.commit w.clock w.store = (.error e, w.store.commit.2) :=
      Prod.ext herror rfl
    have hdisturbed : ¬ quiet := fun hq => hnot (hquiet hq)
    rw [hstep]
    exact ⟨hdisturbed, ⟨hcommitted.trans hdb, fun hq => absurd hq hdisturbed⟩, hb, hclock⟩

/-- Why a transaction fails whose work does not: a commit fails, or the policy allows no attempt. -/
def Hindered (quiet : Prop) (policy : RetryPolicy) : Prop := quiet → policy.attempts = 0

/-- Work that never fails: its transaction commits what it saw last, or it is hindered and leaves the
database. -/
theorem run_ensures {work : Action Disturbed β α} {Q : α → Database → Prop}
    (hwork : ∀ w, World.Standing (Sees db db quiet) b clock w →
      work.Ensures w
        (fun r w' => ∃ view, Q r view ∧ World.Standing (Sees db view quiet) b clock w')
        fun _ _ => False)
    (config : TransactionConfig) (context : WorkContext)
    (h : World.Standing (Has db quiet) b clock w) :
    (Transaction.run storage config context work).Ensures w
      (fun r w' => ∃ db', Q r db' ∧ World.Standing (Has db' quiet) b clock w')
      fun _ w' => Hindered quiet config.retry ∧ World.Standing (Has db quiet) b clock w' := by
  have honce : ∀ w, World.Standing (Has db quiet) b clock w →
      (Transaction.once storage config.isolation work).Ensures w
        (fun r w' => ∃ db', Q r db' ∧ World.Standing (Has db' quiet) b clock w')
        fun _ w' => Hindered quiet config.retry ∧ World.Standing (Has db quiet) b clock w' := by
    intro w hw
    refine Transaction.once_ensures ((start_ensures hw _).mono (fun _ w' h' => ?_)
      fun _ _ h => h.elim)
    refine (hwork w' h').mono ?_ fun _ _ h => h.elim
    rintro r w'' ⟨view, hQ, hview⟩
    exact (commit_ensures hview).mono (fun _ _ h => ⟨view, hQ, h⟩)
      fun _ _ h => ⟨fun hq => absurd hq h.1, h.2⟩
  -- The invariant of the repetitions is that the database stands; that a commit failed is known only
  -- after the first of them.
  refine Transaction.withRetries_rule (fun hnone => ⟨fun _ => hnone, h⟩) ?_
  refine Transaction.repeating_rule (P := fun _ => World.Standing (Has db quiet) b clock)
    (fun _ => World.standing_blind) (fun _ _ _ _ h => h) (fun remaining w hw => ?_) context _ 1 h
  refine (honce w hw).mono (fun _ _ h => h) fun e w' h' => ?_
  split
  · cases remaining with
    | zero => exact h'
    | succ remaining => exact h'.2
  · exact h'

end Disturbed

end SyncCascade
