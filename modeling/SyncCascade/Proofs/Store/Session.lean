import SyncCascade.Proofs.Transaction
import SyncCascade.Store.Session

/-!
# Transactions in memory

Until a transaction commits, the committed database stands as it was; if it succeeds, the database
that its work saw last is the committed one. A failed transaction changes nothing but the number of
commits that are still to fail, and nothing else makes it fail where its work does not.
-/

namespace SyncCascade.Session

open SyncCascade.Action

def Has (db : Database) (s : Session) : Prop := s.committed = db

/-- The database `db` is committed, and the unit of work in progress sees `view`. -/
def Sees (db view : Database) (s : Session) : Prop := s.committed = db ∧ s.visible = view

/-- The database is committed, and the next `n` commits fail. -/
def Awaits (db : Database) (n : Nat) (s : Session) : Prop := s.committed = db ∧ s.failingCommits = n

def Views (db view : Database) (n : Nat) (s : Session) : Prop :=
  s.committed = db ∧ s.visible = view ∧ s.failingCommits = n

variable {β α : Type} {db view : Database} {n : Nat} {b : β} {clock : Clock} {w : World Session β}

theorem standing_views (h : World.Standing (Sees db view) b clock w) :
    World.Standing (Views db view w.store.failingCommits) b clock w :=
  ⟨⟨h.1.1, h.1.2, rfl⟩, h.2⟩

theorem standing_sees (h : World.Standing (Views db view n) b clock w) :
    World.Standing (Sees db view) b clock w := ⟨⟨h.1.1, h.1.2.1⟩, h.2⟩

theorem standing_awaits (h : World.Standing (Views db view n) b clock w) :
    World.Standing (Awaits db n) b clock w := ⟨⟨h.1.1, h.1.2.2⟩, h.2⟩

theorem standing_has (h : World.Standing (Awaits db n) b clock w) :
    World.Standing (Has db) b clock w := ⟨h.1.1, h.2⟩

theorem query_ensures (h : World.Standing (Sees db view) b clock w) (c : StoreCall) :
    (Transaction.query storage c).Ensures w
      (fun reply w' => ∃ view', view.apply clock.wall c = .ok (reply, view') ∧
        World.Standing (Sees db view') b clock w')
      fun _ w' => World.Standing (Has db) b clock w' := by
  obtain ⟨⟨hdb, rfl⟩, rfl, rfl⟩ := h
  unfold Transaction.query
  refine Ensures.announcingIf (ensures_onStore.2 ?_) (fun _ => World.standing_blind) _
  rcases happly : w.store.visible.apply w.clock.wall c with e | ⟨reply, view'⟩
  · have hcall : storage.call w.clock c w.store = (.error e, w.store) := by
      simp only [storage, call, happly]
    rw [hcall]
    exact ⟨hdb, rfl, rfl⟩
  · have hcall : storage.call w.clock c w.store =
        (.ok reply, { w.store with working := some view' }) := by
      simp only [storage, call, happly]
    rw [hcall]
    exact ⟨view', rfl, ⟨hdb, rfl⟩, rfl, rfl⟩

theorem query_views (h : World.Standing (Views db view n) b clock w) {c : StoreCall}
    {reply : c.Reply} {view' : Database} (happly : view.apply clock.wall c = .ok (reply, view')) :
    (Transaction.query storage c).Ensures w
      (fun r w' => r = reply ∧ World.Standing (Views db view' n) b clock w') fun _ _ => False := by
  obtain ⟨⟨hdb, rfl, hn⟩, rfl, rfl⟩ := h
  unfold Transaction.query
  refine Ensures.announcingIf (ensures_onStore.2 ?_) (fun _ _ _ _ h => h) _
  have hcall : storage.call w.clock c w.store =
      (.ok reply, { w.store with working := some view' }) := by
    simp only [storage, call, happly]
  rw [hcall]
  exact ⟨rfl, ⟨hdb, rfl, hn⟩, rfl, rfl⟩

theorem query_refused (h : World.Standing (Views db view n) b clock w) {c : StoreCall}
    {e : Failure} (happly : view.apply clock.wall c = .error e) :
    (Transaction.query storage c).Ensures w (fun _ _ => False)
      fun e' w' => e' = e ∧ World.Standing (Views db view n) b clock w' := by
  obtain ⟨⟨hdb, rfl, hn⟩, rfl, rfl⟩ := h
  unfold Transaction.query
  refine Ensures.announcingIf (ensures_onStore.2 ?_) (fun _ _ _ _ h => h) _
  have hcall : storage.call w.clock c w.store = (.error e, w.store) := by
    simp only [storage, call, happly]
  rw [hcall]
  exact ⟨rfl, ⟨hdb, rfl, hn⟩, rfl, rfl⟩

theorem query_bind {γ : Type} {R : γ → World Session β → Prop} {F : Failure → World Session β → Prop}
    (h : World.Standing (Views db view n) b clock w) {c : StoreCall} {out : c.Reply × Database}
    (happly : view.apply clock.wall c = .ok out) {k : c.Reply → Action Session β γ}
    (hk : ∀ w, World.Standing (Views db out.2 n) b clock w → (k out.1).Ensures w R F) :
    (Transaction.query storage c >>= k).Ensures w R F := by
  refine ensures_bind.2 ((query_views h happly).mono ?_ fun _ _ h => h.elim)
  rintro _ w' ⟨rfl, h'⟩
  exact hk w' h'

theorem start_ensures (h : World.Standing (Awaits db n) b clock w) (level : IsolationLevel) :
    (Transaction.start storage level).Ensures w
      (fun _ w' => World.Standing (Views db db n) b clock w') fun _ _ => False := by
  obtain ⟨⟨hdb, hn⟩, hb, hclock⟩ := h
  unfold Transaction.start
  refine Ensures.announcingIf (ensures_onStore.2 ?_) (fun _ _ _ _ h => h) _
  exact ⟨⟨hdb, hdb, hn⟩, hb, hclock⟩

theorem commit_ensures (h : World.Standing (Views db view n) b clock w) :
    (Transaction.commit storage).Ensures w (fun _ w' => World.Standing (Has view) b clock w')
      fun e w' => e = commitFailure ∧ ∃ m, n = m + 1 ∧ World.Standing (Awaits db m) b clock w' := by
  obtain ⟨⟨hdb, hview, rfl⟩, hb, hclock⟩ := h
  unfold Transaction.commit
  rw [ensures_onStore]
  cases hn : w.store.failingCommits with
  | zero =>
    have hcommit : storage.commit w.clock w.store = (.ok (), ⟨w.store.visible, none, 0⟩) := by
      simp only [storage, commit, hn]
    rw [hcommit]
    exact ⟨hview, hb, hclock⟩
  | succ m =>
    have hcommit : storage.commit w.clock w.store =
        (.error commitFailure, ⟨w.store.committed, none, m⟩) := by
      simp only [storage, commit, hn]
    rw [hcommit]
    exact ⟨rfl, m, rfl, ⟨hdb, rfl⟩, hb, hclock⟩

/-- If the work, on seeing the committed database, ends with a view and a result that satisfy `Q`, so
does the transaction with the database that it commits. -/
theorem run_ensures {work : Action Session β α} {Q : α → Database → Prop}
    (hwork : ∀ w, World.Standing (Sees db db) b clock w →
      work.Ensures w (fun r w' => ∃ view, Q r view ∧ World.Standing (Sees db view) b clock w')
        fun _ w' => World.Standing (Has db) b clock w')
    (config : TransactionConfig) (context : WorkContext)
    (h : World.Standing (Has db) b clock w) :
    (Transaction.run storage config context work).Ensures w
      (fun r w' => ∃ db', Q r db' ∧ World.Standing (Has db') b clock w')
      fun _ w' => World.Standing (Has db) b clock w' := by
  refine Transaction.run_ensures World.standing_blind config context (fun w hw => ?_) h
  refine Transaction.once_ensures ?_
  refine (start_ensures ⟨⟨hw.1, rfl⟩, hw.2⟩ config.isolation).mono (fun _ w' h => ?_)
    fun _ _ h => h.elim
  refine (hwork w' (standing_sees h)).mono ?_ fun e w'' h => h
  rintro r w'' ⟨view, hQ, hview⟩
  refine (commit_ensures (standing_views hview)).mono (fun _ _ h => ⟨view, hQ, h⟩) ?_
  rintro e w₃ ⟨-, m, -, h⟩
  exact standing_has h

/-- If moreover the work fails with `E` only, so does the transaction, unless as many commits are to
fail as it has attempts. -/
theorem run_counted {work : Action Session β α} {Q : α → Database → Prop} {E : Failure → Prop}
    {config : TransactionConfig} (hE : ∀ e, E e → e.isTransaction = false)
    (hwork : ∀ n w, World.Standing (Views db db n) b clock w →
      work.Ensures w (fun r w' => ∃ view, Q r view ∧ World.Standing (Views db view n) b clock w')
        fun e w' => E e ∧ World.Standing (Awaits db n) b clock w')
    (context : WorkContext) (h : World.Standing (Awaits db n) b clock w) :
    (Transaction.run storage config context work).Ensures w
      (fun r w' => ∃ db', Q r db' ∧ World.Standing (Has db') b clock w')
      fun e w' => (E e ∨ config.retry.attempts ≤ n) ∧ World.Standing (Has db) b clock w' := by
  refine (Transaction.run_counted (P := fun n => World.Standing (Awaits db n) b clock)
    (F := fun e w' => E e ∧ World.Standing (Has db) b clock w')
    (fun _ => World.standing_blind) (fun _ _ _ _ h => h) (fun n w hw => ?_) context h).mono
    (fun _ _ h => h) fun e w' h => ?_
  · refine Transaction.once_ensures ((start_ensures hw config.isolation).mono (fun _ w' h => ?_)
      fun _ _ h => h.elim)
    refine (hwork n w' h).mono ?_ ?_
    · rintro r w'' ⟨view, hQ, hview⟩
      refine (commit_ensures hview).mono (fun _ _ h => ⟨view, hQ, h⟩) ?_
      rintro e w₃ ⟨rfl, m, hm, h⟩
      exact .inr ⟨rfl, m, hm, h⟩
    · rintro e w'' ⟨he, h⟩
      exact .inl ⟨hE e he, he, standing_has h⟩
  · rcases h with ⟨he, h⟩ | ⟨hspent, m, h⟩
    · exact ⟨.inl he, h⟩
    · exact ⟨.inr hspent, standing_has h⟩

end SyncCascade.Session
