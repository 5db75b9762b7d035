import SyncCascade.Proofs.Store.Session
import SyncCascade.Proofs.Transaction.Attempts

/-!
# Units of work are committed once or not at all

A unit of work asks the store for one thing after another, and what it asks next depends on the answers
only. In memory a transaction that succeeds leaves the database on which the work was done once, however
many attempts failed before; one that fails leaves the database as it was. Every commit that an attempt
reaches uses up one of the failures that commits were made to meet, as long as there is one.
-/

namespace SyncCascade

/-- A unit of work that goes on as the answers of the store, failures included, let it. -/
inductive Work (α : Type) where
  | done (outcome : Except Failure α)
  | note (n : Notice) (next : Work α)
  | ask (c : StoreCall) (next : Except Failure c.Reply → Work α)

namespace Work

variable {σ β α : Type}

def action (S : Storage σ) : Work α → Action σ β α
  | done outcome => .ofExcept outcome
  | note n next => do
    .note n
    next.action S
  | ask c next => do
    let answer ← (Transaction.query S c).attempt
    (next answer).action S

/-- What the work comes to on a database at this time. -/
def onDatabase (now : Timestamp) : Work α → Database → Except Failure α × Database
  | done outcome, db => (outcome, db)
  | note _ next, db => next.onDatabase now db
  | ask c next, db =>
    match db.apply now c with
    | .ok (reply, db') => (next (.ok reply)).onDatabase now db'
    | .error e => (next (.error e)).onDatabase now db

open SyncCascade.Action SyncCascade.Session

/-- In memory the work sees the view of the unit of work in progress, and changes nothing else. -/
theorem action_ensures {db view : Database} {n : Nat} {b : β} {clock : Clock} {w : World Session β}
    (work : Work α) (h : World.Standing (Views db view n) b clock w) :
    (work.action storage).Ensures w
      (fun r w' => ∃ view', work.onDatabase clock.wall view = (.ok r, view') ∧
        World.Standing (Views db view' n) b clock w')
      fun e w' => ∃ view', work.onDatabase clock.wall view = (.error e, view') ∧
        World.Standing (Views db view' n) b clock w' := by
  induction work generalizing view w with
  | done outcome =>
    rw [action, ensures_ofExcept]
    cases outcome with
    | ok r => exact ⟨view, rfl, h⟩
    | error e => exact ⟨view, rfl, h⟩
  | note n next ih => exact ensures_note_bind World.standing_blind h fun w' h' => ih h'
  | ask c next ih =>
    rw [action, ensures_bind, ensures_attempt, onDatabase]
    cases happly : view.apply clock.wall c with
    | ok out =>
      refine (query_views h happly).mono ?_ fun _ _ h => h.elim
      rintro _ w' ⟨rfl, h'⟩
      exact ih (.ok out.1) h'
    | error e =>
      refine (query_refused h happly).mono (fun _ _ h => h.elim) ?_
      rintro e w' ⟨rfl, h'⟩
      exact ih (.error e) h'

end Work

namespace Transaction

open SyncCascade.Action SyncCascade.Session

variable {σ β α : Type}

theorem watched_ensures {work : Action σ β α} {R : α → World σ β → Prop}
    {F : Failure → World σ β → Prop} {w : World (Watched σ α) β}
    (h : work.Ensures (w.withStore w.store.state) R F) :
    work.watched.Ensures w
      (fun r w' => ∃ w₁, R r w₁ ∧ w' = w₁.withStore ⟨w₁.store, w.store.phases ++ [.work (.ok r)]⟩)
      fun e w' => ∃ w₁, F e w₁ ∧
        w' = w₁.withStore ⟨w₁.store, w.store.phases ++ [.work (.error e)]⟩ := by
  unfold Ensures at h ⊢
  dsimp only [Action.watched, Action.run, ofFunction] at h ⊢
  generalize work (w.withStore w.store.state) = out at h ⊢
  obtain ⟨outcome, w'⟩ := out
  cases outcome with
  | ok r => exact ⟨w', h, rfl⟩
  | error e => exact ⟨w', h, rfl⟩

def commits (phases : List (Phase α)) : Nat := phases.countP Phase.isCommit

section Memory

variable (db : Database) (n : Nat) (clock : Clock)

/-- The database is committed, and of `n` failures every commit so far used up one. -/
structure Waiting (w : World (Watched Session α) β) : Prop where
  committed : w.store.state.committed = db
  failing : w.store.state.failingCommits = n - commits w.store.phases
  clock : w.clock = clock

/-- As `Waiting`, and no unit of work is in progress. -/
structure Ended (w : World (Watched Session α) β) : Prop where
  state : w.store.state = ⟨db, none, n - commits w.store.phases⟩
  clock : w.clock = clock

end Memory

variable {db : Database} {n : Nat} {clock : Clock} {w : World (Watched Session α) β}

theorem Ended.waiting (h : Ended db n clock w) : Waiting db n clock w where
  committed := by rw [h.state]
  failing := by rw [h.state]
  clock := h.clock

theorem waiting_blind : World.Blind (Waiting (α := α) (β := β) db n clock) :=
  fun _ _ _ h => ⟨h.committed, h.failing, h.clock⟩

theorem ended_blind : World.Blind (Ended (α := α) (β := β) db n clock) :=
  fun _ _ _ h => ⟨h.state, h.clock⟩

theorem commits_append_of_not {phases : List (Phase α)} {p : Phase α} (h : p.isCommit = false) :
    commits (phases ++ [p]) = commits phases := by
  simp [commits, h]

theorem commits_append_commit (phases : List (Phase α)) (outcome : Except Failure Unit) :
    commits (phases ++ [.commit outcome]) = commits phases + 1 := by
  simp [commits, Phase.isCommit]

theorem start_began (level : IsolationLevel) (h : Waiting db n clock w) :
    (start (storage.watched α) level).Ensures w
      (fun _ w' => World.Standing (Views db db (n - commits w'.store.phases)) w'.broker clock
        (w'.withStore w'.store.state)) fun _ _ => False := by
  unfold start
  refine Ensures.announcingIf (ensures_onStore.2 ?_) (fun _ _ _ _ h => h) _
  refine ⟨⟨h.committed, h.committed, ?_⟩, rfl, h.clock⟩
  exact h.failing.trans (congrArg (n - ·) (commits_append_of_not rfl).symm)

theorem commit_ended {view : Database} {b : β}
    (h : World.Standing (Views db view (n - commits w.store.phases)) b clock
      (w.withStore w.store.state)) :
    (commit (storage.watched α)).Ensures w (fun _ w' => Ended view n clock w')
      fun _ w' => Ended db n clock w' := by
  obtain ⟨⟨hdb, hview, hn⟩, -, hclock⟩ := h
  unfold commit
  rw [ensures_onStore]
  cases hfailing : n - commits w.store.phases with
  | zero =>
    have hcommit : storage.commit w.clock w.store.state = (.ok (), ⟨view, none, 0⟩) := by
      have hzero : w.store.state.failingCommits = 0 := hn.trans hfailing
      have hvisible : w.store.state.visible = view := hview
      simp only [storage, Session.commit, hzero, hvisible]
    rw [Storage.watched_commit hcommit]
    refine ⟨?_, hclock⟩
    rw [commits_append_commit, Nat.sub_add_eq, hfailing]
  | succ m =>
    have hcommit : storage.commit w.clock w.store.state = (.error commitFailure, ⟨db, none, m⟩) := by
      have hsucc : w.store.state.failingCommits = m + 1 := hn.trans hfailing
      have hcommitted : w.store.state.committed = db := hdb
      simp only [storage, Session.commit, hsucc, hcommitted]
    rw [Storage.watched_commit hcommit]
    refine ⟨?_, hclock⟩
    rw [commits_append_commit, Nat.sub_add_eq, hfailing]
    rfl

theorem rollback_ended {view : Database} {b : β}
    (h : World.Standing (Views db view (n - commits w.store.phases)) b clock
      (w.withStore w.store.state)) :
    Ended db n clock { w with store := (storage.watched α).rollback w.store } := by
  obtain ⟨⟨hdb, -, hn⟩, -, hclock⟩ := h
  have hdb' : w.store.state.committed = db := hdb
  have hn' : w.store.state.failingCommits = n - commits w.store.phases := hn
  refine ⟨?_, hclock⟩
  change (⟨w.store.state.committed, none, w.store.state.failingCommits⟩ : Session) = _
  rw [hdb', hn']
  rfl

/-- One attempt: the work is done once on the committed database, or nothing happened. -/
theorem once_ended (level : IsolationLevel) (work : Work α) (h : Waiting db n clock w) :
    (once (storage.watched α) level (work.action storage).watched).Ensures w
      (fun r w' => ∃ db', work.onDatabase clock.wall db = (.ok r, db') ∧ Ended db' n clock w')
      fun _ w' => Ended db n clock w' := by
  refine once_ensures ((start_began level h).mono (fun _ w₁ h₁ => ?_) fun _ _ h => h.elim)
  refine (watched_ensures (work.action_ensures h₁)).mono ?_ ?_
  · rintro r _ ⟨w₂, ⟨db', hwork, h₂⟩, rfl⟩
    rw [← commits_append_of_not (p := .work (.ok r)) rfl] at h₂
    exact (commit_ended h₂).mono (fun _ _ h => ⟨db', hwork, h⟩) fun _ _ h => h
  · rintro e _ ⟨w₂, ⟨view, -, h₂⟩, rfl⟩
    rw [← commits_append_of_not (p := .work (.error e)) rfl] at h₂
    exact rollback_ended h₂

theorem run_ended {config : TransactionConfig} (hallowed : 0 < config.retry.attempts)
    (context : WorkContext) (work : Work α) (h : Waiting db n clock w) :
    (run (storage.watched α) config context (work.action storage).watched).Ensures w
      (fun r w' => ∃ db', work.onDatabase clock.wall db = (.ok r, db') ∧ Ended db' n clock w')
      fun _ w' => Ended db n clock w' := by
  refine withRetries_rule (fun hnone => absurd hnone (Nat.ne_of_gt hallowed)) ?_
  refine repeating_rule (P := fun _ => Waiting db n clock) (fun _ => waiting_blind)
    (fun _ => ended_blind) (fun remaining w hw => ?_) context _ _ h
  refine (once_ended config.isolation work hw).mono (fun _ _ h => h) fun e w' h' => ?_
  split
  · cases remaining with
    | zero => exact h'
    | succ => exact h'.waiting
  · exact h'

/-- The phases of a transaction make up attempts, whatever the storage answers and the work does, and
the answer is that of an attempt that was committed or none. In memory the work was then done exactly
once on the committed database, and otherwise nothing is left of it. -/
theorem run_commits_once (config : TransactionConfig) (context : WorkContext)
    (hretries : config.retry.numRetries.toNat < Word.limit 32 - 1) :
    (∀ (σ β α : Type) (S : Storage σ) (work : Action σ β α) (w : World σ β),
      let out := watchedRun S config context work w
      (run S config context work).run w = (out.1, out.2.withStore out.2.store.state) ∧
        ∃ attempts, out.2.store.phases = attempts.flatMap (Attempt.phases config.isolation) ∧
          Repeats config.retry.enabled (config.retry.numRetries.toNat + 1) attempts out.1) ∧
    ∀ (β α : Type) (work : Work α) (w : World Session β),
      let out := watchedRun storage config context (work.action storage) w
      let left := w.store.failingCommits - commits out.2.store.phases
      (∀ r, out.1 = .ok r → ∃ db, work.onDatabase w.clock.wall w.store.committed = (.ok r, db) ∧
        out.2.store.state = ⟨db, none, left⟩) ∧
      ∀ e, out.1 = .error e → out.2.store.state = ⟨w.store.committed, none, left⟩ := by
  constructor
  · intro σ β α S work w
    exact ⟨watchedRun_erases S config context work w,
      watchedRun_repeated S config context work w hretries⟩
  · intro β α work w out left
    have hstart : Waiting w.store.committed w.store.failingCommits w.clock
        (w.withStore (⟨w.store, []⟩ : Watched Session α)) := ⟨rfl, rfl, rfl⟩
    have h := run_ended (RetryPolicy.attempts_pos_of_lt hretries) context work hstart
    unfold Ensures at h
    constructor
    · intro r hr
      have hrun : out = (.ok r, out.2) := Prod.ext hr rfl
      rw [show Action.run _ _ = _ from hrun] at h
      obtain ⟨db, hwork, hended⟩ := h
      exact ⟨db, hwork, hended.state⟩
    · intro e he
      have hrun : out = (.error e, out.2) := Prod.ext he rfl
      rw [show Action.run _ _ = _ from hrun] at h
      exact h.state

/-- Two commits fail, and the third one makes the changeset last. -/
theorem run_commits_once_sample :
    let work : Work Unit := .ask (.insertChangeset ⟨⟨⟨1⟩⟩, none⟩) .done
    let w : World Session Unit := .initial ⟨.empty, none, 2⟩ ()
    let out := watchedRun storage .default ⟨"insert", ""⟩ (work.action storage) w
    TransactionConfig.default.retry.numRetries.toNat < Word.limit 32 - 1 ∧
      commits out.2.store.phases = 3 ∧
      ∃ db, work.onDatabase w.clock.wall .empty = (.ok (), db) ∧
        out.2.store.state = ⟨db, none, 0⟩ := by
  intro work w out
  have hretries : TransactionConfig.default.retry.numRetries.toNat < Word.limit 32 - 1 := by decide
  have hcommits : commits out.2.store.phases = 3 := by decide +kernel
  have hok : out.1 = .ok () := by decide +kernel
  obtain ⟨db, hwork, hstate⟩ :=
    ((run_commits_once .default ⟨"insert", ""⟩ hretries).2 Unit Unit work w).1 () hok
  have hleft : w.store.failingCommits - commits out.2.store.phases = 0 := by rw [hcommits]; rfl
  exact ⟨hretries, hcommits, db, hwork, by rw [← hleft]; exact hstate⟩

end Transaction

end SyncCascade
