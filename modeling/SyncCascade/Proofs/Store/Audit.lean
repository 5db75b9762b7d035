import SyncCascade.Proofs.Mirror
import SyncCascade.Proofs.Store.Syncs
import SyncCascade.Store.Session

/-!
# Audited storages

An audited storage works as the one it watches and keeps books beside it: the syncs that the unit of
work in progress was told to be closed, and for every commit that succeeded what its unit of work was
told and the state it left. The books change nothing: whatever runs over an audited storage runs in
the same way without the audit.
-/

namespace SyncCascade

/-- A unit of work that was committed. -/
structure Commit (σ : Type) where
  /-- The syncs that the unit of work was told to be closed, in this order. -/
  closed : List SyncId
  /-- The state that the commit left. -/
  state : σ

structure Audited (σ : Type) where
  state : σ
  /-- What the unit of work in progress was told so far. -/
  closing : List SyncId
  /-- The oldest commit first. -/
  commits : List (Commit σ)

namespace Audited

variable {σ : Type}

def fresh (s : σ) : Audited σ := ⟨s, [], []⟩

/-- All syncs that committed units of work were told to be closed. -/
def closed (a : Audited σ) : List SyncId := a.commits.flatMap Commit.closed

end Audited

namespace Storage

variable {σ : Type} (S : Storage σ)

def audited : Storage (Audited σ) where
  start clock level a :=
    let (r, s) := S.start clock level a.state
    (r, { a with state := s, closing := [] })
  call clock c a :=
    match S.call clock c a.state with
    | (.ok reply, s) => (.ok reply, { a with state := s, closing := a.closing ++ c.closed reply })
    | (.error e, s) => (.error e, { a with state := s })
  commit clock a :=
    match S.commit clock a.state with
    | (.ok r, s) => (.ok r, ⟨s, [], a.commits ++ [⟨a.closing, s⟩]⟩)
    | (.error e, s) => (.error e, { a with state := s, closing := [] })
  rollback a := { a with state := S.rollback a.state, closing := [] }
  ping a :=
    let (r, s) := S.ping a.state
    (r, { a with state := s })
  release a := { a with state := S.release a.state }
  announcesStart := S.announcesStart
  announces := S.announces

variable {S : Storage σ} {clock : Clock} {a : Audited σ} {s : σ}

theorem audited_start {level : IsolationLevel} {r : Except Failure Unit}
    (h : S.start clock level a.state = (r, s)) :
    S.audited.start clock level a = (r, { a with state := s, closing := [] }) := by
  simp only [audited, h]

theorem audited_call_ok {c : StoreCall} {reply : c.Reply}
    (h : S.call clock c a.state = (.ok reply, s)) :
    S.audited.call clock c a =
      (.ok reply, { a with state := s, closing := a.closing ++ c.closed reply }) := by
  simp only [audited, h]

theorem audited_call_error {c : StoreCall} {e : Failure}
    (h : S.call clock c a.state = (.error e, s)) :
    S.audited.call clock c a = (.error e, { a with state := s }) := by
  simp only [audited, h]

theorem audited_commit_ok {u : Unit} (h : S.commit clock a.state = (.ok u, s)) :
    S.audited.commit clock a = (.ok u, ⟨s, [], a.commits ++ [⟨a.closing, s⟩]⟩) := by
  simp only [audited, h]

theorem audited_commit_error {e : Failure} (h : S.commit clock a.state = (.error e, s)) :
    S.audited.commit clock a = (.error e, { a with state := s, closing := [] }) := by
  simp only [audited, h]

theorem audited_mirrors (S : Storage σ) :
    Mirrors (fun (a : Audited σ) (s : σ) => a.state = s) S.audited S where
  start clock level := by
    rintro a _ rfl
    rw [audited_start rfl]
    exact ⟨rfl, rfl⟩
  call clock c := by
    rintro a _ rfl
    rcases h : S.call clock c a.state with ⟨e | reply, s⟩
    · rw [audited_call_error h]
      exact ⟨rfl, rfl⟩
    · rw [audited_call_ok h]
      exact ⟨rfl, rfl⟩
  commit clock := by
    rintro a _ rfl
    rcases h : S.commit clock a.state with ⟨e | u, s⟩
    · rw [audited_commit_error h]
      exact ⟨rfl, rfl⟩
    · rw [audited_commit_ok h]
      exact ⟨rfl, rfl⟩
  rollback := by
    rintro a _ rfl
    rfl
  announcesStart := rfl
  announces := rfl

end Storage

section Told

variable {σ β α : Type} {S : Storage σ}

/-- The books hold these commits, and the unit of work in progress was told `closing`. -/
def Told (commits : List (Commit σ)) (closing : List SyncId) (w : World (Audited σ) β) : Prop :=
  w.store.commits = commits ∧ w.store.closing = closing

def Stands (commits : List (Commit σ)) (w : World (Audited σ) β) : Prop := w.store.commits = commits

/-- One more unit of work was committed, and it was told `closed`. -/
def Closed (commits : List (Commit σ)) (closed : List SyncId) (w : World (Audited σ) β) : Prop :=
  ∃ s, w.store.commits = commits ++ [⟨closed, s⟩]

variable {commits : List (Commit σ)} {closing : List SyncId} {w : World (Audited σ) β}

theorem query_told (h : Told commits closing w) (c : StoreCall) :
    (Transaction.query S.audited c).Ensures w
      (fun reply w' => Told commits (closing ++ c.closed reply) w') fun _ w' => Stands commits w' := by
  unfold Transaction.query
  refine Action.Ensures.announcingIf ?_ (fun _ _ _ _ h => h) _
  rw [Action.ensures_onStore]
  obtain ⟨hcommits, rfl⟩ := h
  rcases hcall : S.call w.clock c w.store.state with ⟨e | reply, s⟩
  · rw [S.audited_call_error hcall]
    exact hcommits
  · rw [S.audited_call_ok hcall]
    exact ⟨hcommits, rfl⟩

theorem query_bind_told {c : StoreCall} {k : c.Reply → Action (Audited σ) β α}
    {R : α → World (Audited σ) β → Prop} (hc : ∀ reply, c.closed reply = [])
    (hk : ∀ reply w, Told commits closing w → (k reply).Ensures w R fun _ w' => Stands commits w')
    (h : Told commits closing w) :
    (Transaction.query S.audited c >>= k).Ensures w R fun _ w' => Stands commits w' := by
  rw [Action.ensures_bind]
  refine (query_told h c).mono (fun reply w' h => hk reply w' ?_) fun _ _ h => h
  rwa [hc, List.append_nil] at h

/-- If the work tells its syncs, so does the transaction: once, if it succeeds, and not at all
otherwise. -/
theorem run_closed {work : Action (Audited σ) β α} (told : α → List SyncId)
    (hwork : ∀ w, Told commits [] w →
      work.Ensures w (fun r w' => Told commits (told r) w') fun _ w' => Stands commits w')
    (config : TransactionConfig) (context : WorkContext) (h : Stands commits w) :
    (Transaction.run S.audited config context work).Ensures w
      (fun r w' => Closed commits (told r) w') fun _ w' => Stands commits w' := by
  refine Transaction.run_ensures (fun _ _ _ h => h) config context (fun w h => ?_) h
  refine Transaction.once_ensures ?_
  unfold Transaction.start
  refine Action.Ensures.announcingIf ?_ (fun _ _ _ _ h => h) _
  rw [Action.ensures_onStore]
  rcases hstart : S.start w.clock config.isolation w.store.state with ⟨e | u, s⟩
  · rw [S.audited_start hstart]
    exact h
  rw [S.audited_start hstart]
  have hready : Told commits [] { w with store := ⟨s, [], w.store.commits⟩ } := ⟨h, rfl⟩
  refine (hwork _ hready).mono ?_ fun e w' h => h
  rintro r w' ⟨hcommits, hclosing⟩
  unfold Transaction.commit
  rw [Action.ensures_onStore]
  rcases hcommit : S.commit w'.clock w'.store.state with ⟨e | u, s⟩
  · rw [S.audited_commit_error hcommit]
    exact hcommits
  · rw [S.audited_commit_ok hcommit]
    exact ⟨s, by rw [hcommits, hclosing]⟩

end Told

end SyncCascade
