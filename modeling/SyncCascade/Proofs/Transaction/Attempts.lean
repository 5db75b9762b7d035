import SyncCascade.Proofs.Mirror

/-!
# The attempts of a transaction

A transaction is watched in the phases of its attempts: the starts and the commits of the storage and
the runs of the work, each with what came of it. Watching changes nothing. The phases of a repeated
transaction make up attempts, one after another: each starts at the level of the configuration, works
only if it started and commits only if it worked. Another attempt follows exactly a transaction failure,
as long as the policy allows one.
-/

namespace SyncCascade

/-- A phase of an attempt and what came of it. -/
inductive Phase (α : Type) where
  | start (level : IsolationLevel) (outcome : Except Failure Unit)
  | work (outcome : Except Failure α)
  | commit (outcome : Except Failure Unit)

def Phase.isCommit {α : Type} : Phase α → Bool
  | commit _ => true
  | _ => false

/-- How far an attempt came. -/
inductive Attempt (α : Type) where
  | notStarted (e : Failure)
  | failed (e : Failure)
  | notCommitted (value : α) (e : Failure)
  | committed (value : α)

namespace Attempt

variable {α : Type}

def phases (level : IsolationLevel) : Attempt α → List (Phase α)
  | notStarted e => [.start level (.error e)]
  | failed e => [.start level (.ok ()), .work (.error e)]
  | notCommitted value e => [.start level (.ok ()), .work (.ok value), .commit (.error e)]
  | committed value => [.start level (.ok ()), .work (.ok value), .commit (.ok ())]

def outcome : Attempt α → Except Failure α
  | notStarted e | failed e | notCommitted _ e => .error e
  | committed value => .ok value

/-- The attempt failed, in any of its phases, with a transaction failure. -/
def isRetryable (a : Attempt α) : Bool :=
  match a.outcome with
  | .ok _ => false
  | .error e => e.isTransaction

theorem isRetryable_of_outcome {a : Attempt α} {e : Failure} (h : a.outcome = .error e) :
    a.isRetryable = e.isTransaction := by
  unfold isRetryable
  rw [h]

theorem outcome_eq_ok_iff {a : Attempt α} {value : α} :
    a.outcome = .ok value ↔ a = .committed value := by
  constructor
  · intro h
    cases a with
    | committed => cases h; rfl
    | notStarted | failed | notCommitted => cases h
  · rintro rfl
    rfl

end Attempt

/-- These attempts, of which `limit` are allowed, end with this answer. -/
structure Repeats {α : Type} (enabled : Bool) (limit : Nat) (attempts : List (Attempt α))
    (answer : Except Failure α) : Prop where
  nonempty : attempts ≠ []
  /-- There is a next attempt exactly if this one asks for it. -/
  again : ∀ i a, attempts[i]? = some a →
    (i + 1 < attempts.length ↔ a.isRetryable = true ∧ enabled = true ∧ i + 1 < limit)
  answer_ok : ∀ value, answer = .ok value ↔ attempts.getLast? = some (.committed value)

namespace Repeats

variable {α : Type} {enabled : Bool} {limit : Nat} {a : Attempt α} {attempts : List (Attempt α)}
  {answer : Except Failure α}

theorem single (h : ¬ (a.isRetryable = true ∧ enabled = true ∧ 1 < limit))
    (hanswer : ∀ value, answer = .ok value ↔ a.outcome = .ok value) :
    Repeats enabled limit [a] answer where
  nonempty := List.cons_ne_nil a []
  again i a' ha' := by
    cases i with
    | succ i => cases ha'
    | zero =>
      cases ha'
      exact iff_of_false (Nat.lt_irrefl 1) h
  answer_ok value := by
    rw [hanswer, Attempt.outcome_eq_ok_iff]
    exact ⟨fun h => congrArg some h, Option.some.inj⟩

theorem single_ok {value : α} (h : a.outcome = .ok value) : Repeats enabled limit [a] (.ok value) := by
  refine single ?_ fun _ => by rw [h]
  unfold Attempt.isRetryable
  rw [h]
  exact fun ⟨hretry, _⟩ => Bool.false_ne_true hretry

theorem single_error {e e' : Failure} (houtcome : a.outcome = .error e)
    (h : ¬ (a.isRetryable = true ∧ enabled = true ∧ 1 < limit)) :
    Repeats enabled limit [a] (.error e') :=
  single h fun _ => by rw [houtcome]; exact iff_of_false nofun nofun

/-- An attempt that asks for another stands before the rest, which has one less. -/
theorem cons (hretry : a.isRetryable = true) (henabled : enabled = true)
    (h : Repeats enabled (limit + 1) attempts answer) :
    Repeats enabled (limit + 2) (a :: attempts) answer where
  nonempty := List.cons_ne_nil a attempts
  again i a' ha' := by
    have hlength := List.length_pos_iff.2 h.nonempty
    rw [List.length_cons, Nat.add_lt_add_iff_right]
    cases i with
    | zero =>
      cases ha'
      exact iff_of_true hlength ⟨hretry, henabled, by omega⟩
    | succ i =>
      rw [h.again i a' ha']
      simp only [Nat.add_lt_add_iff_right]
  answer_ok value := by
    rw [h.answer_ok, List.getLast?_cons_of_ne_nil h.nonempty]

theorem of_disabled (h : Repeats false limit attempts answer) (limit' : Nat) :
    Repeats false limit' attempts answer where
  nonempty := h.nonempty
  again i a ha := by
    rw [h.again i a ha]
    simp
  answer_ok := h.answer_ok

end Repeats

/-- The state of a storage and the phases so far, the first one first. -/
structure Watched (σ α : Type) where
  state : σ
  phases : List (Phase α)

variable {σ β α : Type}

/-- The storage with its starts and commits written down. -/
def Storage.watched (S : Storage σ) (α : Type) : Storage (Watched σ α) where
  start clock level s :=
    let (outcome, state) := S.start clock level s.state
    (outcome, ⟨state, s.phases ++ [.start level outcome]⟩)
  call clock c s :=
    let (reply, state) := S.call clock c s.state
    (reply, ⟨state, s.phases⟩)
  commit clock s :=
    let (outcome, state) := S.commit clock s.state
    (outcome, ⟨state, s.phases ++ [.commit outcome]⟩)
  rollback s := ⟨S.rollback s.state, s.phases⟩
  ping s :=
    let (reply, state) := S.ping s.state
    (reply, ⟨state, s.phases⟩)
  release s := ⟨S.release s.state, s.phases⟩
  announcesStart := S.announcesStart
  announces := S.announces

/-- The work, written down when it ends. -/
def Action.watched (work : Action σ β α) : Action (Watched σ α) β α := .ofFunction fun w =>
  let (outcome, w') := work.run (w.withStore w.store.state)
  (outcome, w'.withStore ⟨w'.store, w.store.phases ++ [.work outcome]⟩)

theorem Storage.watched_commit {S : Storage σ} {clock : Clock} {a : Watched σ α}
    {outcome : Except Failure Unit} {s : σ} (h : S.commit clock a.state = (outcome, s)) :
    (S.watched α).commit clock a = (outcome, ⟨s, a.phases ++ [.commit outcome]⟩) := by
  simp only [watched, h]

theorem Storage.watched_mirrors (S : Storage σ) (α : Type) :
    Storage.Mirrors (fun (a : Watched σ α) s => a.state = s) (S.watched α) S where
  start _ _ := by
    rintro a _ rfl
    exact ⟨rfl, rfl⟩
  call _ _ := by
    rintro a _ rfl
    exact ⟨rfl, rfl⟩
  commit _ := by
    rintro a _ rfl
    exact ⟨rfl, rfl⟩
  rollback := by
    rintro a _ rfl
    rfl
  announcesStart := rfl
  announces := rfl

theorem Action.watched_mirrors (work : Action σ β α) :
    Action.Mirrors (fun (a : Watched σ α) s => a.state = s) work.watched work := by
  rintro w _ rfl
  exact ⟨_, rfl, rfl⟩

open SyncCascade.Action

namespace Transaction

def watchedRun (S : Storage σ) (config : TransactionConfig) (context : WorkContext)
    (work : Action σ β α) (w : World σ β) : Except Failure α × World (Watched σ α) β :=
  (run (S.watched α) config context work.watched).run (w.withStore ⟨w.store, []⟩)

theorem watchedRun_erases (S : Storage σ) (config : TransactionConfig) (context : WorkContext)
    (work : Action σ β α) (w : World σ β) :
    (run S config context work).run w =
      ((watchedRun S config context work w).1,
        (watchedRun S config context work w).2.withStore
          (watchedRun S config context work w).2.store.state) := by
  obtain ⟨s, hrun, hs⟩ := run_mirrors (S.watched_mirrors α) work.watched_mirrors config context
    (w.withStore ⟨w.store, []⟩) w.store rfl
  rw [← hs] at hrun
  exact hrun

def Seen (phases : List (Phase α)) (w : World (Watched σ α) β) : Prop := w.store.phases = phases

theorem seen_blind {phases : List (Phase α)} :
    World.Blind (Seen (σ := σ) (β := β) phases) := fun _ _ _ h => h

/-- After those before, the phases of one attempt with this outcome were seen. -/
def Made (level : IsolationLevel) (before : List (Phase α)) (outcome : Except Failure α)
    (w : World (Watched σ α) β) : Prop :=
  ∃ a : Attempt α, a.outcome = outcome ∧ Seen (before ++ a.phases level) w

variable {before : List (Phase α)} {w : World (Watched σ α) β}

theorem start_seen (S : Storage σ) (level : IsolationLevel) (h : Seen before w) :
    (start (S.watched α) level).Ensures w
      (fun _ w' => Seen (before ++ [.start level (.ok ())]) w')
      fun e w' => Seen (before ++ [.start level (.error e)]) w' := by
  unfold start
  refine Ensures.announcingIf (ensures_onStore.2 ?_) (fun _ => seen_blind) _
  unfold Seen at h ⊢
  dsimp only [Storage.watched]
  rw [h]
  generalize (S.start w.clock level w.store.state).1 = outcome
  cases outcome <;> rfl

theorem work_seen (work : Action σ β α) (h : Seen before w) :
    work.watched.Ensures w (fun r w' => Seen (before ++ [.work (.ok r)]) w')
      fun e w' => Seen (before ++ [.work (.error e)]) w' := by
  unfold Seen Ensures at *
  dsimp only [Action.watched, Action.run, ofFunction]
  rw [h]
  generalize work (w.withStore w.store.state) = out
  obtain ⟨outcome, w'⟩ := out
  cases outcome <;> rfl

theorem commit_seen (S : Storage σ) (h : Seen before w) :
    (commit (S.watched α)).Ensures w
      (fun _ w' => Seen (before ++ [.commit (.ok ())]) w')
      fun e w' => Seen (before ++ [.commit (.error e)]) w' := by
  unfold commit
  rw [ensures_onStore]
  unfold Seen at h ⊢
  dsimp only [Storage.watched]
  rw [h]
  generalize (S.commit w.clock w.store.state).1 = outcome
  cases outcome <;> rfl

theorem once_ensures_made (S : Storage σ) (level : IsolationLevel) (work : Action σ β α)
    (h : Seen before w) :
    (once (S.watched α) level work.watched).Ensures w
      (fun r w' => Made level before (.ok r) w') fun e w' => Made level before (.error e) w' := by
  refine once_ensures ((start_seen S level h).mono (fun _ w₁ h₁ => ?_) fun e _ h₁ =>
    ⟨.notStarted e, rfl, h₁⟩)
  refine (work_seen work h₁).mono (fun value w₂ h₂ => ?_) fun e w₂ h₂ => ?_
  · refine (commit_seen S h₂).mono (fun _ w₃ h₃ => ⟨.committed value, rfl, ?_⟩)
      fun e w₃ h₃ => ⟨.notCommitted value e, rfl, ?_⟩
    · simpa [Attempt.phases] using h₃
    · simpa [Attempt.phases] using h₃
  · rw [List.append_assoc] at h₂
    exact ⟨.failed e, rfl, h₂⟩

theorem once_made (S : Storage σ) (level : IsolationLevel) (work : Action σ β α)
    (w : World (Watched σ α) β) :
    Made level w.store.phases ((once (S.watched α) level work.watched).run w).1
      ((once (S.watched α) level work.watched).run w).2 :=
  (once_ensures_made S level work rfl).outcome

/-- After those before, the phases of attempts were seen that are repeated and end with this answer. -/
def Repeated (level : IsolationLevel) (before : List (Phase α)) (enabled : Bool) (limit : Nat)
    (out : Except Failure α × World (Watched σ α) β) : Prop :=
  ∃ attempts, Seen (before ++ attempts.flatMap (Attempt.phases level)) out.2 ∧
    Repeats enabled limit attempts out.1

theorem repeated_of_made {level : IsolationLevel} {enabled : Bool} {limit : Nat} {a : Attempt α}
    {answer : Except Failure α} (hseen : Seen (before ++ a.phases level) w)
    (h : Repeats enabled limit [a] answer) : Repeated level before enabled limit (answer, w) :=
  ⟨[a], by rwa [List.flatMap_singleton], h⟩

/-- The phases of a repeated transaction make up attempts that are repeated as the policy says. -/
theorem repeating_repeated (S : Storage σ) (level : IsolationLevel) (work : Action σ β α)
    (policy : RetryPolicy) (context : WorkContext) (remaining attempt : Nat)
    (w : World (Watched σ α) β) :
    Repeated level w.store.phases policy.enabled (remaining + 1)
      ((repeating policy context (once (S.watched α) level work.watched) remaining attempt).run w) := by
  induction remaining generalizing attempt w with
  | zero =>
    have h := once_made S level work w
    rw [run_repeating_zero]
    generalize (once (S.watched α) level work.watched).run w = out at h ⊢
    obtain ⟨outcome, w'⟩ := out
    obtain ⟨a, houtcome, hseen⟩ := h
    cases outcome with
    | ok r => exact repeated_of_made hseen (.single_ok houtcome)
    | error e =>
      by_cases hrepeat : (e.isTransaction && policy.enabled) = true
      · simp only [if_pos hrepeat]
        exact repeated_of_made hseen (.single_error houtcome fun h => absurd h.2.2 (Nat.lt_irrefl 1))
      · simp only [if_neg hrepeat]
        exact repeated_of_made hseen (.single_error houtcome fun h => absurd h.2.2 (Nat.lt_irrefl 1))
  | succ remaining ih =>
    have h := once_made S level work w
    rw [run_repeating_succ]
    generalize (once (S.watched α) level work.watched).run w = out at h ⊢
    obtain ⟨outcome, w'⟩ := out
    obtain ⟨a, houtcome, hseen⟩ := h
    cases outcome with
    | ok r => exact repeated_of_made hseen (.single_ok houtcome)
    | error e =>
      have hretryable := Attempt.isRetryable_of_outcome houtcome
      by_cases hrepeat : (e.isTransaction && policy.enabled) = true
      · simp only [if_pos hrepeat]
        rw [Bool.and_eq_true] at hrepeat
        obtain ⟨attempts, hmore, hrepeats⟩ := ih (attempt + 1)
          { w' with journal := w'.journal.push (.transactionRepeated context attempt e) }
        refine ⟨a :: attempts, ?_, hrepeats.cons (hretryable.trans hrepeat.1) hrepeat.2⟩
        rw [List.flatMap_cons, ← List.append_assoc, ← show w'.store.phases = _ from hseen]
        exact hmore
      · simp only [if_neg hrepeat]
        refine repeated_of_made hseen (.single_error houtcome ?_)
        rintro ⟨hretry, henabled, -⟩
        exact hrepeat (by rw [← hretryable, hretry, henabled]; rfl)

/-- A watched transaction is made of attempts, of which the policy allows one more than repetitions. -/
theorem watchedRun_repeated (S : Storage σ) (config : TransactionConfig) (context : WorkContext)
    (work : Action σ β α) (w : World σ β)
    (hretries : config.retry.numRetries.toNat < Word.limit 32 - 1) :
    Repeated config.isolation [] config.retry.enabled (config.retry.numRetries.toNat + 1)
      (watchedRun S config context work w) := by
  have h := repeating_repeated S config.isolation work config.retry context
    (config.retry.attempts - 1) 1 (w.withStore ⟨w.store, []⟩)
  unfold watchedRun run
  cases henabled : config.retry.enabled with
  | false =>
    have hone := RetryPolicy.attempts_of_disabled henabled
    rw [withRetries_eq, if_neg (by omega)]
    obtain ⟨attempts, hseen, hrepeats⟩ := h
    rw [henabled] at hrepeats
    exact ⟨attempts, hseen, hrepeats.of_disabled _⟩
  | true =>
    have hattempts := RetryPolicy.attempts_of_lt henabled hretries
    rw [withRetries_eq, if_neg (by omega), ← hattempts]
    rw [henabled, Nat.sub_add_cancel (by omega)] at h
    exact h

end Transaction

end SyncCascade
