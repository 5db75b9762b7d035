import SyncCascade.Proofs.Worker.Settling

/-!
# The life of one job

A job is added to an empty lane, and one worker looks at the lane again and again, each time after
the job has become ready. The handler answers its calls by a script. A transaction failure costs the
job nothing, any other failure costs it one attempt; the first success or the last attempt ends its
life.
-/

namespace SyncCascade

/-- What can be chosen of a life: the job and how it is added, the worker, the script of the handler,
and how the clock moves. -/
structure Life where
  lane : Lane
  options : LaneOptions
  delay : Timespan
  config : WorkerConfig
  id : String
  kind : JobKind
  batchIds : Option (List String)
  /-- The clock when the job is added. -/
  clock : Clock
  seed : Nat
  script : Nat → Except Failure Json
  /-- The time that each call of the handler takes. -/
  spans : Nat → Timespan
  /-- What the clock shows at each look, and by how much it is late. -/
  walls : Nat → Timestamp
  late : Nat → Nat

namespace Life

variable (L : Life)

def job : JobPayload := ⟨L.id, L.kind, L.batchIds, 0, 0, 0⟩

def attempts : Nat := max L.options.attempts.toNat 1

/-- Answers by the script and keeps what it is called with. -/
def handler (payload : JobPayload) : Action (List JobPayload) Lanes Json :=
  .ofFunction fun w =>
    let call := w.store.length
    (L.script call,
      { w with store := w.store ++ [payload], clock := w.clock.advance (L.spans call) })

def worker : Worker (List JobPayload) Lanes := ⟨L.lane, Lanes.broker, L.handler, L.config⟩

def start : World (List JobPayload) Lanes :=
  { World.initial [] (Lanes.empty.apply L.clock (.add L.lane L.job L.options L.delay)).2 with
    clock := L.clock
    seed := L.seed }

/-- The clock moves on until every pending job of the lane is ready, or further. -/
def wait (n : Nat) (w : World (List JobPayload) Lanes) : World (List JobPayload) Lanes :=
  let ready := ((w.broker.get L.lane).pending.rows.map QueuedJob.readyAt).foldl max w.clock.elapsed
  { w with clock := ⟨L.walls n, ready + L.late n⟩ }

def look (n : Nat) (w : World (List JobPayload) Lanes) :
    Except Failure JobOutcome × World (List JobPayload) Lanes :=
  L.worker.processNext.run (L.wait n w)

def after : Nat → World (List JobPayload) Lanes
  | 0 => L.start
  | n + 1 => (L.look n (after n)).2

/-- The answer costs an attempt. -/
def costs (n : Nat) : Bool :=
  match L.script n with
  | .ok _ => false
  | .error e => !e.isTransaction

def spares (n : Nat) : Bool :=
  match L.script n with
  | .ok _ => false
  | .error e => e.isTransaction

def spent (n : Nat) : Nat := (List.range n).countP L.costs

/-- The transaction failures among the first answers. -/
def spared (n : Nat) : Nat := (List.range n).countP L.spares

/-- What the handler sees at a call. -/
def payload (n : Nat) : JobPayload :=
  { L.job with transactionFailures := UInt32.ofNat (L.spared n) }

/-- The answer is a success, or it costs the last attempt. -/
def Ends (k : Nat) : Prop :=
  (∃ value, L.script k = .ok value) ∨ (L.costs k = true ∧ L.spent (k + 1) = L.attempts)

/-- After so many looks the job is pending still: every answer cost an attempt or was a transaction
failure, and an attempt is left. -/
structure Waiting (n : Nat) (w : World (List JobPayload) Lanes) : Prop where
  counted : L.spent n + L.spared n = n
  left : L.spent n < L.attempts
  shows : ∃ readyAt seq, w.Shows L.lane
    (.sole ⟨L.payload n, L.spent n, L.attempts, L.options.backoff, readyAt, seq⟩ seq)
    ((List.range n).map L.payload) ⟨0, L.spent n, L.spared n, n⟩

/-- The answer with the number `k` has ended the life of the job. -/
structure Ended (k : Nat) (w : World (List JobPayload) Lanes) : Prop where
  seen : w.store = (List.range (k + 1)).map L.payload
  gone : (w.broker.get L.lane).pending = .empty ∧ (w.broker.get L.lane).active = .empty
  success : ∀ value, L.script k = .ok value →
    (w.broker.get L.lane).completed = 1 ∧ (w.broker.get L.lane).failed = []
  failure : ∀ e, L.script k = .error e → (w.broker.get L.lane).completed = 0 ∧
    ∃ wall, (w.broker.get L.lane).failed = [⟨L.payload k, L.attempts, e.message, wall⟩]
  total : (w.metrics.lane L.lane.name).completed + (w.metrics.lane L.lane.name).failed +
    (w.metrics.lane L.lane.name).transactionFailures = k + 1
  retries : (w.metrics.lane L.lane.name).retries = k

variable {L : Life} {n k : Nat} {w : World (List JobPayload) Lanes}

theorem spent_succ (h : L.costs n = true) : L.spent (n + 1) = L.spent n + 1 := by
  simp [spent, List.range_succ, List.countP_append, h]

theorem spent_succ_of_free (h : L.costs n = false) : L.spent (n + 1) = L.spent n := by
  simp [spent, List.range_succ, List.countP_append, h]

theorem spared_succ (h : L.spares n = true) : L.spared (n + 1) = L.spared n + 1 := by
  simp [spared, List.range_succ, List.countP_append, h]

theorem spared_succ_of_not (h : L.spares n = false) : L.spared (n + 1) = L.spared n := by
  simp [spared, List.range_succ, List.countP_append, h]

theorem transactionFailures_payload (h : L.spared n < Word.limit 32) :
    (L.payload n).transactionFailures.toNat = L.spared n := UInt32.toNat_ofNat_of_lt' h

theorem waiting_start : L.Waiting 0 L.start := by
  have hleft : 0 < L.attempts := Nat.lt_of_lt_of_le Nat.one_pos (Nat.le_max_right _ _)
  refine ⟨rfl, hleft, L.clock.elapsed + L.delay.nanos, 1, ?_, rfl, rfl⟩
  change (Lanes.empty.step L.lane fun s =>
    s.add L.clock.elapsed L.job L.options L.delay).2.get L.lane = _
  rw [Lanes.step_snd, Lanes.get_set_self, Lanes.get_empty]
  rfl

theorem ready_wait {q : QueuedJob} {seq : Nat} (h : w.broker.get L.lane = .sole q seq) (n : Nat) :
    q.readyAt ≤ (L.wait n w).clock.elapsed := by
  unfold wait
  rw [h]
  change q.readyAt ≤ max w.clock.elapsed q.readyAt + L.late n
  exact Nat.le_trans (Nat.le_max_right _ _) (Nat.le_add_right _ _)

theorem handler_ensures {payload : JobPayload} {R : Json → World (List JobPayload) Lanes → Prop}
    {F : Failure → World (List JobPayload) Lanes → Prop} (hn : w.store.length = n)
    (hok : ∀ value, L.script n = .ok value → R value
      { w with store := w.store ++ [payload], clock := w.clock.advance (L.spans n) })
    (herror : ∀ e, L.script n = .error e → F e
      { w with store := w.store ++ [payload], clock := w.clock.advance (L.spans n) }) :
    (L.handler payload).Ensures w R F := by
  subst hn
  have hrun : (L.handler payload).run w = (L.script w.store.length,
      { w with store := w.store ++ [payload], clock := w.clock.advance (L.spans w.store.length) }) :=
    rfl
  unfold Action.Ensures
  rw [hrun]
  cases hscript : L.script w.store.length with
  | ok value => exact hok value hscript
  | error e => exact herror e hscript

theorem payload_of_spares (h : L.spares n = true) :
    L.payload (n + 1) =
      { L.payload n with transactionFailures := (L.payload n).transactionFailures + 1 } := by
  unfold payload
  rw [spared_succ h, UInt32.ofNat_add]
  rfl

theorem payload_of_not_spares (h : L.spares n = false) : L.payload (n + 1) = L.payload n := by
  unfold payload
  rw [spared_succ_of_not h]

theorem Ended.of_finished {failed : List FailedJob} {completed seq : Nat} {t : Tally}
    (h : w.Shows L.lane (.finished failed completed seq) ((List.range (k + 1)).map L.payload) t)
    (hsuccess : ∀ value, L.script k = .ok value → completed = 1 ∧ failed = [])
    (hfailure : ∀ e, L.script k = .error e →
      completed = 0 ∧ ∃ wall, failed = [⟨L.payload k, L.attempts, e.message, wall⟩])
    (htotal : t.completed + t.failed + t.transactionFailures = k + 1) (hretries : t.retries = k) :
    L.Ended k w := by
  obtain ⟨hlane, hseen, rfl⟩ := h
  refine ⟨hseen, ?_, fun value hvalue => ?_, fun e he => ?_, htotal, hretries⟩ <;> rw [hlane]
  · exact ⟨rfl, rfl⟩
  · exact hsuccess value hvalue
  · exact hfailure e he

section Settling

-- The handler has answered its call with the number `n`, and the job is claimed still.
variable {readyAt seq token leaseUntil seq' : Nat} {e : Failure}
  (hcounted : L.spent n + L.spared n = n) (hleft : L.spent n < L.attempts)
  (h : w.Shows L.lane
    (.held ⟨L.payload n, L.spent n, L.attempts, L.options.backoff, readyAt, seq⟩ token leaseUntil
      seq')
    ((List.range (n + 1)).map L.payload) ⟨0, L.spent n, L.spared n, n⟩)

include hcounted hleft h

theorem settleTransactionFailure_ensures (duration : Timespan)
    (hscript : L.script n = .error e) (htransaction : e.isTransaction = true) :
    (L.worker.settleTransactionFailure ⟨L.payload n, token, L.spent n, L.attempts⟩ e
        duration).Ensures w
      (fun _ w' => ¬ L.Ends n ∧ L.Waiting (n + 1) w') fun _ _ => False := by
  have hcosts : L.costs n = false := by simp [costs, hscript, htransaction]
  have hspares : L.spares n = true := by simp [spares, hscript, htransaction]
  have hends : ¬ L.Ends n := by
    rintro (⟨value, hvalue⟩ | ⟨hcost, -⟩)
    · rw [hscript] at hvalue
      cases hvalue
    · rw [hcosts] at hcost
      cases hcost
  refine (Worker.settleTransactionFailure_shows (W := L.worker) ⟨_, token, _, _⟩ rfl rfl h e
    duration).mono (fun _ w' hw => ⟨hends, ?_⟩) fun _ _ h => h
  obtain ⟨readyAt', hw⟩ := hw
  have hspent := spent_succ_of_free hcosts
  have hspared := spared_succ hspares
  refine ⟨by omega, by omega, readyAt', seq' + 1, ?_⟩
  rw [payload_of_spares hspares, hspent, hspared]
  exact hw

theorem settleFailure_ensures (duration : Timespan)
    (hscript : L.script n = .error e) (htransaction : ¬ e.isTransaction = true) :
    (L.worker.settleFailure ⟨L.payload n, token, L.spent n, L.attempts⟩ e duration).Ensures w
      (fun _ w' => (L.Ends n → L.Ended n w') ∧ (¬ L.Ends n → L.Waiting (n + 1) w'))
      fun _ _ => False := by
  have hcosts : L.costs n = true := by simp [costs, hscript, htransaction]
  have hspares : L.spares n = false := by simp [spares, hscript, htransaction]
  have hspent := spent_succ hcosts
  have hspared := spared_succ_of_not hspares
  have hnotOk : ∀ value, L.script n ≠ .ok value := by
    intro value hvalue
    rw [hscript] at hvalue
    cases hvalue
  refine (Worker.settleFailure_shows (W := L.worker) ⟨_, token, _, _⟩ rfl rfl h e
    duration).mono (fun _ w' hw => ?_) fun _ _ h => h
  obtain ⟨hretried, hfailed⟩ := hw
  by_cases hmore : L.spent n + 1 < L.attempts
  · have hends : ¬ L.Ends n := by
      rintro (⟨value, hvalue⟩ | ⟨-, hlast⟩)
      · exact hnotOk value hvalue
      · omega
    refine ⟨fun h => absurd h hends, fun _ => ?_⟩
    obtain ⟨readyAt', hw⟩ := hretried hmore
    refine ⟨by omega, by omega, readyAt', seq' + 1, ?_⟩
    rw [payload_of_not_spares hspares, hspent, hspared]
    exact hw
  · have hlast : L.spent n + 1 = L.attempts := by omega
    have hends : L.Ends n := .inr ⟨hcosts, hspent.trans hlast⟩
    refine ⟨fun _ => ?_, absurd hends⟩
    obtain ⟨wall, hw⟩ := hfailed hmore
    refine .of_finished hw (fun value hvalue => absurd hvalue (hnotOk value)) (fun e' he' => ?_) ?_ rfl
    · obtain rfl := Except.error.inj (hscript.symm.trans he')
      exact ⟨rfl, wall, by rw [hlast]⟩
    · change 0 + (L.spent n + 1) + L.spared n = n + 1
      omega

/-- The answer to a call is settled: it ends the life of the job, or the job waits for the next. -/
theorem settle_ensures (duration : Timespan) :
    (match L.script n with
      | .ok value =>
        L.worker.settleSuccess ⟨L.payload n, token, L.spent n, L.attempts⟩ value duration
      | .error e =>
        if e.isTransaction then
          L.worker.settleTransactionFailure ⟨L.payload n, token, L.spent n, L.attempts⟩ e duration
        else
          L.worker.settleFailure ⟨L.payload n, token, L.spent n, L.attempts⟩ e duration).Ensures w
      (fun _ w' => (L.Ends n → L.Ended n w') ∧ (¬ L.Ends n → L.Waiting (n + 1) w'))
      fun _ _ => False := by
  cases hscript : L.script n with
  | ok value =>
    have hends : L.Ends n := .inl ⟨value, hscript⟩
    refine (Worker.settleSuccess_shows (W := L.worker) ⟨_, token, _, _⟩ rfl rfl h value
      duration).mono (fun _ w' hw => ⟨fun _ => ?_, absurd hends⟩) fun _ _ h => h
    refine .of_finished hw (fun _ _ => ⟨rfl, rfl⟩) (fun e he => ?_) ?_ rfl
    · rw [hscript] at he
      cases he
    · change 0 + 1 + L.spent n + L.spared n = n + 1
      omega
  | error e =>
    dsimp only
    split
    next htransaction =>
      exact (settleTransactionFailure_ensures hcounted hleft h duration hscript htransaction).mono
        (fun _ _ ⟨hends, hw⟩ => ⟨fun h => absurd h hends, fun _ => hw⟩) fun _ _ h => h
    next htransaction => exact settleFailure_ensures hcounted hleft h duration hscript htransaction

end Settling

open SyncCascade.Action Worker in
theorem processNext_ensures (h : L.Waiting n w) :
    L.worker.processNext.Ensures (L.wait n w)
      (fun _ w' => (L.Ends n → L.Ended n w') ∧ (¬ L.Ends n → L.Waiting (n + 1) w'))
      fun _ _ => False := by
  obtain ⟨hcounted, hleft, readyAt, seq, hshows⟩ := h
  have hwait : World.Shows L.lane _ _ _ (L.wait n w) := hshows
  obtain ⟨hreply, hclaimed⟩ := hwait.apply (c := .claim L.worker.lane L.worker.config.lease)
    (f := fun s => s.claim (L.wait n w).clock.elapsed L.config.lease) rfl
  rw [LaneState.claim_sole (ready_wait hshows.1 n)] at hreply hclaimed
  have hlength : (L.wait n w).store.length = n := by
    rw [hwait.2.1, List.length_map, List.length_range]
  have hran := fun journal =>
    hclaimed.handled (L.payload n) ((L.wait n w).clock.advance (L.spans n)) journal
  have hseen : (List.range n).map L.payload ++ [L.payload n] =
      (List.range (n + 1)).map L.payload := by
    rw [List.range_succ, List.map_append, List.map_singleton]
  rw [hseen] at hran
  have hsettle := fun journal duration => settle_ensures hcounted hleft (hran journal) duration
  unfold Worker.processNext
  refine request_rule rfl ?_
  rw [hreply]
  refine ensures_bind.2 (ensures_bind.2 (ensures_bind.2 ?_))
  rw [ensures_attempt]
  refine handler_ensures hlength (fun value hscript => ?_) (fun e hscript => ?_)
  · rw [hscript] at hsettle
    exact ensures_bind.2 (hsettle _ _)
  · rw [hscript] at hsettle
    exact ensures_bind.2 (hsettle _ _)

open SyncCascade.Action Worker in
theorem processNext_idle (h : L.Ended k w) (n : Nat) :
    L.worker.processNext.Ensures (L.wait n w) (fun outcome w' => outcome = .idle ∧ L.Ended k w')
      fun _ _ => False := by
  have hnone : ((L.wait n w).broker.get L.lane).nextJob (L.wait n w).clock.elapsed = none :=
    LaneState.nextJob_of_size_eq_zero (congrArg Table.size h.gone.1) _
  have happly : (L.wait n w).broker.apply (L.wait n w).clock
      (.claim L.worker.lane L.worker.config.lease) = (none, (L.wait n w).broker) :=
    Lanes.claim_of_idle L.config.lease hnone
  unfold Worker.processNext
  refine request_rule rfl ?_
  unfold World.answer World.told
  rw [happly]
  exact ⟨rfl, h.seen, h.gone, h.success, h.failure, h.total, h.retries⟩

theorem waiting_after (h : ∀ i < n, ¬ L.Ends i) : L.Waiting n (L.after n) := by
  induction n with
  | zero => exact waiting_start
  | succ n ih =>
    have hwaiting := ih fun i hi => h i (Nat.lt_succ_of_lt hi)
    obtain ⟨_, _, _, hnext⟩ := (processNext_ensures hwaiting).exists_ok
    exact hnext (h n (Nat.lt_succ_self n))

theorem ended_after (hends : L.Ends k) (hleast : ∀ i < k, ¬ L.Ends i) (hn : k < n) :
    L.Ended k (L.after n) := by
  induction n with
  | zero => cases hn
  | succ n ih =>
    rcases Nat.lt_succ_iff_lt_or_eq.1 hn with hlt | rfl
    · obtain ⟨_, _, _, hended⟩ := (processNext_idle (ih hlt) n).exists_ok
      exact hended
    · obtain ⟨_, _, hended, _⟩ := (processNext_ensures (waiting_after hleast)).exists_ok
      exact hended hends

/-- The first answer that is a success or costs the last attempt ends the life of the job: after it the
worker finds nothing any more. As long as there is none, the job waits for its next delivery. The
handler sees at each call how many transaction failures there were before. -/
theorem life_of_job (L : Life) :
    (∀ k, L.Ends k → (∀ i < k, ¬ L.Ends i) →
      ∀ n, k < n → L.Ended k (L.after n) ∧ (L.look n (L.after n)).1 = .ok .idle) ∧
    ((∀ k, ¬ L.Ends k) → ∀ n, L.Waiting n (L.after n)) ∧
    ∀ n, L.spared n < Word.limit 32 → (L.payload n).transactionFailures.toNat = L.spared n := by
  refine ⟨fun k hends hleast n hn => ?_, fun h n => waiting_after fun i _ => h i,
    fun n h => transactionFailures_payload h⟩
  have hended := ended_after hends hleast hn
  obtain ⟨_, hidle, rfl, _⟩ := (processNext_idle hended n).exists_ok
  exact ⟨hended, hidle⟩

/-- The second answer costs the only attempt. -/
def oneAttempt : Life where
  lane := .files
  options := { LaneOptions.default with attempts := 1 }
  delay := .zero
  config := .default
  id := "file"
  kind := .fileClosure
  batchIds := none
  clock := ⟨⟨0, 0⟩, 0⟩
  seed := 0
  script n := if n = 0 then .error (.transaction "busy") else .error (.storage "broken")
  spans _ := .zero
  walls _ := ⟨0, 0⟩
  late _ := 0

theorem life_of_job_oneAttempt :
    oneAttempt.Ends 1 ∧ (∀ i < 1, ¬ oneAttempt.Ends i) ∧ oneAttempt.Ended 1 (oneAttempt.after 2) := by
  have hends : oneAttempt.Ends 1 := .inr ⟨by decide, by decide⟩
  have hleast : ∀ i < 1, ¬ oneAttempt.Ends i := by
    intro i hi
    obtain rfl : i = 0 := by omega
    rintro (⟨value, hvalue⟩ | ⟨hcosts, -⟩)
    · cases hvalue
    · revert hcosts
      decide
  exact ⟨hends, hleast, ((life_of_job oneAttempt).1 1 hends hleast 2 (by decide)).1⟩

end Life

end SyncCascade
