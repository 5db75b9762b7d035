import SyncCascade.Broker.Rehearsal
import SyncCascade.Proofs.Broker.Exchanges
import SyncCascade.Proofs.Broker.Reports
import SyncCascade.Proofs.Metrics

/-!
# What a push says to its broker

A push talks to the broker about one job after another. A talk is a number of missed rounds, in which
the job was pending when it was to be added and gone when it was to be moved back, and then an ending:
the broker took the job, or it failed, or there were no rounds left. The report, the failure and the
duplicates that the metrics count can all be read off the talks, whatever the broker answers.
-/

namespace SyncCascade

def BrokerCall.defers : (c : BrokerCall) → Except Failure c.Reply → Bool
  | defer .., .ok (.deferred _) => true
  | _, _ => false

def Exchange.defers (x : Exchange) : Bool := x.call.defers x.answer

/-- How the talk about a job ends. -/
inductive Ending where
  | added
  | deferred (dedupCount : UInt32)
  | addFailed (e : Failure)
  | deferFailed (e : Failure)
  /-- Every round was missed. -/
  | exhausted
deriving DecidableEq

/-- What is said about one job. -/
structure Talk where
  job : JobPayload
  /-- The rounds in which the job was pending first and gone then. -/
  missed : Nat
  ending : Ending

namespace Talk

variable (options : LaneOptions) (lane : Lane)

/-- The job is pending, so the broker is asked to move it back. -/
def round (job : JobPayload) (answer : Except Failure DeferOutcome) : List Exchange :=
  [⟨.add lane job options .zero, .ok .exists⟩, ⟨.defer lane job.id options.dedupDelay, answer⟩]

def lastExchanges (job : JobPayload) : Ending → List Exchange
  | .added => [⟨.add lane job options .zero, .ok .added⟩]
  | .deferred n => round options lane job (.ok (.deferred n))
  | .addFailed e => [⟨.add lane job options .zero, .error e⟩]
  | .deferFailed e => round options lane job (.error e)
  | .exhausted => []

def exchanges (t : Talk) : List Exchange :=
  (List.replicate t.missed (round options lane t.job (.ok .missing))).flatten ++
    lastExchanges options lane t.job t.ending

/-- The broker took the job within the rounds. -/
def Succeeds (rounds : Nat) (t : Talk) : Prop :=
  t.missed < rounds ∧ (t.ending = .added ∨ ∃ n, t.ending = .deferred n)

/-- The broker failed within the rounds, or all of them were missed. -/
def FailsWith (rounds : Nat) (e : Failure) (t : Talk) : Prop :=
  t.missed < rounds ∧ (t.ending = .addFailed e ∨ t.ending = .deferFailed e) ∨
    t.missed = rounds ∧ t.ending = .exhausted ∧ e = Queue.exhausted lane t.job.id

def afterMiss (t : Talk) : Talk := { t with missed := t.missed + 1 }

variable {options lane} {t : Talk} {rounds : Nat} {e : Failure}

theorem exchanges_afterMiss :
    t.afterMiss.exchanges options lane =
      round options lane t.job (.ok .missing) ++ t.exchanges options lane := by
  unfold exchanges afterMiss
  rw [List.replicate_succ, List.flatten_cons, List.append_assoc]

theorem Succeeds.afterMiss (h : t.Succeeds rounds) : t.afterMiss.Succeeds (rounds + 1) :=
  ⟨Nat.succ_lt_succ h.1, h.2⟩

theorem FailsWith.afterMiss (h : t.FailsWith lane rounds e) :
    t.afterMiss.FailsWith lane (rounds + 1) e :=
  h.imp (fun h => ⟨Nat.succ_lt_succ h.1, h.2⟩) fun h => ⟨congrArg (· + 1) h.1, h.2⟩

theorem any_takes_missed (job : JobPayload) (n : Nat) :
    (List.replicate n (round options lane job (.ok .missing))).flatten.any
      (Exchange.takes lane job) = false := by
  rw [List.any_flatten, List.any_eq_false]
  intro exchanges hexchanges
  rw [List.eq_of_mem_replicate hexchanges]
  exact Bool.false_ne_true

theorem any_takes_exchanges :
    (t.exchanges options lane).any (Exchange.takes lane t.job) =
      (lastExchanges options lane t.job t.ending).any (Exchange.takes lane t.job) := by
  unfold exchanges
  rw [List.any_append, any_takes_missed, Bool.false_or]

theorem Succeeds.takes (h : t.Succeeds rounds) :
    (t.exchanges options lane).any (Exchange.takes lane t.job) = true := by
  rw [any_takes_exchanges]
  rcases h.2 with hending | ⟨n, hending⟩ <;>
    simp [hending, lastExchanges, round, Exchange.takes, BrokerCall.takes]

theorem FailsWith.takes (h : t.FailsWith lane rounds e) :
    (t.exchanges options lane).any (Exchange.takes lane t.job) = false := by
  rw [any_takes_exchanges]
  rcases h with ⟨-, hending | hending⟩ | ⟨-, hending, -⟩ <;> rw [hending] <;> rfl

def report (talks : List Talk) : PushReport where
  enqueued := (talks.filter fun t => t.ending = .added).map fun t => t.job.id
  deduplicated := (talks.filter fun t => t.ending ≠ .added).map fun t => t.job.id

theorem report_cons (t : Talk) (talks : List Talk) :
    report (t :: talks) = .single (decide (t.ending = .added)) t.job.id ++ report talks := by
  by_cases h : t.ending = .added
  · apply PushReport.ext <;> simp [report, PushReport.single, h]
  · apply PushReport.ext <;> simp [report, PushReport.single, h]

theorem size_report (talks : List Talk) : (report talks).size = talks.length := by
  have hsplit := List.length_eq_countP_add_countP (fun t : Talk => decide (t.ending = .added))
    (l := talks)
  unfold PushReport.size report
  simp only [List.length_map, ← List.countP_eq_length_filter]
  simpa using hsplit.symm

end Talk

/-- These are the exchanges so far, and so many duplicates were counted on the lane. -/
def World.Said {σ β : Type} (lane : Lane) (exchanges : List Exchange) (count : Nat)
    (w : World σ (Logged β)) : Prop :=
  w.Heard exchanges ∧ (w.metrics.lane lane.name).duplicates = count

/-- The exchanges of the talk are the last ones, and its duplicates are counted. -/
def World.Talked {σ β : Type} (options : LaneOptions) (lane : Lane) (before : List Exchange)
    (count : Nat) (t : Talk) (w : World σ (Logged β)) : Prop :=
  w.Said lane (before ++ t.exchanges options lane)
    (count + (t.exchanges options lane).countP Exchange.defers)

theorem World.Talked.afterMiss {σ β : Type} {options : LaneOptions} {lane : Lane}
    {before : List Exchange} {count : Nat} {t : Talk} {w : World σ (Logged β)}
    (h : w.Talked options lane (before ++ Talk.round options lane t.job (.ok .missing)) count t) :
    w.Talked options lane before count t.afterMiss := by
  unfold World.Talked at h ⊢
  rwa [Talk.exchanges_afterMiss, ← List.append_assoc, List.countP_append,
    show (Talk.round options lane t.job (.ok .missing)).countP Exchange.defers = 0 from rfl,
    Nat.zero_add]

def World.Conversed {σ β : Type} (options : LaneOptions) (lane : Lane) (before : List Exchange)
    (count : Nat) (talks : List Talk) (w : World σ (Logged β)) : Prop :=
  w.Said lane (before ++ talks.flatMap (Talk.exchanges options lane))
    (count + (talks.flatMap (Talk.exchanges options lane)).countP Exchange.defers)

namespace World.Conversed

variable {σ β : Type} {options : LaneOptions} {lane : Lane} {before : List Exchange} {count : Nat}
  {t : Talk} {talks : List Talk} {w : World σ (Logged β)}

theorem nil (h : w.Said lane before count) : w.Conversed options lane before count [] := by
  unfold World.Conversed
  rwa [List.flatMap_nil, List.append_nil]

theorem cons (h : w.Conversed options lane (before ++ t.exchanges options lane)
    (count + (t.exchanges options lane).countP Exchange.defers) talks) :
    w.Conversed options lane before count (t :: talks) := by
  unfold World.Conversed at h ⊢
  rwa [List.flatMap_cons, ← List.append_assoc, List.countP_append, ← Nat.add_assoc]

end World.Conversed

section Pushes

variable {σ β : Type} (options : LaneOptions) (lane : Lane) (before : List Exchange) (count : Nat)
  (jobs : List JobPayload)

/-- There was one talk about each job, in their order, and the report is that of the talks. -/
def World.Finished (report : PushReport) (w : World σ (Logged β)) : Prop :=
  ∃ talks : List Talk, talks.map Talk.job = jobs ∧ (∀ t ∈ talks, t.Succeeds Queue.maxRounds) ∧
    report = Talk.report talks ∧ w.Conversed options lane before count talks

/-- There was one talk about each job up to the one that failed. -/
def World.BrokenOff (e : Failure) (w : World σ (Logged β)) : Prop :=
  ∃ (talks : List Talk) (last : Talk), talks.map Talk.job ++ [last.job] <+: jobs ∧
    (∀ t ∈ talks, t.Succeeds Queue.maxRounds) ∧ last.FailsWith lane Queue.maxRounds e ∧
    w.Conversed options lane before count (talks ++ [last])

variable {options lane before count jobs} {t : Talk} {e : Failure} {w : World σ (Logged β)}

theorem World.BrokenOff.cons (ht : t.Succeeds Queue.maxRounds)
    (h : w.BrokenOff options lane (before ++ t.exchanges options lane)
      (count + (t.exchanges options lane).countP Exchange.defers) jobs e) :
    w.BrokenOff options lane before count (t.job :: jobs) e := by
  obtain ⟨talks, last, hprefix, htalks, hlast, h⟩ := h
  exact ⟨t :: talks, last, (List.prefix_cons_inj t.job).2 hprefix, List.forall_mem_cons.2 ⟨ht, htalks⟩,
    hlast, h.cons⟩

end Pushes

namespace Queue

open SyncCascade.Action

variable {σ β : Type} (B : Broker β) {w : World σ (Logged β)} {lane : Lane} {before : List Exchange}
  {count : Nat}

theorem request_said (c : BrokerCall) (h : w.Said lane before count) :
    (request B.logged c).Ensures w
      (fun reply w' => w'.Said lane (before ++ [⟨c, .ok reply⟩]) count)
      fun e w' => w'.Said lane (before ++ [⟨c, .error e⟩]) count := by
  have hmetrics : (request B.logged c).Ensures w
      (fun _ w' => (w'.metrics.lane lane.name).duplicates = count)
      fun _ w' => (w'.metrics.lane lane.name).duplicates = count := by
    refine Ensures.announcingIf_unread (ensures_onBroker.2 ?_) (fun _ _ _ h => h) _
    split
    · exact h.2
    · exact h.2
  exact (request_heard B c h.1).and hmetrics

/-- A job of a push is talked about until the broker has taken it or has failed, within the rounds. -/
theorem enqueue_talk (options : LaneOptions) (lane : Lane) (job : JobPayload) (rounds : Nat)
    (h : w.Said lane before count) :
    (enqueue B.logged options lane job rounds).Ensures w
      (fun new w' => ∃ t : Talk, t.job = job ∧ t.Succeeds rounds ∧ new = decide (t.ending = .added) ∧
        w'.Talked options lane before count t)
      fun e w' => ∃ t : Talk, t.job = job ∧ t.FailsWith lane rounds e ∧
        w'.Talked options lane before count t := by
  induction rounds generalizing w before with
  | zero =>
    refine ⟨⟨job, 0, .exhausted⟩, rfl, .inr ⟨rfl, rfl, rfl⟩, ?_⟩
    unfold World.Talked
    rw [show Talk.exchanges options lane ⟨job, 0, .exhausted⟩ = [] from rfl, List.append_nil]
    exact h
  | succ rounds ih =>
    unfold enqueue
    rw [ensures_bind]
    refine (request_said B _ h).mono (fun outcome w₁ h₁ => ?_) fun e w₁ h₁ => ?_
    · cases outcome with
      | added => exact ⟨⟨job, 0, .added⟩, rfl, ⟨rounds.succ_pos, .inl rfl⟩, rfl, h₁⟩
      | «exists» =>
        rw [ensures_bind]
        refine (request_said B _ h₁).mono (fun outcome w₂ h₂ => ?_) fun e w₂ h₂ => ?_
        · rw [List.append_assoc] at h₂
          cases outcome with
          | deferred n =>
            refine ensures_bind.2 (ensures_update.2 (ensures_bind.2 (ensures_update.2 ?_)))
            refine ⟨⟨job, 0, .deferred n⟩, rfl, ⟨rounds.succ_pos, .inr ⟨n, rfl⟩⟩, rfl, h₂.1, ?_⟩
            dsimp only
            rw [Metrics.lane_record]
            exact congrArg (· + 1) h₂.2
          | missing =>
            refine (ih h₂).mono ?_ ?_
            · rintro new w₃ ⟨t, rfl, ht, hnew, h₃⟩
              exact ⟨t.afterMiss, rfl, ht.afterMiss, hnew, h₃.afterMiss⟩
            · rintro e w₃ ⟨t, rfl, ht, h₃⟩
              exact ⟨t.afterMiss, rfl, ht.afterMiss, h₃.afterMiss⟩
        · rw [List.append_assoc] at h₂
          exact ⟨⟨job, 0, .deferFailed e⟩, rfl, .inl ⟨rounds.succ_pos, .inr rfl⟩, h₂⟩
    · exact ⟨⟨job, 0, .addFailed e⟩, rfl, .inl ⟨rounds.succ_pos, .inl rfl⟩, h₁⟩

/-- A push talks about its jobs one after another, up to the first talk that fails. -/
theorem publish_talks (options : LaneOptions) (lane : Lane) (report : PushReport)
    (jobs : List JobPayload) (h : w.Said lane before count) :
    (publish B.logged options lane report jobs).Ensures w
      (fun all w' => ∃ rest, w'.Finished options lane before count jobs rest ∧
        all = report ++ rest)
      fun e w' => w'.BrokenOff options lane before count jobs e := by
  induction jobs generalizing w before count report with
  | nil =>
    exact ⟨.empty, ⟨[], rfl, List.forall_mem_nil _, rfl, .nil h⟩, (PushReport.append_empty _).symm⟩
  | cons job rest ih =>
    rw [publish_cons, ensures_bind]
    refine (enqueue_talk B options lane job maxRounds h).mono ?_ ?_
    · rintro new w₁ ⟨t, rfl, ht, rfl, h₁⟩
      refine (ih _ h₁).mono ?_ fun e w' h' => h'.cons ht
      rintro _ w' ⟨_, ⟨talks, rfl, htalks, rfl, h'⟩, rfl⟩
      refine ⟨_, ⟨t :: talks, rfl, List.forall_mem_cons.2 ⟨ht, htalks⟩, rfl, h'.cons⟩, ?_⟩
      rw [Talk.report_cons, PushReport.append_assoc]
    · rintro e w₁ ⟨t, rfl, ht, h₁⟩
      exact ⟨[], t, by simp, List.forall_mem_nil _, ht, .cons (.nil h₁)⟩

theorem push_single_offered (config : QueueConfig) (kind : JobKind) (id : String)
    (h : w.Heard before) :
    (push B.logged config kind [id]).Ensures w
      (fun _ w' => Offered kind.lane (.single kind id) before true w')
      fun _ w' => Offered kind.lane (.single kind id) before false w' := by
  refine Ensures.announcing ?_ fun _ => offered_blind
  unfold formJobs
  rw [publish_cons, ensures_bind]
  refine (enqueue_talk B _ _ _ _ ⟨h, rfl⟩).mono ?_ ?_
  · rintro new w' ⟨t, hjob, ht, -, hheard, -⟩
    exact ⟨_, hheard, hjob ▸ ht.takes⟩
  · rintro e w' ⟨t, hjob, ht, hheard, -⟩
    exact ⟨_, hheard, hjob ▸ ht.takes⟩

/-- Whatever the broker answers, a push talks about the jobs that it forms in their order, each in at
most `maxRounds` rounds, and says nothing after a failure. A push that succeeds has talked about every
job and reports it once, by how its talk ended; one that fails gives the failure of its last talk. Either
way the metrics count each answer that moved a pending job back. The log changes none of this. -/
theorem push_protocol (w : World σ (Logged β)) (config : QueueConfig) (kind : JobKind)
    (ids : List String) :
    let lane := kind.lane
    let options := config.lane lane
    let jobs := formJobs options kind ids
    let count := (w.metrics.lane lane.name).duplicates
    (push B.logged config kind ids).Ensures w
        (fun report w' => w'.Finished options lane w.broker.exchanges count jobs report ∧
          report.size = jobs.length)
        (fun e w' => w'.BrokenOff options lane w.broker.exchanges count jobs e) ∧
      (push B.logged config kind ids : Action σ (Logged β) PushReport).Unlogs
        (push B config kind ids) := by
  refine ⟨?_, push_unlogs B config kind ids⟩
  refine ((publish_talks B _ _ .empty _ ⟨rfl, rfl⟩).mono ?_ fun _ _ h => h).announcing_unread
    fun _ _ _ h => h
  rintro _ w' ⟨rest, hrest, rfl⟩
  refine ⟨hrest, ?_⟩
  obtain ⟨talks, hjobs, -, rfl, -⟩ := hrest
  rw [← hjobs, List.length_map]
  exact Talk.size_report talks

example :
    let script : BrokerRehearsal :=
      ⟨[.ok .exists, .ok .exists], [.ok .missing, .ok (.deferred 4)], []⟩
    let out := (push BrokerRehearsal.broker .default .fileClosure ["f"]).run (.initial () script)
    out.1 = .ok ⟨[], ["f"]⟩ ∧ out.2.broker.calls.length = 4 := by
  decide +kernel

end Queue

end SyncCascade
