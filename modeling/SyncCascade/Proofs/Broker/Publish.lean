import SyncCascade.Proofs.Broker.Answers
import SyncCascade.Proofs.Broker.History
import SyncCascade.Proofs.Broker.Offers
import SyncCascade.Proofs.Metrics

/-!
# Publishing on lanes in memory

Between `add` and `defer` nobody can claim the job of a push, so a push on lanes in memory never
fails: every job is added to its lane, or the pending one with its identifier is moved back.
-/

namespace SyncCascade

namespace Lanes

section Calls

variable {l : Lanes} {lane : Lane} {job : JobPayload} {id : String}

theorem add_of_pending (clock : Clock) (options : LaneOptions)
    (h : (l.get lane).pending.contains job.id = true) :
    l.apply clock (.add lane job options .zero) = (.exists, l) := by
  simp [apply, step, LaneState.add, h]

theorem add_of_not_pending (clock : Clock) (options : LaneOptions)
    (h : (l.get lane).pending.contains job.id = false) :
    l.apply clock (.add lane job options .zero) =
      (.added, l.set lane ((l.get lane).offer clock.elapsed options job)) := by
  simp [apply, step, LaneState.offer, LaneState.add, h]

theorem defer_of_pending (clock : Clock) (options : LaneOptions)
    (h : (l.get lane).pending.contains job.id = true) :
    ∃ n, l.apply clock (.defer lane job.id options.dedupDelay) =
      (.deferred n, l.set lane ((l.get lane).offer clock.elapsed options job)) := by
  obtain ⟨j, hj⟩ := Table.contains_eq_true.1 h
  exact ⟨j.payload.dedupCount + 1, by simp [apply, step, LaneState.offer, LaneState.defer, h, hj]⟩

theorem defer_of_not_pending (clock : Clock) (delay : Timespan)
    (h : (l.get lane).pending.contains id = false) :
    l.apply clock (.defer lane id delay) = (.missing, l) := by
  simp [apply, step, LaneState.defer, Table.contains_eq_false.1 h]

end Calls

def pushed (clock : Clock) (config : QueueConfig) (kind : JobKind) (ids : List String) (l : Lanes) :
    Lanes :=
  l.set kind.lane ((l.get kind.lane).offerAll clock.elapsed (config.lane kind.lane)
    (Queue.formJobs (config.lane kind.lane) kind ids))

end Lanes

def World.duplicates {σ β : Type} (w : World σ β) (lane : Lane) : Nat :=
  (w.metrics.lane lane.name).duplicates

/-- The world after the offers on a lane, but for the journal: the repetitions among them are counted on
the lane. -/
structure World.Accepted {σ : Type} (lane : Lane) (os : List Offer) (w w' : World σ Lanes) : Prop where
  store : w'.store = w.store
  clock : w'.clock = w.clock
  broker : w'.broker = w.broker.set lane ((w.broker.get lane).acceptAll os)
  duplicates : ∀ lane', w'.duplicates lane' = w.duplicates lane' +
    if lane' = lane then ((w.broker.get lane).replies os).deduplicated.length else 0

namespace World.Accepted

variable {σ : Type} {lane : Lane} {os more : List Offer} {w w' w'' : World σ Lanes}

theorem refl (lane : Lane) (w : World σ Lanes) : w.Accepted lane [] w where
  store := rfl
  clock := rfl
  broker := (w.broker.set_get lane).symm
  duplicates lane' := by split <;> rfl

theorem trans (h : w.Accepted lane os w') (h' : w'.Accepted lane more w'') :
    w.Accepted lane (os ++ more) w'' := by
  have hlane : w'.broker.get lane = (w.broker.get lane).acceptAll os := by
    rw [h.broker, Lanes.get_set_self]
  refine ⟨h'.store.trans h.store, h'.clock.trans h.clock, ?_, fun lane' => ?_⟩
  · rw [h'.broker, hlane, h.broker, Lanes.set_set, LaneState.acceptAll_append]
  · rw [h'.duplicates, h.duplicates, hlane, LaneState.replies_append,
      PushReport.deduplicated_append, List.length_append, Nat.add_assoc]
    split <;> rfl

theorem standing {P : σ → Prop} {l : Lanes} {clock : Clock} (h : w.Accepted lane os w')
    (hw : w.Standing P l clock) :
    w'.Standing P (l.set lane ((l.get lane).acceptAll os)) clock := by
  obtain ⟨hstore, rfl, rfl⟩ := hw
  exact ⟨h.store ▸ hstore, h.broker, h.clock⟩

end World.Accepted

namespace Queue

variable {σ : Type} {P : σ → Prop} {l : Lanes} {clock : Clock} {w : World σ Lanes}

open SyncCascade.Action

theorem request_ensures (h : World.Standing P l clock w) (c : BrokerCall) :
    (request Lanes.broker c).Ensures w
      (fun reply w' => reply = (l.apply clock c).1 ∧ World.Standing P (l.apply clock c).2 clock w')
      fun _ _ => False := by
  obtain ⟨hstore, rfl, rfl⟩ := h
  refine Ensures.announcingIf (ensures_onBroker.2 ?_) (fun _ _ _ _ h => h) _
  exact ⟨rfl, hstore, rfl, rfl⟩

/-- Nobody can claim a pending job between the two calls, so one round is enough. -/
theorem enqueue_accepted (options : LaneOptions) (lane : Lane) (job : JobPayload) (rounds : Nat) :
    (enqueue Lanes.broker options lane job (rounds + 1)).Ensures w
      (fun new w' => w.Accepted lane [⟨w.clock.elapsed, options, job⟩] w' ∧
        new = !(w.broker.get lane).pending.contains job.id)
      fun _ _ => False := by
  unfold enqueue
  refine request_rule ?_
  unfold World.answer World.told
  cases hp : (w.broker.get lane).pending.contains job.id with
  | false =>
    rw [Lanes.add_of_not_pending w.clock options hp]
    refine ⟨⟨rfl, rfl, rfl, fun lane' => ?_⟩, rfl⟩
    rw [LaneState.replies_singleton, LaneState.reply_of_new hp]
    split <;> rfl
  | true =>
    rw [Lanes.add_of_pending w.clock options hp]
    refine request_rule ?_
    unfold World.answer World.told
    dsimp only
    obtain ⟨n, hdefer⟩ := Lanes.defer_of_pending w.clock options hp
    rw [hdefer]
    refine ensures_bind.2 (ensures_update.2 (ensures_bind.2 (ensures_update.2 ?_)))
    refine ⟨⟨rfl, rfl, rfl, fun lane' => ?_⟩, rfl⟩
    rw [LaneState.replies_singleton, LaneState.reply_of_pending hp]
    exact Metrics.duplicates_record ..

theorem publish_accepted (options : LaneOptions) (lane : Lane) (report : PushReport)
    (jobs : List JobPayload) :
    (publish Lanes.broker options lane report jobs).Ensures w
      (fun all w' =>
        let os := jobs.map (Offer.mk w.clock.elapsed options)
        w.Accepted lane os w' ∧ all = report ++ (w.broker.get lane).replies os)
      fun _ _ => False := by
  induction jobs generalizing w report with
  | nil => exact ⟨.refl lane w, (PushReport.append_empty report).symm⟩
  | cons job rest ih =>
    rw [publish_cons, ensures_bind]
    refine (enqueue_accepted options lane job _).mono ?_ fun _ _ h => h
    rintro new w₁ ⟨h₁, rfl⟩
    refine (ih _).mono ?_ fun _ _ h => h
    rintro _ w' ⟨h', rfl⟩
    rw [h₁.clock] at h' ⊢
    refine ⟨h₁.trans h', ?_⟩
    rw [h₁.broker, Lanes.get_set_self, PushReport.append_assoc]
    rfl

theorem push_accepted (config : QueueConfig) (kind : JobKind) (ids : List String) :
    (push Lanes.broker config kind ids).Ensures w
      (fun report w' =>
        let options := config.lane kind.lane
        let os := (formJobs options kind ids).map (Offer.mk w.clock.elapsed options)
        w.Accepted kind.lane os w' ∧ report = (w.broker.get kind.lane).replies os)
      fun _ _ => False :=
  (publish_accepted _ _ .empty _).announcing fun _ _ _ _ h => h

theorem push_ensures (config : QueueConfig) (kind : JobKind) (ids : List String)
    (h : World.Standing P l clock w) :
    (push Lanes.broker config kind ids).Ensures w
      (fun _ w' => World.Standing P (l.pushed clock config kind ids) clock w') fun _ _ => False := by
  refine (push_accepted config kind ids).mono (fun report w' hw' => ?_) fun _ _ h => h
  obtain ⟨hstore, rfl, rfl⟩ := h
  have hw' := hw'.1.standing ⟨hstore, rfl, rfl⟩
  rw [LaneState.acceptAll_map] at hw'
  exact hw'

end Queue

end SyncCascade
