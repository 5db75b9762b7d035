import SyncCascade.Proofs.Batch
import SyncCascade.Proofs.Cascade.Jobs
import SyncCascade.Proofs.Delivery

/-!
# Handlers publish forwards only

Closing changesets publishes files, closing files publishes syncs, and closing syncs publishes nothing.
So what a handler publishes is on the lane behind its own; its own lane and the earlier ones stand as
they stood. Where every member of a job is an identifier and no commit is made to fail, the handler
succeeds.
-/

namespace SyncCascade

/-- The lane to which the jobs of the lane publish. -/
def Lane.next? : Lane → Option Lane
  | changesets => some files
  | files => some syncs
  | syncs => none

/-- A job that the lane is there for: of its kind, and every member an identifier. -/
def Lane.Suits (lane : Lane) (p : JobPayload) : Prop := p.kind = lane.jobKind ∧ p.Readable

instance (p : JobPayload) : Decidable p.Readable :=
  inferInstanceAs (Decidable (∀ s ∈ p.memberIds, (Uuid.parse? s).isSome = true))

instance (lane : Lane) (p : JobPayload) : Decidable (lane.Suits p) :=
  inferInstanceAs (Decidable (p.kind = lane.jobKind ∧ p.Readable))

theorem Lane.suits_aboutWork (lane : Lane) : AboutWork lane.Suits := by
  intro p q hsame hp
  refine ⟨hsame.2.1 ▸ hp.1, ?_⟩
  unfold JobPayload.Readable
  rw [← hsame.memberIds_eq]
  exact hp.2

theorem Queue.formJobs_suits {α : Type} [Identifier α] (options : LaneOptions) (kind : JobKind)
    (as : List α) {job : JobPayload} (h : job ∈ formJobs options kind (as.map Identifier.text)) :
    kind.lane.Suits job := by
  have hlane : kind.lane.jobKind = kind := by cases kind <;> rfl
  constructor
  · rw [hlane]
    rcases of_mem_formJobs h with ⟨s, -, rfl⟩ | ⟨m, rfl, -⟩ <;> rfl
  · intro s hs
    obtain ⟨a, -, rfl⟩ := List.mem_map.1 (mem_of_mem_formJobs h hs)
    simp [Identifier.text, Uuid.parse?_text]

namespace Lanes

/-- Between the lanes `l` and `l'` jobs were published on the lane behind this one, and nothing else
happened. -/
structure Forwards (lane : Lane) (l l' : Lanes) : Prop where
  apart : ∀ lane', lane.next? ≠ some lane' → l'.get lane' = l.get lane'
  active : ∀ lane', (l'.get lane').active = (l.get lane').active
  failed : ∀ lane', (l'.get lane').failed = (l.get lane').failed
  suits : l.Carries Lane.Suits → l'.Carries Lane.Suits

namespace Forwards

variable {lane : Lane} {l l' l'' : Lanes}

theorem refl (lane : Lane) (l : Lanes) : Forwards lane l l :=
  ⟨fun _ _ => rfl, fun _ => rfl, fun _ => rfl, fun h => h⟩

theorem trans (h : Forwards lane l l') (h' : Forwards lane l' l'') : Forwards lane l l'' where
  apart lane' hne := (h'.apart lane' hne).trans (h.apart lane' hne)
  active lane' := (h'.active lane').trans (h.active lane')
  failed lane' := (h'.failed lane').trans (h.failed lane')
  suits hl := h'.suits (h.suits hl)

theorem pushed {α : Type} [Identifier α] (clock : Clock) (queue : QueueConfig) (kind : JobKind)
    (hnext : lane.next? = some kind.lane) (as : List α) (l : Lanes) :
    Forwards lane l (l.pushed clock queue kind (as.map Identifier.text)) where
  apart _ hne := get_set_of_ne _ _ fun heq => hne (heq ▸ hnext)
  active := Cascade.pushed_active
  failed := Cascade.pushed_failed
  suits hl := Cascade.pushed_carries kind Lane.suits_aboutWork hl fun _ => Queue.formJobs_suits _ kind as

theorem notified (clock : Clock) (queue : QueueConfig) (l : Lanes) (owner : Option SyncId) :
    Forwards .files l (Cascade.notified clock queue l owner) := by
  cases owner with
  | none => exact refl .files l
  | some sync => exact pushed clock queue .syncClosure rfl [sync] l

end Forwards

end Lanes

namespace Delivery

variable {transaction : TransactionConfig} {queue : QueueConfig} {p : JobPayload} {lane : Lane}

theorem pass_forwards {α ρ : Type} {next : State → α → ρ × State}
    (hnext : ∀ s a, Lanes.Forwards lane s.lanes (next s a).2.lanes) (s : State) (as : List α) :
    Lanes.Forwards lane s.lanes (pass next s as).2.lanes := by
  induction as generalizing s with
  | nil => exact .refl lane s.lanes
  | cons a rest ih => exact (hnext s a).trans (ih (next s a).2)

/-- The handler of a job that suits its lane takes the state somewhere, and it publishes forwards. -/
theorem handle_forwards (transaction : TransactionConfig) (queue : QueueConfig) (hp : lane.Suits p) :
    ∃ report after stops,
      Handles transaction.retry ((engine transaction queue).handle p) report after stops ∧
      ∀ clock s, Lanes.Forwards lane s.lanes (after clock s).lanes := by
  obtain ⟨hkind, hread⟩ := hp
  cases lane with
  | changesets =>
    obtain ⟨ids, hids⟩ : ∃ ids : List ChangesetId, Engine.parseMembers p.memberIds = .ok ids :=
      Engine.parseMembers_of_readable hread
    rw [Engine.handle_changesets hkind hids]
    exact ⟨_, _, _, handles_changesets p.id ids, fun clock s =>
      .pushed clock queue .fileClosure rfl _ s.lanes⟩
  | files =>
    obtain ⟨ids, hids⟩ : ∃ ids : List FileId, Engine.parseMembers p.memberIds = .ok ids :=
      Engine.parseMembers_of_readable hread
    rw [Engine.handle_files hkind hids]
    exact ⟨_, _, _, handles_each (closeFile_ensures p.id) ids _, fun clock s =>
      pass_forwards (fun s _ => .notified clock queue s.lanes _) s ids⟩
  | syncs =>
    obtain ⟨ids, hids⟩ : ∃ ids : List SyncId, Engine.parseMembers p.memberIds = .ok ids :=
      Engine.parseMembers_of_readable hread
    rw [Engine.handle_syncs hkind hids]
    exact ⟨_, _, _, handles_each (closeSync_ensures p.id) ids _, fun clock s =>
      pass_forwards (fun s _ => .refl .syncs s.lanes) s ids⟩

end Delivery

namespace Cascade

open SyncCascade.Action

/-- Where any attempt is allowed and no commit is made to fail, the handler of a job that suits its lane
succeeds, and nothing is published on this lane or an earlier one. -/
theorem handle_succeeds {transaction : TransactionConfig} (hallowed : 0 < transaction.retry.attempts)
    (queue : QueueConfig) {lane : Lane} {p : JobPayload} (hp : lane.Suits p) {w : World Session Lanes}
    (hquiet : w.store.failingCommits = 0) :
    ((cascade transaction queue).handle p).Ensures w
      (fun _ w' => w'.store.failingCommits = 0 ∧ w'.clock = w.clock ∧
        Lanes.Forwards lane w.broker w'.broker)
      fun _ _ => False := by
  obtain ⟨report, after, stops, hhandles, hforwards⟩ := Delivery.handle_forwards transaction queue hp
  have hstart : Delivery.Has True ⟨w.store.committed, w.broker⟩ w.clock
      (w.withStore ⟨w.store, []⟩) := ⟨⟨rfl, fun _ => ⟨rfl, hquiet⟩⟩, rfl, rfl⟩
  have hensures := hhandles _ _ _ _ hstart
  unfold Ensures at hensures ⊢
  rw [Delivery.handle_undisturbed] at hensures
  generalize ((cascade transaction queue).handle p).run w = out at hensures ⊢
  obtain ⟨r | r, w'⟩ := out
  · exact absurd (hensures.1 trivial) (Nat.ne_of_gt hallowed)
  · obtain ⟨-, ⟨-, hquiet'⟩, hlanes, hclock⟩ := hensures
    have hlanes : w'.broker = (after w.clock ⟨w.store.committed, w.broker⟩).lanes := hlanes
    refine ⟨(hquiet' trivial).2, hclock, ?_⟩
    rw [hlanes]
    exact hforwards w.clock ⟨w.store.committed, w.broker⟩

end Cascade

end SyncCascade
