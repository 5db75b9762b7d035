import Mathlib.Data.List.MinMax
import SyncCascade.Proofs.Cascade.Coverage
import SyncCascade.Proofs.Cascade.Forwarding
import SyncCascade.Proofs.Worker.Turn

/-!
# Draining the lanes

A worker looks at the lane of changesets until it finds nothing there, then one at the lane of files, then
one at the lane of syncs, each time after every pending job has become ready. Every look that finds a job
completes it, so the lane has one pending job less. What its handler publishes goes to the lane behind,
which is drained later; so each lane is drained once, and draining them ends.
-/

namespace SyncCascade

/-- Nothing is claimed, and every pending job suits its lane and stands under its own identifier. -/
structure Lanes.Drainable (l : Lanes) : Prop where
  suits : l.Carries Lane.Suits
  unclaimed : ∀ lane, (l.get lane).active.size = 0

namespace Lanes

variable {lane : Lane} {l l' : Lanes} {now : Nat} {clock clock' : Clock} {lease : Timespan}
  {job : QueuedJob}

/-- Between the lanes `l` and `l'` a job of this lane was claimed, handled and completed. -/
structure Settles (lane : Lane) (l l' : Lanes) : Prop where
  drainable : l'.Drainable
  failed : ∀ lane', (l'.get lane').failed = (l.get lane').failed
  fewer : (l'.get lane).pending.size + 1 = (l.get lane).pending.size
  apart : ∀ lane', lane' ≠ lane → lane.next? ≠ some lane' → l'.get lane' = l.get lane'

/-- The handler leaves its own lane as the claim left it, so the job is completed. -/
theorem Drainable.settles (hl : l.Drainable) (hnext : (l.get lane).nextJob clock.elapsed = some job)
    (hforwards : Forwards lane (l.apply clock (.claim lane lease)).2 l') (clock' : Clock) :
    (l'.apply clock' (.complete lane job.payload.id ((l.get lane).seq + 1))).1 = true ∧
      Settles lane l (l'.apply clock' (.complete lane job.payload.id ((l.get lane).seq + 1))).2 := by
  have hself : lane.next? ≠ some lane := by cases lane <;> decide
  have hclaim : (l.apply clock (.claim lane lease)).2 =
      l.set lane ((l.get lane).claimed job (clock.elapsed + lease.nanos)) :=
    congrArg Prod.snd (claim_of_nextJob lease hnext)
  have hlane : l'.get lane = (l.get lane).claimed job (clock.elapsed + lease.nanos) := by
    rw [hforwards.apart lane hself, hclaim, get_set_self]
  obtain ⟨hpending, -, -⟩ := LaneState.nextJob_eq_some (hl.suits lane) hnext
  obtain ⟨htrue, hfewer, hactive, hfailed⟩ := LaneState.complete_claimed
    (clock.elapsed + lease.nanos) (hl.unclaimed lane) (Table.contains_eq_true.2 ⟨job, hpending⟩)
  have hother : ∀ lane', lane' ≠ lane →
      (l'.apply clock' (.complete lane job.payload.id ((l.get lane).seq + 1))).2.get lane' =
        l'.get lane' := fun lane' hne => apply_get_of_ne l' clock' hne
  have hbefore : ∀ lane', lane' ≠ lane → (l.apply clock (.claim lane lease)).2.get lane' = l.get lane' :=
    fun lane' hne => apply_get_of_ne l clock hne
  have hown : (l'.apply clock' (.complete lane job.payload.id ((l.get lane).seq + 1))).2.get lane =
      (((l.get lane).claimed job (clock.elapsed + lease.nanos)).complete job.payload.id
        ((l.get lane).seq + 1)).2 := by
    unfold apply
    rw [step_snd, get_set_self, hlane]
  refine ⟨?_, ⟨?_, fun lane' => ?_⟩, fun lane' => ?_, ?_, fun lane' hne hnot => ?_⟩
  · unfold apply
    rw [step_fst, hlane]
    exact htrue
  · exact carries_apply Lane.suits_aboutWork
      (hforwards.suits (carries_apply Lane.suits_aboutWork hl.suits clock nofun)) clock' nofun
  · by_cases hne : lane' = lane
    · rw [hne, hown]
      exact hactive
    · rw [hother lane' hne, hforwards.active, hbefore lane' hne]
      exact hl.unclaimed lane'
  · by_cases hne : lane' = lane
    · rw [hne, hown]
      exact hfailed
    · rw [hother lane' hne, hforwards.failed, hbefore lane' hne]
  · rw [hown]
    exact hfewer
  · rw [hother lane' hne, hforwards.apart lane' hnot, hbefore lane' hne]

end Lanes

/-- The workers, and how the clock moves before each of their looks. -/
structure Drain where
  transaction : TransactionConfig
  queue : QueueConfig
  config : Lane → WorkerConfig
  /-- A transaction is attempted at all. -/
  allowed : 0 < transaction.retry.attempts
  clock : Nat → World Session Lanes → Clock
  /-- It has moved past the time at which any pending job becomes ready. -/
  past : ∀ n w lane, ∀ job ∈ (w.broker.get lane).pending.rows, job.readyAt ≤ (clock n w).elapsed

namespace Drain

/-- How far the draining has come. -/
structure Progress where
  /-- The lanes that have not been found idle. -/
  lanes : List Lane
  /-- What the looks came to, the first one first. -/
  outcomes : List (Except Failure JobOutcome)
  world : World Session Lanes

variable (D : Drain)

def worker (lane : Lane) : Worker Session Lanes :=
  Cascade.worker D.transaction D.queue lane (D.config lane)

def wait (n : Nat) (w : World Session Lanes) : World Session Lanes := { w with clock := D.clock n w }

/-- The look with the number `n`, at this lane. -/
def look (lane : Lane) (n : Nat) (w : World Session Lanes) :
    Except Failure JobOutcome × World Session Lanes :=
  (D.worker lane).processNext.run (D.wait n w)

/-- One look at the first lane that is left; a lane that is idle is left behind. -/
def step (p : Progress) : Progress :=
  match p.lanes with
  | [] => p
  | lane :: rest =>
    let (outcome, w) := D.look lane p.outcomes.length p.world
    { lanes := if outcome = .ok .idle then rest else lane :: rest
      outcomes := p.outcomes ++ [outcome]
      world := w }

def after (w : World Session Lanes) : Nat → Progress
  | 0 => ⟨Lane.all, [], w⟩
  | n + 1 => D.step (after w n)

/-- A job was completed, or there was none. -/
def Fine (outcome : Except Failure JobOutcome) : Prop :=
  outcome = .ok .idle ∨ ∃ job result, outcome = .ok (.completed job result)

/-- Every lane was found idle once, and every other look completed a job. In the end all lanes are idle,
and none has a record of a failed job that it did not have. -/
structure Drained (w : World Session Lanes) (p : Progress) : Prop where
  lanes : p.lanes = []
  outcomes : ∀ outcome ∈ p.outcomes, Fine outcome
  idle : ∀ lane, (p.world.broker.get lane).Idle
  failed : ∀ lane, (p.world.broker.get lane).failed = (w.broker.get lane).failed

/-- What holds between two looks. -/
structure Steady (w : World Session Lanes) (p : Progress) : Prop where
  quiet : p.world.store.failingCommits = 0
  drainable : p.world.broker.Drainable
  failed : ∀ lane, (p.world.broker.get lane).failed = (w.broker.get lane).failed
  outcomes : ∀ outcome ∈ p.outcomes, Fine outcome

variable {D} {w : World Session Lanes} {p : Progress} {lane : Lane} {rest : List Lane} {n : Nat}

open SyncCascade.Action

theorem look_completes (n : Nat) (hquiet : w.store.failingCommits = 0) (hl : w.broker.Drainable)
    (hpending : (w.broker.get lane).pending.size ≠ 0) :
    (∃ job result, (D.look lane n w).1 = .ok (.completed job result)) ∧
      (D.look lane n w).2.store.failingCommits = 0 ∧
      Lanes.Settles lane w.broker (D.look lane n w).2.broker := by
  obtain ⟨job, hnext⟩ := LaneState.exists_nextJob (hl.unclaimed lane) (D.past n w lane) hpending
  have hclaim : (D.wait n w).answer (D.worker lane).claimCall =
      some ⟨job.payload, (w.broker.get lane).seq + 1, job.attemptsMade, job.maxAttempts⟩ :=
    congrArg Prod.fst (Lanes.claim_of_nextJob (D.config lane).lease hnext)
  have hsuits := ((hl.suits lane).pending (LaneState.nextJob_eq_some (hl.suits lane) hnext).1).2
  have hensures : (D.worker lane).processNext.Ensures (D.wait n w)
      (fun outcome w' => (∃ job result, outcome = .completed job result) ∧
        w'.store.failingCommits = 0 ∧ Lanes.Settles lane w.broker w'.broker)
      fun _ _ => False := by
    refine Worker.processNext_rule rfl (fun _ _ _ _ h => h) (fun hidle => ?_)
      fun claimed journal metrics hreply => ?_
    · exact absurd (hclaim.symm.trans hidle) nofun
    · obtain rfl := Option.some.inj (hclaim.symm.trans hreply)
      refine (Cascade.handle_succeeds D.allowed D.queue hsuits
        (w := ((D.wait n w).told (D.worker lane).claimCall).observed journal metrics) hquiet).mono
        (fun value w' h => ?_) fun _ _ h => h.elim
      obtain ⟨hquiet', -, hforwards⟩ := h
      obtain ⟨hreply, hsettles⟩ := hl.settles hnext hforwards w'.clock
      exact ⟨⟨job.payload.id, value, if_pos hreply⟩, hquiet', hsettles⟩
  obtain ⟨outcome, houtcome, ⟨id, result, rfl⟩, hquiet', hsettles⟩ := hensures.exists_ok
  exact ⟨⟨id, result, houtcome⟩, hquiet', hsettles⟩

theorem look_idle (n : Nat) (hpending : (w.broker.get lane).pending.size = 0) :
    (D.look lane n w).1 = .ok .idle ∧ (D.look lane n w).2.store = w.store ∧
      (D.look lane n w).2.broker = w.broker := by
  have hnone := LaneState.nextJob_of_size_eq_zero hpending (D.clock n w).elapsed
  have hclaim := Lanes.claim_of_idle (D.config lane).lease hnone
  have hanswer : (D.wait n w).answer (D.worker lane).claimCall = none := congrArg Prod.fst hclaim
  have htold : ((D.wait n w).told (D.worker lane).claimCall).broker = w.broker :=
    congrArg Prod.snd hclaim
  have hensures : (D.worker lane).processNext.Ensures (D.wait n w)
      (fun outcome w' => outcome = .idle ∧ w'.store = w.store ∧ w'.broker = w.broker)
      fun _ _ => False := by
    refine Worker.processNext_rule rfl (fun _ _ _ _ h => h) (fun _ => ⟨rfl, rfl, htold⟩)
      fun claimed journal metrics hreply => ?_
    exact absurd (hanswer.symm.trans hreply) nofun
  obtain ⟨outcome, houtcome, rfl, hstore, hbroker⟩ := hensures.exists_ok
  exact ⟨houtcome, hstore, hbroker⟩

theorem step_eq (hlanes : p.lanes = lane :: rest) :
    D.step p =
      { lanes := if (D.look lane p.outcomes.length p.world).1 = .ok .idle then rest else lane :: rest
        outcomes := p.outcomes ++ [(D.look lane p.outcomes.length p.world).1]
        world := (D.look lane p.outcomes.length p.world).2 } := by
  simp only [step, hlanes]

theorem Steady.step_completes (h : Steady w p) (hlanes : p.lanes = lane :: rest)
    (hpending : (p.world.broker.get lane).pending.size ≠ 0) :
    Steady w (D.step p) ∧ (D.step p).lanes = lane :: rest ∧
      Lanes.Settles lane p.world.broker (D.step p).world.broker := by
  obtain ⟨⟨job, result, houtcome⟩, hquiet, hsettles⟩ :=
    look_completes (D := D) p.outcomes.length h.quiet h.drainable hpending
  rw [step_eq hlanes, houtcome]
  refine ⟨⟨hquiet, hsettles.drainable, fun lane' => ?_, fun outcome hmem => ?_⟩, by simp, hsettles⟩
  · exact (hsettles.failed lane').trans (h.failed lane')
  · rcases List.mem_append.1 hmem with hmem | hmem
    · exact h.outcomes outcome hmem
    · exact .inr ⟨job, result, List.mem_singleton.1 hmem⟩

theorem Steady.step_idle (h : Steady w p) (hlanes : p.lanes = lane :: rest)
    (hpending : (p.world.broker.get lane).pending.size = 0) :
    Steady w (D.step p) ∧ (D.step p).lanes = rest ∧
      (D.step p).world.broker = p.world.broker := by
  obtain ⟨houtcome, hstore, hbroker⟩ := look_idle (D := D) p.outcomes.length hpending
  rw [step_eq hlanes, houtcome]
  refine ⟨⟨?_, ?_, ?_, fun outcome hmem => ?_⟩, by simp, hbroker⟩
  · rw [hstore]
    exact h.quiet
  · rw [hbroker]
    exact h.drainable
  · rw [hbroker]
    exact h.failed
  · rcases List.mem_append.1 hmem with hmem | hmem
    · exact h.outcomes outcome hmem
    · exact .inl (List.mem_singleton.1 hmem)

/-- The first lane that is left is found idle some time. By then only the lane behind it has changed. -/
theorem Steady.drains {m : Nat} (h : Steady w (D.after w m))
    (hlanes : (D.after w m).lanes = lane :: rest) :
    ∃ n, Steady w (D.after w n) ∧ (D.after w n).lanes = rest ∧
      ((D.after w n).world.broker.get lane).pending.size = 0 ∧
      ∀ lane', lane' ≠ lane → lane.next? ≠ some lane' →
        (D.after w n).world.broker.get lane' = (D.after w m).world.broker.get lane' := by
  -- Every look takes one job from the pending ones of the lane.
  generalize hpending : ((D.after w m).world.broker.get lane).pending.size = left
  induction left generalizing m with
  | zero =>
    obtain ⟨hsteady, hrest, hbroker⟩ := h.step_idle (D := D) hlanes hpending
    exact ⟨m + 1, hsteady, hrest, hbroker ▸ hpending, fun lane' _ _ => hbroker ▸ rfl⟩
  | succ left ih =>
    obtain ⟨hsteady, hsame, hsettles⟩ := h.step_completes (D := D) hlanes (by omega)
    have hleft : ((D.after w (m + 1)).world.broker.get lane).pending.size = left := by
      have hfewer := hsettles.fewer
      rw [hpending] at hfewer
      exact Nat.succ.inj hfewer
    obtain ⟨n, hn, hrest, hempty, hapart⟩ := ih (m := m + 1) hsteady hsame hleft
    exact ⟨n, hn, hrest, hempty, fun lane' hne hnot =>
      (hapart lane' hne hnot).trans (hsettles.apart lane' hne hnot)⟩

/-- Draining the lanes of changesets, of files and of syncs ends: all jobs are completed then, and none
has failed. -/
theorem draining_ends (D : Drain) {w : World Session Lanes} (hquiet : w.store.failingCommits = 0)
    (hl : w.broker.Drainable) : ∃ n, Drained w (D.after w n) := by
  have hstart : Steady w (D.after w 0) :=
    ⟨hquiet, hl, fun _ => rfl, fun _ hmem => absurd hmem List.not_mem_nil⟩
  obtain ⟨n₁, h₁, hlanes₁, hchangesets, -⟩ := hstart.drains rfl
  obtain ⟨n₂, h₂, hlanes₂, hfiles, hkept₂⟩ := h₁.drains hlanes₁
  obtain ⟨n₃, h₃, hlanes₃, hsyncs, hkept₃⟩ := h₂.drains hlanes₂
  -- Draining a lane changes none of the lanes before it.
  rw [← hkept₂ .changesets nofun nofun, ← hkept₃ .changesets nofun nofun] at hchangesets
  rw [← hkept₃ .files nofun nofun] at hfiles
  refine ⟨n₃, hlanes₃, h₃.outcomes, fun lane => ⟨?_, h₃.drainable.unclaimed lane⟩, h₃.failed⟩
  cases lane with
  | changesets => exact hchangesets
  | files => exact hfiles
  | syncs => exact hsyncs

/-- Every look comes when the last pending job has become ready. -/
def prompt : Drain where
  transaction := .default
  queue := .default
  config _ := .default
  allowed := by decide
  clock _ w := ⟨⟨0, 0⟩, ((Lane.all.flatMap fun lane =>
    (w.broker.get lane).pending.rows.map QueuedJob.readyAt).foldr max 0)⟩
  past _ w lane job hjob := by
    refine List.le_max_of_le' 0 (List.mem_flatMap.2 ⟨lane, ?_, List.mem_map_of_mem hjob⟩) le_rfl
    cases lane <;> decide

open Cascade.Sample

/-- The changeset of the small hierarchy waits, and so do its file, in a batch, and its sync. -/
def backlog : List BrokerCall := [
  .add .changesets (.single .changesetClosure (Identifier.text changeset)) .default .zero,
  .add .files { JobPayload.single .fileClosure "batch" with batchIds := some [Identifier.text file] }
    .default .zero,
  .add .syncs (.single .syncClosure (Identifier.text sync)) .default .zero]

def behind : World Session Lanes :=
  .initial (.ofDatabase database) (Lanes.empty.after (backlog.map fun c => ⟨⟨⟨0, 0⟩, 0⟩, c⟩))

theorem behind_drainable : behind.broker.Drainable := by
  refine ⟨?_, fun lane => by cases lane <;> rfl⟩
  change (Lanes.empty.after (backlog.map fun c => ⟨⟨⟨0, 0⟩, 0⟩, c⟩)).Carries Lane.Suits
  refine Lanes.after_carries Lane.suits_aboutWork Lanes.carries_empty fun e he p hp => ?_
  have hall : ∀ c ∈ backlog, ∀ p ∈ c.brings, c.lane.Suits p := by decide +kernel
  obtain ⟨c, hc, rfl⟩ := List.mem_map.1 he
  exact hall c hc p hp

/-- The batch closes the file, so the job that its changeset publishes finds it closed; the sync that the
file publishes has a job already. -/
theorem draining_ends_backlog :
    behind.store.failingCommits = 0 ∧ behind.broker.Drainable ∧
      (∃ n, Drained behind (prompt.after behind n)) ∧
      (prompt.after behind 6).lanes = [.syncs] ∧ (prompt.after behind 7).lanes = [] :=
  ⟨rfl, behind_drainable, draining_ends prompt rfl behind_drainable, by decide +kernel,
    by decide +kernel⟩

end Drain

end SyncCascade
