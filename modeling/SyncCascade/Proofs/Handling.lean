import SyncCascade.Proofs.Broker.History
import SyncCascade.Proofs.Members
import SyncCascade.Proofs.Worker.Turn
import SyncCascade.Store.Session

/-!
# What a delivery does with the members of its job

The handler reads all members of a job before its first step. A malformed one, wherever it stands, stops
the delivery before any effect, and costs the job one attempt. Otherwise the members are closed one after
another up to the first failure, or all at once where they are changesets.
-/

namespace SyncCascade

namespace Action

variable {σ β α ρ : Type} {step : α → Action σ β ρ} {w w' : World σ β} {as : List α}
  {rs : List ρ} {e : Failure}

/-- The step succeeded on these one after another, with one result for each. -/
inductive Ran (step : α → Action σ β ρ) : World σ β → List α → List ρ → World σ β → Prop
  | nil (w : World σ β) : Ran step w [] [] w
  | cons {w w₁ w' : World σ β} {a : α} {as : List α} {r : ρ} {rs : List ρ}
      (h : (step a).run w = (.ok r, w₁)) (hrest : Ran step w₁ as rs w') :
      Ran step w (a :: as) (r :: rs) w'

theorem run_each_cons (step : α → Action σ β ρ) (a : α) (rest : List α) (w : World σ β) :
    (Engine.each step (a :: rest)).run w =
      match (step a).run w with
      | (.ok r, w₁) =>
        match (Engine.each step rest).run w₁ with
        | (.ok rs, w₂) => (.ok (r :: rs), w₂)
        | (.error e, w₂) => (.error e, w₂)
      | (.error e, w₁) => (.error e, w₁) := by
  rw [Engine.each, run_bind]
  obtain ⟨r | r, w₁⟩ := (step a).run w
  · rfl
  · dsimp only
    rw [run_bind]
    obtain ⟨rs | rs, w₂⟩ := (Engine.each step rest).run w₁ <;> rfl

theorem run_each_ok_iff : (Engine.each step as).run w = (.ok rs, w') ↔ Ran step w as rs w' := by
  induction as generalizing w rs with
  | nil =>
    constructor
    · rintro ⟨⟩
      exact .nil _
    · rintro ⟨⟩
      rfl
  | cons a rest ih =>
    rw [run_each_cons]
    constructor
    · intro h
      split at h
      next r w₁ hstep =>
        split at h
        next rs' w₂ hrest =>
          cases h
          exact .cons hstep (ih.1 hrest)
        next => cases h
      next => cases h
    · rintro (_ | ⟨hstep, hrest⟩)
      rw [hstep]
      dsimp only
      rw [ih.2 hrest]

theorem run_each_error_iff :
    (Engine.each step as).run w = (.error e, w') ↔ ∃ done a rest rs w₁, as = done ++ a :: rest ∧
      Ran step w done rs w₁ ∧ (step a).run w₁ = (.error e, w') := by
  constructor
  · intro h
    induction as generalizing w with
    | nil => cases h
    | cons a rest ih =>
      rw [run_each_cons] at h
      split at h
      next r w₁ hstep =>
        split at h
        next => cases h
        next hrest =>
          cases h
          obtain ⟨done, a', rest', rs, w₂, rfl, hran, hfail⟩ := ih hrest
          exact ⟨a :: done, a', rest', r :: rs, w₂, rfl, .cons hstep hran, hfail⟩
      next hstep =>
        cases h
        exact ⟨[], a, rest, [], w, rfl, .nil w, hstep⟩
  · rintro ⟨done, a, rest, rs, w₁, rfl, hran, hfail⟩
    induction hran with
    | nil w =>
      rw [List.nil_append, run_each_cons, hfail]
    | cons hstep _ ih =>
      rw [List.cons_append, run_each_cons, hstep]
      dsimp only
      rw [ih hfail]

end Action

/-- One result is reported by itself, others as the list of them. -/
inductive Reported : List Json → Json → Prop
  | single (j : Json) : Reported [j] j
  | list {js : List Json} (h : js.length ≠ 1) : Reported js (.array js)

theorem reported_iff {js : List Json} {j : Json} : Reported js j ↔ j = Json.singleOrAll js := by
  constructor
  · rintro (_ | h)
    · rfl
    · match js, h with
      | [], _ => rfl
      | _ :: _ :: _, _ => rfl
  · rintro rfl
    match js with
    | [] => exact .list Nat.zero_ne_one
    | [j] => exact .single j
    | j :: j' :: rest => exact .list (by simp)

namespace Engine

open SyncCascade.Action

section Closing

variable {σ β : Type}

/-- The action runs the step on these one after another, up to the first that fails, and reports the
results. -/
structure Delivers {α ρ : Type} (step : α → Action σ β ρ) (render : ρ → Json) (as : List α)
    (a : Action σ β Json) (w : World σ β) : Prop where
  succeeds : ∀ {j w'}, a.run w = (.ok j, w') ↔
    ∃ rs, Ran step w as rs w' ∧ Reported (rs.map render) j
  stops : ∀ {e w'}, a.run w = (.error e, w') ↔ ∃ done a rest rs w₁, as = done ++ a :: rest ∧
    Ran step w done rs w₁ ∧ (step a).run w₁ = (.error e, w')

theorem delivers_each {α ρ : Type} (step : α → Action σ β ρ) (render : ρ → Json) (as : List α)
    (w : World σ β) :
    Delivers step render as (do
      let rs ← each step as
      return Json.singleOrAll (rs.map render)) w where
  succeeds {j w'} := by
    simp only [← run_each_ok_iff, reported_iff]
    rw [run_bind]
    obtain ⟨rs | rs, w₁⟩ := (each step as).run w
    · exact ⟨nofun, nofun⟩
    · constructor
      · rintro ⟨⟩
        exact ⟨rs, rfl, rfl⟩
      · rintro ⟨_, ⟨⟩, rfl⟩
        rfl
  stops {e w'} := by
    rw [← run_each_error_iff, run_bind]
    obtain ⟨rs | rs, w₁⟩ := (each step as).run w
    · constructor <;> rintro ⟨⟩ <;> rfl
    · exact ⟨nofun, nofun⟩

variable (E : Engine σ β) {p : JobPayload} {us : List Uuid} (w : World σ β)

/-- The delivery closes these targets by the step of its kind. -/
def Closes (p : JobPayload) (us : List Uuid) : Prop :=
  match p.kind with
  | .changesetClosure => ∀ out w', (E.handle p).run w = (out, w') ↔
    ∃ r, (E.closeChangesets (us.map ChangesetId.mk) p.id).run w = (r, w') ∧
      out = r.map ChangesetClosure.toJson
  | .fileClosure => Delivers (fun id => E.closeFile id p.id) FileClosure.toJson (us.map FileId.mk)
      (E.handle p) w
  | .syncClosure => Delivers (fun id => E.closeSync id p.id) SyncClosure.toJson (us.map SyncId.mk)
      (E.handle p) w

theorem handle_closes (hus : Uuid.AllSpelledBy us p.memberIds) : E.Closes w p us := by
  unfold Closes
  cases hkind : p.kind with
  | changesetClosure =>
    have hids : parseMembers p.memberIds = .ok (us.map ChangesetId.mk) := parseMembers_of_spelled hus
    have hhandle : E.handle p = (do
        let r ← E.closeChangesets (us.map ChangesetId.mk) p.id
        pure r.toJson) := by
      simp only [handle, hkind, hids]
      rfl
    intro out w'
    rw [hhandle, run_bind]
    obtain ⟨r | r, w₁⟩ := (E.closeChangesets (us.map ChangesetId.mk) p.id).run w
    all_goals
      constructor
      · rintro ⟨⟩
        exact ⟨_, rfl, rfl⟩
      · rintro ⟨_, ⟨⟩, rfl⟩
        rfl
  | fileClosure =>
    have hids : parseMembers p.memberIds = .ok (us.map FileId.mk) := parseMembers_of_spelled hus
    have hhandle : E.handle p = (do
        let rs ← each (fun id => E.closeFile id p.id) (us.map FileId.mk)
        return Json.singleOrAll (rs.map FileClosure.toJson)) := by
      simp only [handle, hkind, hids]
      rfl
    dsimp only
    rw [hhandle]
    exact delivers_each _ _ _ w
  | syncClosure =>
    have hids : parseMembers p.memberIds = .ok (us.map SyncId.mk) := parseMembers_of_spelled hus
    have hhandle : E.handle p = (do
        let rs ← each (fun id => E.closeSync id p.id) (us.map SyncId.mk)
        return Json.singleOrAll (rs.map SyncClosure.toJson)) := by
      simp only [handle, hkind, hids]
      rfl
    dsimp only
    rw [hhandle]
    exact delivers_each _ _ _ w

theorem handle_of_malformed (h : ∃ s ∈ p.memberIds, Malformed s) :
    ∃ why, ∀ w, (E.handle p).run w = (.error (.invalidPayload why), w) := by
  cases hkind : p.kind with
  | changesetClosure =>
    have hids := parseMembers_of_malformed (α := ChangesetId) h
    exact ⟨_, fun w => by simp only [handle, hkind, hids]; rfl⟩
  | fileClosure =>
    have hids := parseMembers_of_malformed (α := FileId) h
    exact ⟨_, fun w => by simp only [handle, hkind, hids]; rfl⟩
  | syncClosure =>
    have hids := parseMembers_of_malformed (α := SyncId) h
    exact ⟨_, fun w => by simp only [handle, hkind, hids]; rfl⟩

end Closing

end Engine

namespace LaneState

/-- The lane after a delivery of the job has failed: the job waits for the next one, or there is a record
of it where no attempt is left. Otherwise the lane is as it was. -/
structure Spent (s : LaneState) (clock : Clock) (job : QueuedJob) (error : String) (d : Disposition)
    (s' : LaneState) : Prop where
  retried : job.attemptsMade + 1 < job.maxAttempts → d = .retrying job.backoff ∧
    s'.failed = s.failed ∧ ∃ seq, s'.pending.find? job.payload.id =
      some { job with
        attemptsMade := job.attemptsMade + 1
        readyAt := clock.elapsed + job.backoff.nanos
        seq := seq }
  ended : ¬ job.attemptsMade + 1 < job.maxAttempts → d = .failed ∧
    s'.pending.find? job.payload.id = none ∧
    s'.failed = s.failed ++ [⟨job.payload, job.attemptsMade + 1, error, clock.wall⟩]
  others : ∀ id, id ≠ job.payload.id → s'.pending.find? id = s.pending.find? id
  active : ∀ id, s'.active.find? id = s.active.find? id
  completed : s'.completed = s.completed

theorem spent_claimed {s : LaneState} {now : Nat} {job : QueuedJob} (h : s.nextJob now = some job)
    (leaseUntil : Nat) (clock : Clock) (error : String) :
    let failed := (s.claimed job leaseUntil).fail clock job.payload.id (s.seq + 1) error
    s.Spent clock job error failed.1 failed.2 := by
  intro failed
  let released := (s.claimed job leaseUntil).unclaim job.payload.id
  have hclaim : (s.claimed job leaseUntil).active.find? job.payload.id =
      some ⟨job, s.seq + 1, leaseUntil⟩ := by
    simp [claimed, Table.find?_insert]
  have hfailed : failed = released.consumeAttempt clock job error job.backoff := by
    unfold failed fail
    rw [takeActive_of_owns hclaim rfl]
  have hpending : ∀ id, released.pending.find? id =
      if id = job.payload.id then none else s.pending.find? id := fun id => Table.find?_erase ..
  have hactive : ∀ id, released.active.find? id = s.active.find? id := fun id => by
    have hfree := Table.contains_eq_false.1 (isClaimable_of_nextJob h).2.2
    unfold released unclaim claimed
    dsimp only
    rw [Table.find?_erase, Table.find?_insert]
    grind
  rw [hfailed]
  unfold consumeAttempt
  by_cases hmore : job.attemptsMade + 1 < job.maxAttempts
  · have hfree : released.pending.contains job.payload.id = false :=
      Table.contains_eq_false.2 ((hpending _).trans (if_pos rfl))
    simp only [if_pos hmore]
    unfold requeue
    simp only [hfree, Bool.false_eq_true, if_false]
    refine ⟨fun _ => ⟨rfl, rfl, released.seq + 1, ?_⟩, absurd hmore, fun id hid => ?_, hactive, rfl⟩
    · exact (Table.find?_insert ..).trans (if_pos rfl)
    · exact ((Table.find?_insert ..).trans (if_neg hid)).trans ((hpending id).trans (if_neg hid))
  · simp only [if_neg hmore]
    exact ⟨fun h => absurd h hmore, fun _ => ⟨rfl, (hpending _).trans (if_pos rfl), rfl⟩,
      fun id hid => (hpending id).trans (if_neg hid), hactive, rfl⟩

end LaneState

namespace Worker

theorem processNext_of_refused {σ : Type} {W : Worker σ Lanes} {w : World σ Lanes} {job : QueuedJob}
    {e : Failure} (hB : W.broker = Lanes.broker)
    (hnext : (w.broker.get W.lane).nextJob w.clock.elapsed = some job)
    (hhandler : ∀ w, (W.handler job.payload).run w = (.error e, w)) (he : e.isTransaction = false) :
    W.processNext.Ensures w
      (fun o w' => ∃ d, o = .failed job.payload.id e d ∧ w'.store = w.store ∧
        (∀ lane, lane ≠ W.lane → w'.broker.get lane = w.broker.get lane) ∧
        (w.broker.get W.lane).Spent w.clock job e.message d (w'.broker.get W.lane))
      fun _ _ => False := by
  have hclaim := LaneState.claim_of_nextJob W.config.lease hnext
  have hanswer : w.answer W.claimCall =
      some ⟨job.payload, (w.broker.get W.lane).seq + 1, job.attemptsMade, job.maxAttempts⟩ := by
    unfold World.answer claimCall Lanes.apply
    rw [Lanes.step_fst, hclaim]
  have htold : (w.told W.claimCall).broker = w.broker.set W.lane
      ((w.broker.get W.lane).claimed job (w.clock.elapsed + W.config.lease.nanos)) := by
    unfold World.told claimCall Lanes.apply
    rw [Lanes.step_snd, hclaim]
  refine processNext_rule hB (fun _ _ _ _ h => h) (fun h => ?_) fun job' journal metrics h => ?_
  · cases hanswer.symm.trans h
  · cases hanswer.symm.trans h
    unfold Action.Ensures
    rw [hhandler]
    refine ⟨fun htransaction => ?_, fun _ => ?_⟩
    · cases he.symm.trans htransaction
    · -- The clock and the claimed lane are those of the claim.
      generalize hw₁ : (w.told W.claimCall).observed journal metrics = w₁
      have hbroker : w₁.broker = w.broker.set W.lane
          ((w.broker.get W.lane).claimed job (w.clock.elapsed + W.config.lease.nanos)) :=
        hw₁ ▸ htold
      have hclock : w₁.clock = w.clock := hw₁ ▸ rfl
      have hstore : w₁.store = w.store := hw₁ ▸ rfl
      refine ⟨_, rfl, hstore, fun lane hlane => ?_, ?_⟩
      · unfold World.told failCall Lanes.apply
        rw [Lanes.step_snd, Lanes.get_set_of_ne _ _ hlane, hbroker, Lanes.get_set_of_ne _ _ hlane]
      · unfold World.answer World.told failCall Lanes.apply
        rw [Lanes.step_fst, Lanes.step_snd, Lanes.get_set_self, hbroker, Lanes.get_set_self, hclock]
        exact LaneState.spent_claimed hnext _ w.clock e.message

end Worker

namespace Engine

open SyncCascade.Action

/-- All members of a job are read before the first step. If one is malformed, the delivery is refused and
the world is as before, and the worker that claimed the job reports that it failed, which costs one
attempt. Otherwise files and syncs are closed one after another up to the first failure, and changesets
all at once. Changesets have one result; files and syncs have one each, and a single one is reported by
itself. -/
theorem handle_reads_first :
    (∀ (σ β : Type) (E : Engine σ β) (p : JobPayload), (∃ s ∈ p.memberIds, Malformed s) →
      ∃ why, ∀ w, (E.handle p).run w = (.error (.invalidPayload why), w)) ∧
    (∀ (σ : Type) (E : Engine σ Lanes) (W : Worker σ Lanes) (w : World σ Lanes) (job : QueuedJob),
      W.broker = Lanes.broker → W.handler = E.handle →
      (w.broker.get W.lane).nextJob w.clock.elapsed = some job →
      (∃ s ∈ job.payload.memberIds, Malformed s) →
      ∃ e d w', W.processNext.run w = (.ok (.failed job.payload.id e d), w') ∧
        e.kind = .invalidPayload ∧ w'.store = w.store ∧
        (∀ lane, lane ≠ W.lane → w'.broker.get lane = w.broker.get lane) ∧
        (w.broker.get W.lane).Spent w.clock job e.message d (w'.broker.get W.lane)) ∧
    ∀ (σ β : Type) (E : Engine σ β) (p : JobPayload), (∀ s ∈ p.memberIds, ¬ Malformed s) →
      ∃ us, Uuid.AllSpelledBy us p.memberIds ∧ ∀ w, E.Closes w p us := by
  refine ⟨fun σ β E p h => E.handle_of_malformed h, fun σ E W w job hB hhandler hnext h => ?_,
    fun σ β E p h => ?_⟩
  · obtain ⟨why, hwhy⟩ := E.handle_of_malformed h
    obtain ⟨o, ho, d, rfl, hrest⟩ :=
      (Worker.processNext_of_refused hB hnext (hhandler ▸ hwhy) rfl).exists_ok
    exact ⟨_, d, _, Prod.ext ho rfl, rfl, hrest⟩
  · rcases allSpelledBy_or_malformed p.memberIds with ⟨us, hus⟩ | ⟨s, hs, hbad⟩
    · exact ⟨us, hus, fun w => E.handle_closes w hus⟩
    · exact absurd hbad (h s hs)

/-- A job of three files, of which the last is malformed. -/
theorem handle_reads_first_lastMember :
    let p : JobPayload := { JobPayload.single .fileClosure "three" with
      batchIds := some ["00000000-0000-0000-0000-000000000002",
        "00000000-0000-0000-0000-000000000003", "00000000-0000-0000-0000"] }
    let E : Engine Session Lanes := ⟨Session.storage, Lanes.broker, .default, .default⟩
    let W : Worker Session Lanes := ⟨.files, Lanes.broker, E.handle, .default⟩
    let clock : Clock := ⟨⟨0, 0⟩, 0⟩
    let w : World Session Lanes := .initial (.ofDatabase .empty)
      (Lanes.empty.apply clock (.add .files p .default .zero)).2
    let job : QueuedJob := ⟨p, 0, 3, .ofSeconds 1, 0, 1⟩
    (∃ s ∈ p.memberIds, Malformed s) ∧ (w.broker.get .files).nextJob 0 = some job ∧
      ∃ e d w', W.processNext.run w = (.ok (.failed "three" e d), w') ∧ e.kind = .invalidPayload ∧
        w'.store = w.store ∧ d = .retrying (.ofSeconds 1) ∧
        ∃ q, (w'.broker.get .files).pending.find? "three" = some q ∧ q.attemptsMade = 1 := by
  intro p E W clock w job
  have hmalformed : ∃ s ∈ p.memberIds, Malformed s := by decide +kernel
  have hnext : (w.broker.get .files).nextJob 0 = some job := by decide +kernel
  obtain ⟨e, d, w', hrun, hkind, hstore, -, hspent⟩ :=
    handle_reads_first.2.1 Session E W w job rfl rfl hnext hmalformed
  obtain ⟨hd, -, seq, hq⟩ := hspent.retried (by decide)
  exact ⟨hmalformed, hnext, e, d, w', hrun, hkind, hstore, hd, _, hq, rfl⟩

/-- Two changesets, which have one result, and it is no list. -/
theorem changesets_reported_once :
    let p : JobPayload := { JobPayload.single .changesetClosure "both" with
      batchIds := some ["00000000-0000-0000-0000-000000000002",
        "00000000-0000-0000-0000-000000000003"] }
    let E : Engine Session Lanes := ⟨Session.storage, Lanes.broker, .default, .default⟩
    (∀ s ∈ p.memberIds, ¬ Malformed s) ∧ p.memberIds.length = 2 ∧
      ∃ j, ((E.handle p).run (.initial (.ofDatabase .empty) .empty)).1 = .ok j ∧
        ∀ js, j ≠ .array js := by
  intro p E
  have hrun : ((E.handle p).run (.initial (.ofDatabase .empty) .empty)).1 =
      .ok (ChangesetClosure.toJson ⟨[]⟩) := by decide +kernel
  exact ⟨by decide +kernel, rfl, _, hrun, nofun⟩

end Engine

end SyncCascade
