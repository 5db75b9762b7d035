import SyncCascade.Proofs.Broker.Keeping

/-!
# The broker in memory neither loses nor duplicates work

Over a history the jobs that were added to a lane are those it counts now and those that gave way to
a pending twin. One call takes an identifier out of a lane only by completing its job or by reporting
it as failed for good.
-/

namespace SyncCascade

namespace LaneState

def tally (s : LaneState) : Nat :=
  s.pending.size + s.active.size + s.completed + s.failed.length

/-- One if the job gave way to a pending twin. -/
def dropCount (d : Disposition) : Nat := if d = .superseded then 1 else 0

theorem counts_sum (s : LaneState) (now : Nat) :
    (s.counts now).waiting + (s.counts now).delayed + (s.counts now).active +
      (s.counts now).completed + (s.counts now).failed = s.tally := by
  have hle : (s.pending.rows.countP fun j => decide (j.readyAt ≤ now)) ≤ s.pending.size := by
    have h := List.countP_le_length (l := s.pending.rows) (p := fun j => decide (j.readyAt ≤ now))
    rwa [Table.rows, List.length_map] at h
  simp only [counts, tally]
  omega

theorem tally_unclaim {s : LaneState} {id : String} {a : ActiveJob}
    (ha : s.active.find? id = some a) : (s.unclaim id).tally + 1 = s.tally := by
  have h := Table.size_erase (Table.contains_eq_true.2 ⟨a, ha⟩)
  simp only [tally, unclaim]
  omega

theorem Released.tally_add {s s' : LaneState} {job : QueuedJob} {d : Disposition}
    (h : Released s job d s') : s'.tally + dropCount d = s.tally + 1 := by
  cases h with
  | retrying delay job' hfree =>
    have hs : (s.pending.insert job.payload.id job').size = s.pending.size + 1 :=
      Table.size_insert hfree
    simp only [tally, dropCount, reduceCtorEq, if_false, hs]
    omega
  | superseded => simp only [dropCount, if_true]
  | failed record =>
    simp only [tally, dropCount, reduceCtorEq, if_false, List.length_append, List.length_singleton]
    omega

theorem add_tally (s : LaneState) (now : Nat) (job : JobPayload) (options : LaneOptions)
    (delay : Timespan) : (s.add now job options delay).2.tally =
      s.tally + if (s.add now job options delay).1 = .added then 1 else 0 := by
  unfold add
  cases h : s.pending.contains job.id with
  | true => simp
  | false =>
    have hs := fun j : QueuedJob => Table.size_insert (r := j) h
    simp only [Bool.false_eq_true, if_false, if_true, tally, hs]
    omega

theorem defer_tally (s : LaneState) (now : Nat) (id : String) (delay : Timespan) :
    (s.defer now id delay).2.tally = s.tally := by
  unfold defer
  cases s.pending.find? id with
  | none => rfl
  | some job => simp only [tally, Table.size_modify]

theorem claim_tally {P : JobPayload → Prop} {s : LaneState} (hs : s.Carries P) (now : Nat)
    (lease : Timespan) : (s.claim now lease).2.tally = s.tally := by
  cases h : s.nextJob now with
  | none => rw [claim_of_idle lease h]
  | some job =>
    obtain ⟨hpending, hactive, -⟩ := nextJob_eq_some hs h
    rw [claim_of_nextJob lease h]
    have he := Table.size_erase (Table.contains_eq_true.2 ⟨job, hpending⟩)
    have hi := fun a : ActiveJob => Table.size_insert (r := a) hactive
    simp only [tally, claimed, hi]
    omega

theorem complete_tally (s : LaneState) (id : String) (token : Nat) :
    (s.complete id token).2.tally = s.tally := by
  rcases complete_cases s id token with ⟨-, heq⟩ | ⟨a, ha, -, heq⟩
  · rw [heq]
  · have hu := tally_unclaim ha
    rw [heq]
    simp only [tally, unclaim] at hu ⊢
    omega

theorem Settled.tally_add {s s' : LaneState} {id : String} {token : Nat}
    {update : JobPayload → JobPayload} {d : Disposition} (h : Settled s id token update d s') :
    s'.tally + (if s.owns id token = true then dropCount d else 0) = s.tally := by
  cases h with
  | stale h => simp [h]
  | released ha ht hjob h =>
    have hu := tally_unclaim ha
    have hr := h.tally_add
    rw [if_pos (owns_eq_true.2 ⟨_, ha, ht⟩)]
    omega

def droppedStalled (jobs : List StalledJob) : List String :=
  (jobs.filter fun j => decide (j.disposition = .superseded)).map fun j => j.payload.id

theorem droppedStalled_append (js ks : List StalledJob) :
    droppedStalled (js ++ ks) = droppedStalled js ++ droppedStalled ks := by
  simp [droppedStalled]

theorem recoverJob_tally (clock : Clock) (s : LaneState) (id : String) :
    (recoverJob clock s id).2.tally + (droppedStalled (recoverJob clock s id).1.toList).length =
      s.tally := by
  cases ha : s.active.find? id with
  | none =>
    rw [recoverJob_of_not_active clock ha]
    rfl
  | some a =>
    obtain ⟨d, s', heq, job, hjob, hr⟩ := recoverJob_of_active clock ha
    have hu := tally_unclaim ha
    have ht := hr.tally_add
    have hd : (droppedStalled [⟨stalledPayload a.job.payload, d⟩]).length = dropCount d := by
      by_cases hsup : d = .superseded <;> simp [droppedStalled, dropCount, hsup]
    rw [heq]
    simp only [Option.toList_some, hd]
    omega

theorem recoverAll_tally (clock : Clock) (ids : List String) (s : LaneState) :
    (recoverAll clock s ids).2.tally + (droppedStalled (recoverAll clock s ids).1).length =
      s.tally := by
  induction ids generalizing s with
  | nil => rfl
  | cons id rest ih =>
    have hstep := recoverJob_tally clock s id
    have hrest := ih (recoverJob clock s id).2
    simp only [recoverAll, droppedStalled_append, List.length_append]
    omega

theorem recoverJob_retains (clock : Clock) (s : LaneState) (id : String) :
    s.Retains (recoverJob clock s id).2 := by
  cases ha : s.active.find? id with
  | none => rw [recoverJob_of_not_active clock ha]; exact .refl s
  | some a =>
    obtain ⟨d, s', heq, job, -, hr⟩ := recoverJob_of_active clock ha
    rw [heq]
    exact hr.retains

theorem recoverAll_retains (clock : Clock) (s : LaneState) (ids : List String) :
    s.Retains (recoverAll clock s ids).2 :=
  recoverAll_preserves (I := s.Retains) (fun s id h => h.trans (recoverJob_retains clock s id)) ids
    (.refl s)

theorem Released.twin {s s' : LaneState} {job : QueuedJob} (h : Released s job .superseded s') :
    s'.pending.contains job.payload.id = true := by
  cases h with
  | superseded htwin => exact htwin

theorem mem_droppedStalled {jobs : List StalledJob} {id : String} :
    id ∈ droppedStalled jobs ↔ ∃ j ∈ jobs, j.disposition = .superseded ∧ j.payload.id = id := by
  simp [droppedStalled, and_assoc]

theorem recoverJob_twin (clock : Clock) {s : LaneState} (hs : s.Carries fun _ => True)
    (id' : String) {id : String} (h : id ∈ droppedStalled (recoverJob clock s id').1.toList) :
    s.active.contains id = true ∧ (recoverJob clock s id').2.pending.contains id = true := by
  cases ha : s.active.find? id' with
  | none =>
    rw [recoverJob_of_not_active clock ha] at h
    cases h
  | some a =>
    obtain ⟨d, s', heq, job, hjob, hr⟩ := recoverJob_of_active clock ha
    rw [heq] at h ⊢
    obtain ⟨j, hj, hd, hid⟩ := mem_droppedStalled.1 h
    obtain rfl := List.mem_singleton.1 hj
    obtain rfl : d = .superseded := hd
    have hkey : id = id' := hid.symm.trans (hs.active ha).1
    have hjobid : job.payload.id = id := by rw [hjob]; exact hid
    exact ⟨Table.contains_eq_true.2 ⟨a, hkey ▸ ha⟩, hjobid ▸ hr.twin⟩

theorem recoverAll_twin (clock : Clock) (ids : List String) {s : LaneState}
    (hs : s.Carries fun _ => True) {id : String}
    (h : id ∈ droppedStalled (recoverAll clock s ids).1) :
    s.active.contains id = true ∧ (recoverAll clock s ids).2.pending.contains id = true := by
  induction ids generalizing s with
  | nil => cases h
  | cons id' rest ih =>
    rw [recoverAll, droppedStalled_append, List.mem_append] at h
    rcases h with h | h
    · obtain ⟨ha, hp⟩ := recoverJob_twin clock hs id' h
      exact ⟨ha, (recoverAll_retains clock _ rest).contains hp⟩
    · obtain ⟨ha, hp⟩ := ih (recoverJob_carries aboutWork_true hs clock id') h
      obtain ⟨a, ha⟩ := Table.contains_eq_true.1 ha
      exact ⟨Table.contains_eq_true.2 ⟨a, recoverJob_active_of ha⟩, hp⟩

theorem Settled.twin {s s' : LaneState} (hs : s.Carries fun _ => True) {id : String} {token : Nat}
    {update : JobPayload → JobPayload} (hupdate : ∀ p, p.id = id → (update p).id = id)
    (h : Settled s id token update .superseded s') (hown : s.owns id token = true) :
    s.active.contains id = true ∧ s'.pending.contains id = true := by
  cases h with
  | stale hnot => rw [hown] at hnot; cases hnot
  | released ha ht hjob h =>
    have hid := hupdate _ (hs.active ha).1
    rw [← hjob] at hid
    exact ⟨Table.contains_eq_true.2 ⟨_, ha⟩, hid ▸ h.twin⟩

end LaneState

namespace BrokerCall

def addCount (lane : Lane) : (c : BrokerCall) → c.Reply → Nat
  | add lane' .., reply => if lane' = lane ∧ reply = .added then 1 else 0
  | _, _ => 0

end BrokerCall

namespace Lanes

/-- The identifiers of the claimed jobs that the call took back and dropped as superseded. A reply
to a token that does not own the job drops nothing. -/
def dropped (l : Lanes) (lane : Lane) : (c : BrokerCall) → c.Reply → List String
  | .fail lane' id token _, reply =>
    if lane' = lane ∧ (l.get lane).owns id token = true ∧ reply = .superseded then [id] else []
  | .retryLater lane' payload token _, reply =>
    if lane' = lane ∧ (l.get lane).owns payload.id token = true ∧ reply = .superseded
    then [payload.id] else []
  | .recoverStalled lane', reply => if lane' = lane then LaneState.droppedStalled reply else []
  | _, _ => []

/-- The additions to the lane over a history that were answered as such. -/
def additions (lane : Lane) (l : Lanes) : List TimedCall → Nat
  | [] => 0
  | e :: rest => e.call.addCount lane (l.apply e.clock e.call).1 +
      additions lane (l.apply e.clock e.call).2 rest

/-- The claimed jobs of the lane dropped as superseded over a history. -/
def drops (lane : Lane) (l : Lanes) : List TimedCall → Nat
  | [] => 0
  | e :: rest => (l.dropped lane e.call (l.apply e.clock e.call).1).length +
      drops lane (l.apply e.clock e.call).2 rest

theorem settled_drop {s s' : LaneState} {id : String} {token : Nat}
    {update : JobPayload → JobPayload} {d : Disposition}
    (h : LaneState.Settled s id token update d s') :
    s'.tally + (if s.owns id token = true ∧ d = .superseded then [id] else []).length =
      s.tally := by
  have ht := h.tally_add
  simp only [LaneState.dropCount] at ht
  by_cases hown : s.owns id token = true <;> by_cases hd : d = .superseded <;>
    simp_all

theorem apply_tally {l : Lanes} (hl : l.Keyed) (lane : Lane) (clock : Clock) (c : BrokerCall) :
    ((l.apply clock c).2.get lane).tally + (l.dropped lane c (l.apply clock c).1).length =
      (l.get lane).tally + c.addCount lane (l.apply clock c).1 := by
  by_cases hlane : lane = c.lane
  · subst hlane
    cases c with
    | add lane job options delay =>
      have h := (l.get lane).add_tally clock.elapsed job options delay
      simp only [BrokerCall.lane, apply, step_snd, step_fst, get_set_self, dropped,
        BrokerCall.addCount, true_and, List.length_nil, h, Nat.add_zero]
    | defer lane id delay =>
      have h := (l.get lane).defer_tally clock.elapsed id delay
      simp only [BrokerCall.lane, apply, step_snd, get_set_self, dropped, BrokerCall.addCount,
        List.length_nil, h]
    | claim lane lease =>
      have h := LaneState.claim_tally (hl lane) clock.elapsed lease
      simp only [BrokerCall.lane, apply, step_snd, get_set_self, dropped, BrokerCall.addCount,
        List.length_nil, h]
    | complete lane id token =>
      have h := (l.get lane).complete_tally id token
      simp only [BrokerCall.lane, apply, step_snd, get_set_self, dropped, BrokerCall.addCount,
        List.length_nil, h]
    | fail lane id token error =>
      have h := settled_drop ((l.get lane).fail_settled clock id token error)
      simp only [BrokerCall.lane, apply, step_snd, step_fst, get_set_self, dropped,
        BrokerCall.addCount, true_and, h, Nat.add_zero]
    | retryLater lane payload token delay =>
      have h := settled_drop ((l.get lane).retryLater_settled clock.elapsed payload token delay)
      simp only [BrokerCall.lane, apply, step_snd, step_fst, get_set_self, dropped,
        BrokerCall.addCount, true_and, h, Nat.add_zero]
    | recoverStalled lane =>
      have h := LaneState.recoverAll_tally clock ((l.get lane).expired clock.elapsed) (l.get lane)
      simp only [BrokerCall.lane, apply, step_snd, step_fst, get_set_self, dropped,
        BrokerCall.addCount, if_true, LaneState.recoverStalled, h, Nat.add_zero]
    | counts lane => rfl
    | failedJobs lane => rfl
  · have hnone : (l.dropped lane c (l.apply clock c).1).length = 0 ∧
        c.addCount lane (l.apply clock c).1 = 0 := by
      have hne := Ne.symm hlane
      cases c <;> simp only [BrokerCall.lane] at hne <;>
        simp [dropped, BrokerCall.addCount, hne]
    rw [apply_get_of_ne l clock hlane, hnone.1, hnone.2]

/-- What was added is in the lane, or it was dropped. -/
theorem additions_eq {l : Lanes} (hl : l.Keyed) (lane : Lane) (history : List TimedCall) :
    (l.get lane).tally + additions lane l history =
      ((l.after history).get lane).tally + drops lane l history := by
  induction history generalizing l with
  | nil => rfl
  | cons e rest ih =>
    have hstep := apply_tally hl lane e.clock e.call
    have hrest := ih (keyed_apply l e.clock e.call hl)
    simp only [additions, drops, after]
    omega

/-- A dropped job was claimed, and a pending one with its identifier is there afterwards. -/
theorem dropped_twin {l : Lanes} (hl : l.Keyed) (lane : Lane) (clock : Clock) (c : BrokerCall)
    {id : String} (h : id ∈ l.dropped lane c (l.apply clock c).1) :
    (l.get lane).active.contains id = true ∧
      ((l.apply clock c).2.get lane).pending.contains id = true := by
  cases c with
  | fail lane' id' token error =>
    simp only [dropped] at h
    split at h
    next hd =>
      obtain ⟨rfl, hown, hd⟩ := hd
      obtain rfl := List.mem_singleton.1 h
      have hs := (l.get lane').fail_settled clock id token error
      rw [show ((l.get lane').fail clock id token error).1 = .superseded from hd] at hs
      simp only [apply, step_snd, get_set_self]
      exact hs.twin (hl lane') (fun _ hid => hid) hown
    next => cases h
  | retryLater lane' payload token delay =>
    simp only [dropped] at h
    split at h
    next hd =>
      obtain ⟨rfl, hown, hd⟩ := hd
      obtain rfl := List.mem_singleton.1 h
      have hs := (l.get lane').retryLater_settled clock.elapsed payload token delay
      rw [show ((l.get lane').retryLater clock.elapsed payload token delay).1 = .superseded
        from hd] at hs
      simp only [apply, step_snd, get_set_self]
      exact hs.twin (hl lane') (fun _ _ => rfl) hown
    next => cases h
  | recoverStalled lane' =>
    simp only [dropped] at h
    split at h
    next hlane =>
      subst hlane
      simp only [apply, step_snd, get_set_self]
      exact LaneState.recoverAll_twin clock _ (hl lane') h
    next => cases h
  | add | defer | claim | complete | counts | failedJobs => cases h

/-- After any history of a fresh broker the additions to a lane are the jobs it counts and the jobs
it dropped as superseded; and whatever call comes next, a dropped job has a pending twin, and an
identifier leaves the lane only with a completed or a failed job. -/
theorem work_conserved (lane : Lane) (history : List TimedCall) (clock : Clock) :
    let l := empty.after history
    let counts := (l.apply clock (.counts lane)).1
    additions lane empty history =
      counts.waiting + counts.delayed + counts.active + counts.completed + counts.failed +
        drops lane empty history ∧
    (∀ (c : BrokerCall) (id : String), id ∈ l.dropped lane c (l.apply clock c).1 →
      (l.get lane).active.contains id = true ∧
        ((l.apply clock c).2.get lane).pending.contains id = true) ∧
    (∀ (c : BrokerCall) (id : String), (l.get lane).Holds id →
      ((l.apply clock c).2.get lane).Holds id ∨ c.Completes lane id (l.apply clock c).1 ∨
        c.ReportsFailed lane id (l.apply clock c).1 ∧
          (l.get lane).LostTo ((l.apply clock c).2.get lane) id) := by
  intro l counts
  have hl : l.Keyed := keyed_after history
  refine ⟨?_, fun c id h => dropped_twin hl lane clock c h,
    fun c id h => apply_keeps hl lane clock c h⟩
  have hsum := LaneState.counts_sum (l.get lane) clock.elapsed
  have hadd := additions_eq keyed_empty lane history
  have hzero : (empty.get lane).tally = 0 := by
    rw [get_empty]
    rfl
  rw [hzero, Nat.zero_add, ← hsum] at hadd
  exact hadd

end Lanes

end SyncCascade
