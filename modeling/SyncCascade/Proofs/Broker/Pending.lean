import SyncCascade.Proofs.Broker.Publish

/-!
# Which jobs are pending after a push

A push adds the jobs that it forms to those that are pending already and takes none away. Which of them
were new does not matter for that, and neither does the time.
-/

namespace SyncCascade

namespace LaneState

variable {now : Nat} {options : LaneOptions} {s : LaneState}

/-- What is queued under the identifier has the work of what was pending under it, or of one of the
jobs. -/
def Work (s : LaneState) (jobs : List JobPayload) (id : String) (q : QueuedJob) : Prop :=
  (∃ q₀, s.pending.find? id = some q₀ ∧ q₀.payload.SameWork q.payload) ∨
    ∃ job ∈ jobs, job.id = id ∧ job.SameWork q.payload

/-- The lane keeps the work that is pending and gains that of some jobs; nothing else changes. -/
structure Gained (jobs : List JobPayload) (s s' : LaneState) : Prop where
  pends : ∀ id, s'.pending.contains id = true ↔
    s.pending.contains id = true ∨ ∃ job ∈ jobs, id = job.id
  work : ∀ {id q}, s'.pending.find? id = some q → s.Work jobs id q
  active : s'.active = s.active
  failed : s'.failed = s.failed

/-- A job of a push is pending with its own work, or with that of the job that it repeats. -/
theorem work_offer {job : JobPayload} {id : String} {q : QueuedJob}
    (h : (s.offer now options job).pending.find? id = some q) :
    (∃ q₀, s.pending.find? id = some q₀ ∧ q₀.payload.SameWork q.payload) ∨
      job.id = id ∧ job.SameWork q.payload := by
  have haccept : (s.accept ⟨now, options, job⟩).pending.find? id = some q := h
  by_cases hid : id = job.id
  · subst hid
    cases hfound : s.pending.find? job.id with
    | none =>
      obtain ⟨q', hq', hpayload⟩ := find?_accept_of_new (o := ⟨now, options, job⟩) hfound
      cases haccept.symm.trans hq'
      exact .inr ⟨rfl, hpayload ▸ .refl _⟩
    | some q₀ =>
      cases haccept.symm.trans (find?_accept_of_pending (o := ⟨now, options, job⟩) hfound)
      exact .inl ⟨q₀, rfl, rfl, rfl, rfl⟩
  · rw [find?_accept_of_ne hid] at haccept
    exact .inl ⟨q, haccept, .refl _⟩

theorem offerAll_gained (now : Nat) (options : LaneOptions) (s : LaneState) (jobs : List JobPayload) :
    Gained jobs s (s.offerAll now options jobs) where
  pends _ := contains_offerAll
  work {id q} hq := by
    refine offerAll_preserves (I := fun s' => ∀ q, s'.pending.find? id = some q → s.Work jobs id q)
      ?_ (fun q hq => .inl ⟨q, hq, .refl _⟩) q hq
    intro s' job hjob ih q hq
    rcases work_offer hq with ⟨q₀, hq₀, hsame⟩ | ⟨hid, hsame⟩
    · rcases ih q₀ hq₀ with ⟨q₁, hq₁, hsame₁⟩ | ⟨job', hjob', hid', hsame'⟩
      · exact .inl ⟨q₁, hq₁, hsame₁.trans hsame⟩
      · exact .inr ⟨job', hjob', hid', hsame'.trans hsame⟩
    · exact .inr ⟨job, hjob, hid, hsame⟩
  active := offerAll_active
  failed := offerAll_failed

end LaneState

namespace Lanes

/-- A job with the identifier is pending in the lane. -/
def Pends (l : Lanes) (lane : Lane) (id : String) : Prop :=
  (l.get lane).pending.contains id = true

theorem pends_pushed {clock : Clock} {config : QueueConfig} {kind : JobKind} {ids : List String}
    {l : Lanes} {lane : Lane} {id : String} :
    (l.pushed clock config kind ids).Pends lane id ↔ l.Pends lane id ∨
      lane = kind.lane ∧ ∃ job ∈ Queue.formJobs (config.lane kind.lane) kind ids, id = job.id := by
  unfold Pends pushed
  rw [get_set]
  by_cases hlane : lane = kind.lane
  · subst hlane
    rw [if_pos rfl, LaneState.contains_offerAll]
    simp
  · rw [if_neg hlane]
    simp [hlane]

end Lanes

end SyncCascade
