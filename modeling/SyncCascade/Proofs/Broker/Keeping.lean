import SyncCascade.Proofs.Broker.History

/-!
# What a lane keeps

A call takes an identifier out of a lane only by completing its job or by reporting it as failed for
good. So as long as no job has failed, whatever is pending or claimed stays so until it is completed.
-/

namespace SyncCascade

namespace LaneState

/-- A claimed job with the identifier went to the failed set. -/
def LostTo (s s' : LaneState) (id : String) : Prop :=
  ∃ a record records, s.active.find? id = some a ∧ s'.failed = s.failed ++ records ∧
    record ∈ records ∧ a.job.payload.SameWork record.payload

theorem add_keeps (s : LaneState) (now : Nat) (job : JobPayload) (options : LaneOptions)
    (delay : Timespan) {id : String} (h : s.Holds id) :
    (s.add now job options delay).2.Holds id := by
  unfold add
  split
  · exact h
  · exact h.imp_left fun hp => by simp [hp]

theorem defer_keeps (s : LaneState) (now : Nat) (id' : String) (delay : Timespan) {id : String}
    (h : s.Holds id) : (s.defer now id' delay).2.Holds id := by
  unfold defer
  split
  · exact h.imp_left fun hp => by simp [hp]
  · exact h

theorem claim_keeps (s : LaneState) (now : Nat) (lease : Timespan) {id : String} (h : s.Holds id) :
    (s.claim now lease).2.Holds id := by
  cases hn : s.nextJob now with
  | none => rw [claim_of_idle lease hn]; exact h
  | some job =>
    rw [claim_of_nextJob lease hn]
    by_cases hid : id = job.payload.id
    · exact .inr (by simp [claimed, hid])
    · exact h.imp (fun hp => by simp [claimed, hid, hp]) fun ha => by simp [claimed, ha]

theorem unclaim_keeps {s : LaneState} {id id' : String} (h : s.Holds id) (hne : id ≠ id') :
    (s.unclaim id').Holds id :=
  h.imp_right fun ha => by simp [unclaim, ha, hne]

theorem complete_keeps (s : LaneState) (id' : String) (token : Nat) {id : String}
    (h : s.Holds id) :
    (s.complete id' token).2.Holds id ∨ id' = id ∧ (s.complete id' token).1 = true := by
  rcases complete_cases s id' token with ⟨-, heq⟩ | ⟨a, -, -, heq⟩
  · rw [heq]
    exact .inl h
  · rw [heq]
    by_cases hid : id' = id
    · exact .inr ⟨hid, rfl⟩
    · exact .inl (unclaim_keeps h (Ne.symm hid))

theorem Released.keeps {s s' : LaneState} {job : QueuedJob} {d : Disposition}
    (h : Released s job d s') {id : String} (hs : s.Holds id) : s'.Holds id := by
  rcases hs with hp | ha
  · exact .inl (h.retains.contains hp)
  · exact .inr (h.active_eq ▸ ha)

/-- Taking a claimed job back keeps every identifier unless the job failed for good. -/
theorem Released.keeps_or_lost {P : JobPayload → Prop} {s s' : LaneState} (hs : s.Carries P)
    {id' : String} {a : ActiveJob} {job : QueuedJob} {d : Disposition}
    (ha : s.active.find? id' = some a) (hkey : job.payload.id = a.job.payload.id)
    (hsame : d = .failed → a.job.payload.SameWork job.payload)
    (h : Released (s.unclaim id') job d s') {id : String} (hid : s.Holds id) :
    s'.Holds id ∨ id' = id ∧ d = .failed ∧ s.LostTo s' id := by
  rw [(hs.active ha).1] at hkey
  by_cases heq : id' = id
  · subst heq
    rcases h.pending_or_failed with hp | ⟨hd, record, hrec, hf⟩
    · exact .inl (.inl (hkey ▸ hp))
    · exact .inr ⟨rfl, hd, a, record, [record], ha, hf, List.mem_singleton.2 rfl,
        hrec ▸ hsame hd⟩
  · exact .inl (h.keeps (unclaim_keeps hid (Ne.symm heq)))

theorem recoverJob_keeps {P : JobPayload → Prop} (clock : Clock) {s : LaneState}
    (hs : s.Carries P) (id' : String) {id : String} (hid : s.Holds id) :
    (recoverJob clock s id').2.Holds id ∨
      (∃ j ∈ (recoverJob clock s id').1.toList, j.payload.id = id ∧ j.disposition = .failed) ∧
        s.LostTo (recoverJob clock s id').2 id := by
  cases ha : s.active.find? id' with
  | none =>
    rw [recoverJob_of_not_active clock ha]
    exact .inl hid
  | some a =>
    obtain ⟨d, s', heq, job, hjob, hr⟩ := recoverJob_of_active clock ha
    have hsame : a.job.payload.SameWork job.payload := hjob ▸ stalledPayload_sameWork _
    rw [heq]
    rcases hr.keeps_or_lost hs ha hsame.1.symm (fun _ => hsame) hid with hkept | ⟨hk, hd, hlost⟩
    · exact .inl hkept
    · exact .inr ⟨⟨_, List.mem_singleton.2 rfl, hk ▸ (hs.active ha).1, hd⟩, hlost⟩

theorem recoverJob_active_of {clock : Clock} {s : LaneState} {id id' : String} {a : ActiveJob}
    (h : (recoverJob clock s id').2.active.find? id = some a) : s.active.find? id = some a := by
  cases ha : s.active.find? id' with
  | none =>
    rw [recoverJob_of_not_active clock ha] at h
    exact h
  | some b =>
    obtain ⟨d, s', heq, job, -, hr⟩ := recoverJob_of_active clock ha
    rw [heq, hr.active_eq, unclaim, Table.find?_erase] at h
    split at h
    · cases h
    · exact h

theorem recoverJob_failed (clock : Clock) (s : LaneState) (id : String) :
    ∃ records, (recoverJob clock s id).2.failed = s.failed ++ records := by
  cases ha : s.active.find? id with
  | none =>
    rw [recoverJob_of_not_active clock ha]
    exact ⟨[], (List.append_nil _).symm⟩
  | some a =>
    obtain ⟨d, s', heq, job, -, hr⟩ := recoverJob_of_active clock ha
    rw [heq]
    rcases hr.failed_eq with hf | ⟨record, -, hf⟩
    · exact ⟨[], by rw [hf, List.append_nil]; rfl⟩
    · exact ⟨[record], hf⟩

theorem recoverAll_failed (clock : Clock) (ids : List String) (s : LaneState) :
    ∃ records, (recoverAll clock s ids).2.failed = s.failed ++ records := by
  induction ids generalizing s with
  | nil => exact ⟨[], (List.append_nil _).symm⟩
  | cons id rest ih =>
    obtain ⟨r₁, h₁⟩ := recoverJob_failed clock s id
    obtain ⟨r₂, h₂⟩ := ih (recoverJob clock s id).2
    exact ⟨r₁ ++ r₂, by rw [recoverAll, h₂, h₁, List.append_assoc]⟩

theorem recoverAll_keeps (clock : Clock) (ids : List String) {s : LaneState}
    (hs : s.Carries fun _ => True) {id : String} (hid : s.Holds id) :
    (recoverAll clock s ids).2.Holds id ∨
      (∃ j ∈ (recoverAll clock s ids).1, j.payload.id = id ∧ j.disposition = .failed) ∧
        s.LostTo (recoverAll clock s ids).2 id := by
  induction ids generalizing s with
  | nil => exact .inl hid
  | cons id' rest ih =>
    have hs' := recoverJob_carries aboutWork_true hs clock id'
    obtain ⟨r₁, hf₁⟩ := recoverJob_failed clock s id'
    obtain ⟨r₂, hf₂⟩ := recoverAll_failed clock rest (recoverJob clock s id').2
    simp only [recoverAll, List.mem_append]
    rcases recoverJob_keeps clock hs id' hid with hkept | ⟨⟨j, hj, hjob⟩, hlost⟩
    · refine (ih hs' hkept).imp_right fun ⟨⟨j, hj, hjob⟩, a, record, records, ha, hf, hm, hw⟩ => ?_
      refine ⟨⟨j, .inr hj, hjob⟩, a, record, r₁ ++ records, recoverJob_active_of ha, ?_,
        List.mem_append_right _ hm, hw⟩
      rw [hf, hf₁, List.append_assoc]
    · obtain ⟨a, record, records, ha, hf, hm, hw⟩ := hlost
      refine .inr ⟨⟨j, .inl hj, hjob⟩, a, record, records ++ r₂, ha, ?_,
        List.mem_append_left _ hm, hw⟩
      rw [hf₂, hf, List.append_assoc]

theorem add_failed (s : LaneState) (now : Nat) (job : JobPayload) (options : LaneOptions)
    (delay : Timespan) : (s.add now job options delay).2.failed = s.failed := by
  unfold add
  split <;> rfl

theorem defer_failed (s : LaneState) (now : Nat) (id : String) (delay : Timespan) :
    (s.defer now id delay).2.failed = s.failed := by
  unfold defer
  split <;> rfl

theorem claim_failed (s : LaneState) (now : Nat) (lease : Timespan) :
    (s.claim now lease).2.failed = s.failed := by
  unfold claim
  split <;> rfl

theorem complete_failed (s : LaneState) (id : String) (token : Nat) :
    (s.complete id token).2.failed = s.failed := by
  rcases complete_cases s id token with ⟨-, heq⟩ | ⟨a, -, -, heq⟩
  · rw [heq]
  · rw [heq]
    rfl

theorem Settled.failed_append {s s' : LaneState} {id : String} {token : Nat}
    {update : JobPayload → JobPayload} {d : Disposition} (h : Settled s id token update d s') :
    ∃ records, s'.failed = s.failed ++ records := by
  cases h with
  | stale => exact ⟨[], (List.append_nil _).symm⟩
  | released ha ht hjob h =>
    rcases h.failed_eq with hf | ⟨record, -, hf⟩
    · refine ⟨[], ?_⟩
      rw [hf, List.append_nil]
      rfl
    · exact ⟨[record], hf⟩

theorem Settled.keeps {s s' : LaneState} (hs : s.Carries fun _ => True) {id' : String}
    {token : Nat} {update : JobPayload → JobPayload} {d : Disposition}
    (hid' : ∀ p : JobPayload, p.id = id' → (update p).id = id')
    (hsame : d = .failed → ∀ p : JobPayload, p.SameWork (update p))
    (h : Settled s id' token update d s') {id : String} (hid : s.Holds id) :
    s'.Holds id ∨ id' = id ∧ d = .failed ∧ s.LostTo s' id := by
  cases h with
  | stale => exact .inl hid
  | released ha ht hjob h =>
    have hkey := (hs.active ha).1
    refine h.keeps_or_lost hs ha ?_ (fun hd => hjob ▸ hsame hd _) hid
    rw [hjob, hkey]
    exact hid' _ hkey

theorem retryLater_ne_failed (s : LaneState) (now : Nat) (payload : JobPayload) (token : Nat)
    (delay : Timespan) : (s.retryLater now payload token delay).1 ≠ .failed := by
  unfold retryLater
  split
  · unfold requeue
    split <;> exact nofun
  · exact nofun

end LaneState

namespace BrokerCall

def Completes (lane : Lane) (id : String) : (c : BrokerCall) → c.Reply → Prop
  | complete lane' id' _, reply => lane' = lane ∧ id' = id ∧ reply = true
  | _, _ => False

def ReportsFailed (lane : Lane) (id : String) : (c : BrokerCall) → c.Reply → Prop
  | fail lane' id' _ _, reply => lane' = lane ∧ id' = id ∧ reply = .failed
  | retryLater lane' payload _ _, reply => lane' = lane ∧ payload.id = id ∧ reply = .failed
  | recoverStalled lane', reply =>
    lane' = lane ∧ ∃ j ∈ reply, j.payload.id = id ∧ j.disposition = .failed
  | _, _ => False

end BrokerCall

namespace Lanes

/-- An identifier that was pending or claimed still is, or the call completed its job or reported it
as failed and put it into the failed set. -/
theorem apply_keeps {l : Lanes} (hl : l.Keyed) (lane : Lane) (clock : Clock) (c : BrokerCall)
    {id : String} (h : (l.get lane).Holds id) :
    ((l.apply clock c).2.get lane).Holds id ∨ c.Completes lane id (l.apply clock c).1 ∨
      c.ReportsFailed lane id (l.apply clock c).1 ∧
        (l.get lane).LostTo ((l.apply clock c).2.get lane) id := by
  by_cases hlane : lane = c.lane
  · subst hlane
    cases c with
    | add lane job options delay =>
      refine .inl ?_
      simp only [BrokerCall.lane, apply, step_snd, get_set_self]
      exact LaneState.add_keeps _ _ _ _ _ h
    | defer lane id' delay =>
      refine .inl ?_
      simp only [BrokerCall.lane, apply, step_snd, get_set_self]
      exact LaneState.defer_keeps _ _ _ _ h
    | claim lane lease =>
      refine .inl ?_
      simp only [BrokerCall.lane, apply, step_snd, get_set_self]
      exact LaneState.claim_keeps _ _ _ h
    | complete lane id' token =>
      simp only [BrokerCall.lane, apply, step_snd, get_set_self]
      rcases LaneState.complete_keeps _ id' token h with hk | ⟨hid, htrue⟩
      · exact .inl hk
      · exact .inr (.inl ⟨rfl, hid, htrue⟩)
    | fail lane id' token error =>
      simp only [BrokerCall.lane, apply, step_snd, get_set_self]
      have hs := (l.get lane).fail_settled clock id' token error
      have hsame : ((l.get lane).fail clock id' token error).1 = .failed →
          ∀ p : JobPayload, p.SameWork p := fun _ => .refl
      rcases hs.keeps (hl lane) (fun _ hid => hid) hsame h with hk | ⟨hid, hd, hlost⟩
      · exact .inl hk
      · exact .inr (.inr ⟨⟨rfl, hid, hd⟩, hlost⟩)
    | retryLater lane payload token delay =>
      simp only [BrokerCall.lane, apply, step_snd, get_set_self]
      have hs := (l.get lane).retryLater_settled clock.elapsed payload token delay
      have hne := (l.get lane).retryLater_ne_failed clock.elapsed payload token delay
      rcases hs.keeps (hl lane) (fun _ _ => rfl) (absurd · hne) h with hk | ⟨-, hd, -⟩
      · exact .inl hk
      · exact absurd hd hne
    | recoverStalled lane =>
      simp only [BrokerCall.lane, apply, step_snd, get_set_self]
      have hs := LaneState.recoverAll_keeps clock ((l.get lane).expired clock.elapsed) (hl lane) h
      rcases hs with hk | ⟨hj, hlost⟩
      · exact .inl hk
      · exact .inr (.inr ⟨⟨rfl, hj⟩, hlost⟩)
    | counts lane => exact .inl h
    | failedJobs lane => exact .inl h
  · exact .inl (apply_get_of_ne l clock hlane ▸ h)

theorem apply_failed (l : Lanes) (lane : Lane) (clock : Clock) (c : BrokerCall) :
    ∃ records, ((l.apply clock c).2.get lane).failed = (l.get lane).failed ++ records := by
  have hsame : ∀ {s : LaneState}, s.failed = (l.get lane).failed →
      ∃ records, s.failed = (l.get lane).failed ++ records := by
    intro s hs
    exact ⟨[], by rw [hs, List.append_nil]⟩
  by_cases hlane : lane = c.lane
  · subst hlane
    cases c with
    | add lane job options delay =>
      simp only [BrokerCall.lane, apply, step_snd, get_set_self]
      exact hsame (LaneState.add_failed ..)
    | defer lane id delay =>
      simp only [BrokerCall.lane, apply, step_snd, get_set_self]
      exact hsame (LaneState.defer_failed ..)
    | claim lane lease =>
      simp only [BrokerCall.lane, apply, step_snd, get_set_self]
      exact hsame (LaneState.claim_failed ..)
    | complete lane id token =>
      simp only [BrokerCall.lane, apply, step_snd, get_set_self]
      exact hsame (LaneState.complete_failed ..)
    | fail lane id token error =>
      simp only [BrokerCall.lane, apply, step_snd, get_set_self]
      exact ((l.get lane).fail_settled clock id token error).failed_append
    | retryLater lane payload token delay =>
      simp only [BrokerCall.lane, apply, step_snd, get_set_self]
      exact ((l.get lane).retryLater_settled clock.elapsed payload token delay).failed_append
    | recoverStalled lane =>
      simp only [BrokerCall.lane, apply, step_snd, get_set_self]
      exact LaneState.recoverAll_failed clock _ _
    | counts lane => exact hsame rfl
    | failedJobs lane => exact hsame rfl
  · rw [apply_get_of_ne l clock hlane]
    exact hsame rfl

theorem failed_of_apply {l : Lanes} {lane : Lane} {clock : Clock} {c : BrokerCall}
    (h : ((l.apply clock c).2.get lane).failed = []) : (l.get lane).failed = [] := by
  obtain ⟨records, hrecords⟩ := l.apply_failed lane clock c
  rw [h] at hrecords
  exact (List.append_eq_nil_iff.1 hrecords.symm).1

/-- As long as no job fails, only a completed job leaves its lane. -/
theorem apply_holds_or_completes {l : Lanes} (hl : l.Keyed) {lane : Lane} {clock : Clock}
    {c : BrokerCall} (hfailed : ((l.apply clock c).2.get lane).failed = (l.get lane).failed)
    {id : String} (h : (l.get lane).Holds id) :
    ((l.apply clock c).2.get lane).Holds id ∨ c.Completes lane id (l.apply clock c).1 := by
  rcases apply_keeps hl lane clock c h with hk | hcompletes | ⟨-, hlost⟩
  · exact .inl hk
  · exact .inr hcompletes
  · obtain ⟨a, record, records, -, happend, hmem, -⟩ := hlost
    rw [hfailed, List.self_eq_append_right] at happend
    rw [happend] at hmem
    cases hmem

theorem apply_holds {l : Lanes} (hl : l.Keyed) {lane : Lane} {clock : Clock} {c : BrokerCall}
    (hfailed : ((l.apply clock c).2.get lane).failed = []) {id : String}
    (hc : ¬ c.Completes lane id (l.apply clock c).1) (h : (l.get lane).Holds id) :
    ((l.apply clock c).2.get lane).Holds id :=
  (apply_holds_or_completes hl (hfailed.trans (failed_of_apply hfailed).symm) h).resolve_right hc

end Lanes

end SyncCascade
