import Mathlib.Data.List.Dedup
import SyncCascade.Proofs.Batch
import SyncCascade.Proofs.Broker.Publish
import SyncCascade.Proofs.Broker.Tokens
import SyncCascade.Proofs.Broker.Waiting

/-!
# Pushes that coalesce

Until it is claimed, a pending job stands for every offer with its identifier: it is the job of the
first one, it counts the others, and it is not ready before the last of them is due. So over any number
of pushes the pending jobs, the reports and the metrics count the same repetitions.
-/

namespace SyncCascade

namespace Offer

def of (id : String) (os : List Offer) : List Offer := os.filter fun o => o.job.id = id

theorem of_append (id : String) (os more : List Offer) : of id (os ++ more) = of id os ++ of id more :=
  List.filter_append ..

theorem length_of (id : String) (os : List Offer) : (of id os).length = (ids os).count id := by
  rw [ids, List.count_eq_countP, List.countP_map, List.countP_eq_length_filter]
  rfl

theorem exists_first {id : String} {os : List Offer} (h : id ∈ ids os) :
    ∃ first ∈ os, ∃ repeats, of id os = first :: repeats := by
  have hpos : 0 < (of id os).length := length_of id os ▸ List.count_pos_iff.2 h
  obtain ⟨first, repeats, hof⟩ := List.exists_cons_of_length_pos hpos
  exact ⟨first, List.mem_of_mem_filter (hof ▸ List.mem_cons_self), repeats, hof⟩

/-- Nothing is pending without an offer. After some offers it is the job of the first one, which counts
the others and is not ready before one of them is due. -/
inductive Merged : List Offer → Option QueuedJob → Prop
  | unoffered : Merged [] none
  | stands {first : Offer} {repeats : List Offer} {q : QueuedJob}
      (hpayload : q.payload = { first.job with
        dedupCount := first.job.dedupCount + UInt32.ofNat repeats.length })
      (hdue : ∀ o ∈ repeats, o.due ≤ q.readyAt) : Merged (first :: repeats) (some q)

theorem Merged.single {o : Offer} {q : QueuedJob} (h : q.payload = o.job) : Merged [o] (some q) := by
  refine .stands ?_ (List.forall_mem_nil _)
  rw [h]
  simp

theorem Merged.repeated {os : List Offer} {o : Offer} {q : QueuedJob} (h : Merged os (some q)) :
    Merged (os ++ [o]) (some (LaneState.deferJob o.now o.options.dedupDelay q)) := by
  cases h with
  | stands hpayload hdue =>
    refine .stands ?_ fun o' ho' => ?_
    · unfold LaneState.deferJob
      rw [hpayload]
      simp [UInt32.ofNat_add, UInt32.add_assoc]
    · rcases List.mem_append.1 ho' with ho' | ho'
      · exact Nat.le_trans (hdue o' ho') (Nat.le_max_left ..)
      · obtain rfl := List.mem_singleton.1 ho'
        exact Nat.le_max_right ..

end Offer

namespace LaneState

variable {s : LaneState} {os : List Offer}

/-- Under every identifier stands what its offers leave. -/
def Merges (s : LaneState) (os : List Offer) : Prop :=
  ∀ id, Offer.Merged (Offer.of id os) (s.pending.find? id)

theorem accept_merges (h : s.Merges os) (o : Offer) : (s.accept o).Merges (os ++ [o]) := by
  intro id
  rw [Offer.of_append]
  have hid := h id
  by_cases heq : id = o.job.id
  · subst heq
    have hof : Offer.of o.job.id [o] = [o] := by simp [Offer.of]
    rw [hof]
    cases hfind : s.pending.find? o.job.id with
    | none =>
      obtain ⟨q, hq, hpayload⟩ := find?_accept_of_new hfind
      rw [hfind] at hid
      rw [hq]
      -- Nothing is pending, so there was no offer; the cases need a variable in its place.
      generalize Offer.of o.job.id os = before at hid
      cases hid
      exact .single hpayload
    | some q =>
      rw [hfind] at hid
      rw [find?_accept_of_pending hfind]
      exact hid.repeated
  · have hof : Offer.of id [o] = [] := by simp [Offer.of, Ne.symm heq]
    rw [hof, List.append_nil, find?_accept_of_ne heq]
    exact hid

theorem acceptAll_merges (h : s.Merges os) (more : List Offer) :
    (s.acceptAll more).Merges (os ++ more) := by
  induction more generalizing s os with
  | nil => rwa [List.append_nil]
  | cons o rest ih =>
    have hrest := ih (accept_merges h o)
    rwa [List.append_assoc] at hrest

theorem merges_nil (h : ∀ id, s.pending.contains id = false) : s.Merges [] := fun id => by
  rw [Table.contains_eq_false.1 (h id)]
  exact .unoffered

theorem mem_pendingIds {P : JobPayload → Prop} (hs : s.Carries P) {id : String} :
    id ∈ s.pendingIds ↔ s.pending.contains id = true := by
  rw [pendingIds, List.mem_map, Table.contains_eq_true]
  constructor
  · rintro ⟨q, hq, rfl⟩
    obtain ⟨id, hid⟩ := Table.mem_rows.1 hq
    exact ⟨q, (hs.pending hid).1 ▸ hid⟩
  · rintro ⟨q, hq⟩
    exact ⟨q, Table.mem_rows.2 ⟨id, hq⟩, (hs.pending hq).1⟩

theorem pendingIds_acceptAll_perm {P : JobPayload → Prop} (os : List Offer)
    (hs : (s.acceptAll os).Carries P) (hfree : ∀ id, s.pending.contains id = false) :
    (s.acceptAll os).pendingIds.Perm (Offer.ids os).dedup := by
  refine (List.perm_ext_iff_of_nodup hs.pendingIds_nodup (List.nodup_dedup _)).2 fun id => ?_
  rw [mem_pendingIds hs, contains_acceptAll, hfree, List.mem_dedup]
  simp

theorem enqueued_replies_perm (os : List Offer) (hfree : ∀ id, s.pending.contains id = false) :
    (s.replies os).enqueued.Perm (Offer.ids os).dedup := by
  refine (List.perm_ext_iff_of_nodup (nodup_enqueued_replies s os) (List.nodup_dedup _)).2
    fun id => ?_
  rw [mem_enqueued_replies, List.mem_dedup]
  exact and_iff_right (hfree id)

theorem length_deduplicated_replies (os : List Offer)
    (hfree : ∀ id, s.pending.contains id = false) :
    (s.replies os).deduplicated.length + (Offer.ids os).dedup.length = (Offer.ids os).length := by
  have hall := (jobIds_replies_perm s os).length_eq
  have hnew := (enqueued_replies_perm os hfree).length_eq
  rw [PushReport.jobIds, List.length_append] at hall
  omega

/-- Where all jobs come without a count, the one that stands has counted the repetitions. -/
theorem Merges.stands (h : s.Merges os) (hnew : ∀ o ∈ os, o.job.dedupCount = 0) {id : String}
    (hid : id ∈ Offer.ids os) :
    ∃ first repeats q, Offer.of id os = first :: repeats ∧ s.pending.find? id = some q ∧
      q.payload.memberIds = first.job.memberIds ∧
      ((Offer.ids os).count id ≤ Word.limit 32 →
        q.payload.dedupCount.toNat + 1 = (Offer.ids os).count id) ∧
      ∀ o ∈ repeats, s.Waits id o.due := by
  obtain ⟨first, hfirst, repeats, hof⟩ := Offer.exists_first hid
  have hlength := Offer.length_of id os
  have hmerged := h id
  rw [hof] at hlength hmerged
  cases hfind : s.pending.find? id with
  | none =>
    rw [hfind] at hmerged
    cases hmerged
  | some q =>
    rw [hfind] at hmerged
    cases hmerged with
    | stands hpayload hdue =>
      rw [hnew first hfirst, UInt32.zero_add] at hpayload
      refine ⟨first, repeats, q, hof, rfl, ?_, fun hbound => ?_, fun o ho => ⟨q, hfind, hdue o ho⟩⟩
      · rw [hpayload]
        rfl
      · rw [← hlength, List.length_cons] at hbound ⊢
        have hlimit : repeats.length < 2 ^ 32 := hbound
        rw [hpayload, UInt32.toNat_ofNat', Nat.mod_eq_of_lt hlimit]

end LaneState

/-- A call of `push`, and the clock at that moment. -/
structure Push where
  clock : Clock
  config : QueueConfig
  kind : JobKind
  ids : List String

namespace Push

def lane (p : Push) : Lane := p.kind.lane

/-- What the push brings to its lane. -/
def offers (p : Push) : List Offer :=
  (Queue.formJobs (p.config.lane p.lane) p.kind p.ids).map
    (.mk p.clock.elapsed (p.config.lane p.lane))

def offersOn (lane : Lane) (pushes : List Push) : List Offer :=
  pushes.flatMap fun p => if p.lane = lane then p.offers else []

def reportOn (lane : Lane) : List (Push × PushReport) → PushReport
  | [] => .empty
  | (p, report) :: rest => (if p.lane = lane then report else .empty) ++ reportOn lane rest

/-- The pushes one after another. -/
def perform {σ : Type} : List Push → Action σ Lanes (List (Push × PushReport))
  | [] => pure []
  | p :: rest => do
    Action.update fun w => { w with clock := p.clock }
    let report ← Queue.push Lanes.broker p.config p.kind p.ids
    let reports ← perform rest
    pure ((p, report) :: reports)

theorem dedupCount_of_mem_offersOn {lane : Lane} {pushes : List Push} {o : Offer}
    (ho : o ∈ offersOn lane pushes) : o.job.dedupCount = 0 := by
  obtain ⟨p, -, ho⟩ := List.mem_flatMap.1 ho
  obtain ⟨job, hjob, rfl⟩ := List.mem_map.1 (List.mem_ite_nil_right.1 ho).2
  rcases Queue.of_mem_formJobs hjob with ⟨s, -, rfl⟩ | ⟨m, rfl, -⟩
  · rfl
  · rfl

end Push

/-- Every lane has taken what the pushes bring to it, and reported and counted it. -/
structure World.Pushed {σ : Type} (pushes : List Push) (w : World σ Lanes)
    (reports : List (Push × PushReport)) (w' : World σ Lanes) : Prop where
  pushes_eq : reports.map Prod.fst = pushes
  lane_eq : ∀ lane, w'.broker.get lane = (w.broker.get lane).acceptAll (Push.offersOn lane pushes)
  report_eq : ∀ lane,
    Push.reportOn lane reports = (w.broker.get lane).replies (Push.offersOn lane pushes)
  duplicates_eq : ∀ lane,
    w'.duplicates lane = w.duplicates lane + (Push.reportOn lane reports).deduplicated.length

namespace World.Pushed

variable {σ : Type} {w w₁ w' : World σ Lanes} {p : Push} {rest : List Push}
  {reports : List (Push × PushReport)}

theorem nil (w : World σ Lanes) : w.Pushed [] [] w where
  pushes_eq := rfl
  lane_eq _ := rfl
  report_eq _ := rfl
  duplicates_eq _ := rfl

theorem of_clock {clock : Clock} {pushes : List Push}
    (h : ({ w with clock := clock } : World σ Lanes).Pushed pushes reports w') :
    w.Pushed pushes reports w' :=
  ⟨h.pushes_eq, h.lane_eq, h.report_eq, h.duplicates_eq⟩

theorem cons (h : w.Accepted p.lane p.offers w₁) (h' : w₁.Pushed rest reports w') :
    w.Pushed (p :: rest) ((p, (w.broker.get p.lane).replies p.offers) :: reports) w' := by
  have hlane : ∀ lane, w₁.broker.get lane =
      (w.broker.get lane).acceptAll (if p.lane = lane then p.offers else []) := by
    intro lane
    rw [h.broker]
    by_cases heq : p.lane = lane
    · subst heq
      rw [Lanes.get_set_self, if_pos rfl]
    · rw [Lanes.get_set_of_ne _ _ (Ne.symm heq), if_neg heq]
      rfl
  have hfirst : ∀ lane, (if p.lane = lane then (w.broker.get p.lane).replies p.offers else .empty) =
      (w.broker.get lane).replies (if p.lane = lane then p.offers else []) := by
    intro lane
    split
    next heq => rw [heq]
    next => rfl
  refine ⟨congrArg (p :: ·) h'.pushes_eq, fun lane => ?_, fun lane => ?_, fun lane => ?_⟩
  · rw [h'.lane_eq, hlane, ← LaneState.acceptAll_append]
    rfl
  · rw [Push.reportOn, h'.report_eq, hlane, hfirst, ← LaneState.replies_append]
    rfl
  · rw [h'.duplicates_eq, h.duplicates, Push.reportOn, PushReport.deduplicated_append,
      List.length_append, Nat.add_assoc]
    simp only [eq_comm (a := lane)]
    split <;> rfl

end World.Pushed

namespace Push

open SyncCascade.Action

variable {σ : Type} {w : World σ Lanes}

theorem perform_pushed (w : World σ Lanes) (pushes : List Push) :
    (perform pushes).Ensures w (w.Pushed pushes) fun _ _ => False := by
  induction pushes generalizing w with
  | nil => exact .nil w
  | cons p rest ih =>
    unfold perform
    refine ensures_bind.2 (ensures_update.2 (ensures_bind.2 ?_))
    refine (Queue.push_accepted p.config p.kind p.ids).mono ?_ fun _ _ h => h
    rintro _ w₁ ⟨h₁, rfl⟩
    refine ensures_bind.2 ((ih w₁).mono (fun reports w' h' => ?_) fun _ _ h => h)
    exact (World.Pushed.cons h₁ h').of_clock

/-- Pushes of any kinds, targets and batchings meet lanes on which nothing is pending, at any times and
with no claim in between. Then on every lane each job that was formed is pending once, with the members
that it had at first; it has counted the other times it was formed, as did the reports and the metrics,
and its first claim comes when the dedup delay after each of them has passed. -/
theorem pushes_coalesce (w : World σ Lanes) (hkeyed : w.broker.Keyed)
    (hfree : ∀ lane id, (w.broker.get lane).pending.contains id = false) (pushes : List Push) :
    (perform pushes).Ensures w
      (fun reports w' => reports.map Prod.fst = pushes ∧ ∀ lane,
        let os := offersOn lane pushes
        let ids := Offer.ids os
        let report := reportOn lane reports
        (w'.broker.get lane).pendingIds.Perm ids.dedup ∧
        report.enqueued.Perm ids.dedup ∧
        report.deduplicated.length + ids.dedup.length = ids.length ∧
        w'.duplicates lane + ids.dedup.length = w.duplicates lane + ids.length ∧
        ∀ id ∈ ids, ∃ first repeats q, Offer.of id os = first :: repeats ∧
          (w'.broker.get lane).pending.find? id = some q ∧
          q.payload.memberIds = first.job.memberIds ∧
          (ids.count id ≤ Word.limit 32 → q.payload.dedupCount.toNat + 1 = ids.count id) ∧
          ∀ (history : List TimedCall) (clock : Clock) (c : BrokerCall),
            w'.broker.Unclaimed lane id history →
            c.claimCount lane id ((w'.broker.after history).apply clock c).1 = 1 →
            ∀ o ∈ repeats, o.due ≤ clock.elapsed)
      fun _ _ => False := by
  refine (perform_pushed w pushes).mono (fun reports w' h => ⟨h.pushes_eq, fun lane => ?_⟩)
    fun _ _ h => h
  intro os ids report
  have hkeyed' : w'.broker.Keyed := fun lane => by
    rw [h.lane_eq]
    exact LaneState.acceptAll_carries aboutWork_true (hkeyed lane) fun _ _ => trivial
  have hpending := LaneState.pendingIds_acceptAll_perm os
    (h.lane_eq lane ▸ hkeyed' lane) (hfree lane)
  have hnew := LaneState.enqueued_replies_perm os (hfree lane)
  rw [← h.lane_eq] at hpending
  rw [← h.report_eq] at hnew
  have hcount : report.deduplicated.length + ids.dedup.length = ids.length :=
    (congrArg (fun r => r.deduplicated.length + _) (h.report_eq lane)).trans
      (LaneState.length_deduplicated_replies os (hfree lane))
  have hduplicates : w'.duplicates lane = w.duplicates lane + report.deduplicated.length :=
    h.duplicates_eq lane
  refine ⟨hpending, hnew, hcount, by omega, fun id hid => ?_⟩
  have hmerges : (w'.broker.get lane).Merges os := by
    rw [h.lane_eq]
    exact LaneState.acceptAll_merges (LaneState.merges_nil (hfree lane)) os
  obtain ⟨first, repeats, q, hof, hq, hmembers, hcounted, hwaits⟩ :=
    hmerges.stands (fun o ho => dedupCount_of_mem_offersOn ho) hid
  exact ⟨first, repeats, q, hof, hq, hmembers, hcounted, fun history clock c hhistory hclaim o ho =>
    Lanes.due_of_first_claim hkeyed' (hwaits o ho) hhistory hclaim⟩

/-- A file is pushed twice at once and a third time later. -/
theorem pushes_coalesce_files :
    let w : World Unit Lanes := .initial () .empty
    let pushes : List Push :=
      [⟨⟨⟨0, 0⟩, 0⟩, .default, .fileClosure, ["f", "g", "f"]⟩,
        ⟨⟨⟨0, 0⟩, 5⟩, .default, .fileClosure, ["f"]⟩]
    w.broker.Keyed ∧ (∀ lane id, (w.broker.get lane).pending.contains id = false) ∧
      (perform pushes).Ensures w
        (fun reports w' => w'.duplicates .files = 2 ∧
          (reportOn .files reports).deduplicated.length = 2 ∧
          (w'.broker.get .files).pendingIds.Perm ["f", "g"] ∧
          ∃ q, (w'.broker.get .files).pending.find? "f" = some q ∧ q.payload.dedupCount.toNat = 2 ∧
            ∀ (clock : Clock) (c : BrokerCall),
              c.claimCount .files "f" (w'.broker.apply clock c).1 = 1 → 1000000005 ≤ clock.elapsed)
        fun _ _ => False := by
  intro w pushes
  have hfree : ∀ lane id, (w.broker.get lane).pending.contains id = false := by
    intro lane id
    cases lane <;> rfl
  refine ⟨Lanes.keyed_empty, hfree, ?_⟩
  refine (pushes_coalesce w Lanes.keyed_empty hfree pushes).mono ?_ fun _ _ h => h
  intro reports w' ⟨_, h⟩
  obtain ⟨hpending, -, hreport, hduplicates, hstands⟩ := h .files
  have hids : Offer.ids (offersOn .files pushes) = ["f", "g", "f", "f"] := rfl
  have hdedup : ["f", "g", "f", "f"].dedup = ["g", "f"] := by decide
  rw [hids] at hpending hreport hduplicates hstands
  rw [hdedup] at hpending hreport hduplicates
  obtain ⟨first, repeats, q, hof, hq, -, hcount, hclaims⟩ := hstands "f" (by decide)
  have hthree : ["f", "g", "f", "f"].count "f" = 3 := by decide
  rw [hthree] at hcount
  have hlater : (⟨5, .default, .single .fileClosure "f"⟩ : Offer) ∈ repeats := by
    have hoffers : Offer.of "f" (offersOn .files pushes) =
        [⟨0, .default, .single .fileClosure "f"⟩, ⟨0, .default, .single .fileClosure "f"⟩,
          ⟨5, .default, .single .fileClosure "f"⟩] := rfl
    rw [hoffers] at hof
    cases hof
    simp
  have hlimit : 3 ≤ Word.limit 32 := by decide
  exact ⟨Nat.add_right_cancel hduplicates, Nat.add_right_cancel hreport, hpending.trans (.swap ..), q,
    hq, Nat.add_right_cancel (hcount hlimit),
    fun clock c hclaim => hclaims [] clock c trivial hclaim _ hlater⟩

end Push

end SyncCascade
