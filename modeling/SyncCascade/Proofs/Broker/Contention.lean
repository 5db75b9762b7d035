import SyncCascade.Proofs.Broker.Publish
import SyncCascade.Proofs.Broker.Waiting

/-!
# Publishing among other clients

A push calls the broker several times, and other clients call it in between. A `Contention` is the
broker in memory as one client meets it: before each of its calls the others make any calls at any
times. A trace lists the calls in their order, tagged by who made them, so every state of the lanes
since the start is the state after a part of the trace. A pending job goes away only by a claim;
therefore a push that succeeds saw each of its jobs pending, and one that fails lost one of them to
as many claims as it had rounds.
-/

namespace SyncCascade

/-- A call on lanes that several clients share. -/
structure SharedCall where
  /-- Whether it is a call of the client that is watched. -/
  own : Bool
  made : TimedCall

namespace BrokerCall

def publishes : BrokerCall → Bool
  | add .. => true
  | defer .. => true
  | _ => false

theorem claimCount_of_publishes {c : BrokerCall} (h : c.publishes = true) (lane : Lane)
    (id : String) (reply : c.Reply) : c.claimCount lane id reply = 0 := by
  cases c <;> first | rfl | cases h

end BrokerCall

namespace Lanes

def afterShared (l : Lanes) (trace : List SharedCall) : Lanes := l.after (trace.map SharedCall.made)

/-- How often other clients claimed a job with the identifier. -/
def claimsOfOthers (lane : Lane) (id : String) (l : Lanes) : List SharedCall → Nat
  | [] => 0
  | e :: rest =>
    (if e.own = true then 0
      else e.made.call.claimCount lane id (l.apply e.made.clock e.made.call).1) +
      claimsOfOthers lane id (l.apply e.made.clock e.made.call).2 rest

/-- A job with the identifier is pending in one of the states of the trace. -/
def PendingAmid (lane : Lane) (id : String) (l : Lanes) (trace : List SharedCall) : Prop :=
  ∃ before later, trace = before ++ later ∧
    ((l.afterShared before).get lane).pending.contains id = true

/-- The watched client only publishes. -/
def OnlyPublishes (trace : List SharedCall) : Prop :=
  ∀ e ∈ trace, e.own = true → e.made.call.publishes = true

variable {lane : Lane} {id : String} {l : Lanes} {trace first second : List SharedCall}

theorem afterShared_append (l : Lanes) (first second : List SharedCall) :
    l.afterShared (first ++ second) = (l.afterShared first).afterShared second := by
  unfold afterShared
  rw [List.map_append, after_append]

theorem claimsOfOthers_append (lane : Lane) (id : String) (l : Lanes)
    (first second : List SharedCall) :
    claimsOfOthers lane id l (first ++ second) =
      claimsOfOthers lane id l first + claimsOfOthers lane id (l.afterShared first) second := by
  induction first generalizing l with
  | nil => exact (Nat.zero_add _).symm
  | cons e rest ih =>
    simp only [List.cons_append, claimsOfOthers, ih, Nat.add_assoc]
    rfl

theorem OnlyPublishes.append (h : OnlyPublishes first) (h' : OnlyPublishes second) :
    OnlyPublishes (first ++ second) := fun e he =>
  (List.mem_append.1 he).elim (h e) (h' e)

theorem onlyPublishes_others (calls : List TimedCall) :
    OnlyPublishes (calls.map (SharedCall.mk false)) := by
  intro e he hown
  obtain ⟨call, -, rfl⟩ := List.mem_map.1 he
  cases hown

theorem PendingAmid.append (h : PendingAmid lane id l first) (second : List SharedCall) :
    PendingAmid lane id l (first ++ second) := by
  obtain ⟨before, later, rfl, hp⟩ := h
  exact ⟨before, later ++ second, List.append_assoc .., hp⟩

theorem PendingAmid.after (h : PendingAmid lane id (l.afterShared first) second) :
    PendingAmid lane id l (first ++ second) := by
  obtain ⟨before, later, rfl, hp⟩ := h
  refine ⟨first ++ before, later, (List.append_assoc ..).symm, ?_⟩
  rwa [afterShared_append]

theorem pending_or_claimed (htrace : OnlyPublishes trace)
    (h : (l.get lane).pending.contains id = true) :
    ((l.afterShared trace).get lane).pending.contains id = true ∨
      1 ≤ claimsOfOthers lane id l trace := by
  induction trace generalizing l with
  | nil => exact .inl h
  | cons e rest ih =>
    have hrest : OnlyPublishes rest := fun e' he' => htrace e' (List.mem_cons_of_mem _ he')
    rcases apply_pending e.made.clock e.made.call h with hp | hclaim
    · refine (ih hrest hp).imp_right fun hle => ?_
      rw [claimsOfOthers]
      omega
    · refine .inr ?_
      cases hown : e.own with
      | true =>
        have hnone := BrokerCall.claimCount_of_publishes (htrace e List.mem_cons_self hown) lane id
          (l.apply e.made.clock e.made.call).1
        omega
      | false =>
        rw [claimsOfOthers, hown, hclaim, if_neg Bool.false_ne_true]
        omega

theorem PendingAmid.pending_or_claimed (htrace : OnlyPublishes trace)
    (h : PendingAmid lane id l trace) :
    ((l.afterShared trace).get lane).pending.contains id = true ∨
      1 ≤ claimsOfOthers lane id l trace := by
  obtain ⟨before, later, rfl, hp⟩ := h
  rw [afterShared_append, claimsOfOthers_append]
  have hlater : OnlyPublishes later := fun e he => htrace e (List.mem_append_right _ he)
  refine (Lanes.pending_or_claimed hlater hp).imp_right fun hle => ?_
  omega

end Lanes

/-- What happens before a call of the client, and the clock when it makes the call. -/
structure Turn where
  others : List TimedCall
  clock : Clock

structure Contention where
  start : Lanes
  /-- All calls since the start, the oldest first. -/
  trace : List SharedCall
  /-- One turn for each of the next calls of the client. -/
  turns : List Turn

namespace Contention

def fresh (l : Lanes) (turns : List Turn) : Contention := ⟨l, [], turns⟩

def lanes (s : Contention) : Lanes := s.start.afterShared s.trace

/-- The turn of the next call; when none is left the client is alone. -/
def turn (s : Contention) (clock : Clock) : Turn := s.turns.head?.getD ⟨[], clock⟩

/-- After the calls of the others that come before the next call of the client. -/
def yielded (s : Contention) (clock : Clock) : Contention where
  start := s.start
  trace := s.trace ++ (s.turn clock).others.map (SharedCall.mk false)
  turns := s.turns.tail

def called (s : Contention) (clock : Clock) (c : BrokerCall) : Contention :=
  { s.yielded clock with
    trace := (s.yielded clock).trace ++ [⟨true, ⟨(s.turn clock).clock, c⟩⟩] }

/-- The broker in memory as the client meets it. -/
def broker : Broker Contention where
  call clock c s :=
    (.ok ((s.yielded clock).lanes.apply (s.turn clock).clock c).1, s.called clock c)
  announces _ := false

/-- From `s` to `s'` these calls were made, and the client only published. -/
structure Extends (s : Contention) (more : List SharedCall) (s' : Contention) : Prop where
  start_eq : s'.start = s.start
  trace_eq : s'.trace = s.trace ++ more
  publishes : Lanes.OnlyPublishes more

variable {s s' s'' : Contention} {more more' : List SharedCall}

theorem Extends.refl (s : Contention) : s.Extends [] s where
  start_eq := rfl
  trace_eq := (List.append_nil _).symm
  publishes _ h := by cases h

theorem Extends.trans (h : s.Extends more s') (h' : s'.Extends more' s'') :
    s.Extends (more ++ more') s'' where
  start_eq := h'.start_eq.trans h.start_eq
  trace_eq := by rw [h'.trace_eq, h.trace_eq, List.append_assoc]
  publishes := h.publishes.append h'.publishes

theorem Extends.lanes_eq (h : s.Extends more s') : s'.lanes = s.lanes.afterShared more := by
  unfold lanes
  rw [h.start_eq, h.trace_eq, Lanes.afterShared_append]

theorem extends_yielded (s : Contention) (clock : Clock) :
    s.Extends ((s.turn clock).others.map (SharedCall.mk false)) (s.yielded clock) where
  start_eq := rfl
  trace_eq := rfl
  publishes := Lanes.onlyPublishes_others _

theorem extends_called (s : Contention) (clock : Clock) {c : BrokerCall}
    (hc : c.publishes = true) :
    (s.yielded clock).Extends [⟨true, ⟨(s.turn clock).clock, c⟩⟩] (s.called clock c) where
  start_eq := rfl
  trace_eq := rfl
  publishes e he _ := by
    rw [List.mem_singleton.1 he]
    exact hc

theorem lanes_called (s : Contention) (clock : Clock) {c : BrokerCall} (hc : c.publishes = true) :
    (s.called clock c).lanes = ((s.yielded clock).lanes.apply (s.turn clock).clock c).2 :=
  (extends_called s clock hc).lanes_eq

end Contention

namespace Queue

variable {σ : Type} {w : World σ Contention}

open SyncCascade.Action SyncCascade.Contention

theorem request_contention {c : BrokerCall} {R : c.Reply → World σ Contention → Prop}
    {F : Failure → World σ Contention → Prop} :
    (request Contention.broker c).Ensures w R F ↔
      R ((w.broker.yielded w.clock).lanes.apply (w.broker.turn w.clock).clock c).1
        { w with broker := w.broker.called w.clock c } := Iff.rfl

/-- A job that is published was pending at some moment since; one that is given up was claimed once
in every round, between the addition that found it pending and the deferral that did not. -/
theorem enqueue_contention (options : LaneOptions) (lane : Lane) (job : JobPayload) (rounds : Nat) :
    (enqueue Contention.broker options lane job rounds).Ensures w
      (fun _ w' => ∃ more, w.broker.Extends more w'.broker ∧
        Lanes.PendingAmid lane job.id w.broker.lanes more)
      fun e w' => e = exhausted lane job.id ∧ ∃ more, w.broker.Extends more w'.broker ∧
        rounds ≤ Lanes.claimsOfOthers lane job.id w.broker.lanes more := by
  induction rounds generalizing w with
  | zero => exact ⟨rfl, [], .refl _, Nat.zero_le _⟩
  | succ rounds ih =>
    unfold enqueue
    rw [ensures_bind, request_contention]
    have hfirst := (extends_yielded w.broker w.clock).trans
      (extends_called w.broker w.clock (c := .add lane job options .zero) rfl)
    have hlanes := lanes_called w.broker w.clock (c := .add lane job options .zero) rfl
    cases hp : ((w.broker.yielded w.clock).lanes.get lane).pending.contains job.id with
    | false =>
      have hadd := Lanes.add_of_not_pending (w.broker.turn w.clock).clock options hp
      rw [hadd] at hlanes ⊢
      refine ⟨_, hfirst, _, [], (List.append_nil _).symm, ?_⟩
      rw [← hfirst.lanes_eq, hlanes, Lanes.get_set_self]
      exact (LaneState.contains_offer job).2 (.inr rfl)
    | true =>
      have hadd := Lanes.add_of_pending (w.broker.turn w.clock).clock options hp
      rw [hadd] at hlanes ⊢
      dsimp only at hlanes
      have hamid : Lanes.PendingAmid lane job.id w.broker.lanes _ :=
        ⟨_, [], (List.append_nil _).symm, by rwa [← hfirst.lanes_eq, hlanes]⟩
      generalize w.broker.called w.clock (.add lane job options .zero) = s at hfirst hlanes hamid ⊢
      dsimp only
      rw [ensures_bind, request_contention]
      dsimp only
      have hothers := extends_yielded s w.clock
      have hsecond := hothers.trans
        (extends_called s w.clock (c := .defer lane job.id options.dedupDelay) rfl)
      cases hp' : ((s.yielded w.clock).lanes.get lane).pending.contains job.id with
      | true =>
        obtain ⟨n, hdefer⟩ := Lanes.defer_of_pending (s.turn w.clock).clock options hp'
        rw [hdefer]
        dsimp only
        rw [ensures_bind]
        refine ensures_record (fun _ _ _ h => h) ?_
        rw [ensures_bind]
        exact ensures_note (fun _ _ _ h => h) ⟨_, hfirst.trans hsecond, hamid.append _⟩
      | false =>
        have hdefer := Lanes.defer_of_not_pending (s.turn w.clock).clock options.dedupDelay hp'
        rw [hdefer]
        have hclaimed : 1 ≤ Lanes.claimsOfOthers lane job.id s.lanes
            ((s.turn w.clock).others.map (SharedCall.mk false)) := by
          rw [← hlanes] at hp
          rcases Lanes.pending_or_claimed hothers.publishes hp with hstill | hclaimed
          · rw [← hothers.lanes_eq, hp'] at hstill
            cases hstill
          · exact hclaimed
        refine ih.mono ?_ ?_
        · rintro new w' ⟨more, hmore, hpending⟩
          have hall := hfirst.trans (hsecond.trans hmore)
          exact ⟨_, hall, hamid.append _⟩
        · rintro e w' ⟨rfl, more, hmore, hclaims⟩
          refine ⟨rfl, _, hfirst.trans (hsecond.trans hmore), ?_⟩
          rw [Lanes.claimsOfOthers_append, ← hfirst.lanes_eq,
            Lanes.claimsOfOthers_append lane job.id s.lanes _ more, ← hsecond.lanes_eq,
            Lanes.claimsOfOthers_append lane job.id s.lanes]
          dsimp only at hclaims
          omega

/-- Every job of a push is pending at some moment since, or one is claimed in every round. -/
theorem publish_contention (options : LaneOptions) (lane : Lane) (report : PushReport)
    (jobs : List JobPayload) :
    (publish Contention.broker options lane report jobs).Ensures w
      (fun _ w' => ∃ more, w.broker.Extends more w'.broker ∧
        ∀ job ∈ jobs, Lanes.PendingAmid lane job.id w.broker.lanes more)
      fun e w' => ∃ job ∈ jobs, e = exhausted lane job.id ∧
        ∃ more, w.broker.Extends more w'.broker ∧
          maxRounds ≤ Lanes.claimsOfOthers lane job.id w.broker.lanes more := by
  induction jobs generalizing w report with
  | nil => exact ⟨[], .refl _, fun _ h => nomatch h⟩
  | cons job rest ih =>
    rw [publish_cons, ensures_bind]
    refine (enqueue_contention options lane job maxRounds).mono ?_ ?_
    · rintro new w' ⟨more, hmore, hamid⟩
      refine (ih _).mono ?_ ?_
      · rintro _ w'' ⟨more', hmore', hpending⟩
        refine ⟨_, hmore.trans hmore', fun job' hjob' => ?_⟩
        rcases List.mem_cons.1 hjob' with rfl | hjob'
        · exact hamid.append _
        · exact .after (hmore.lanes_eq ▸ hpending job' hjob')
      · rintro e w'' ⟨job', hjob', rfl, more', hmore', hclaims⟩
        refine ⟨job', List.mem_cons_of_mem _ hjob', rfl, _, hmore.trans hmore', ?_⟩
        rw [Lanes.claimsOfOthers_append, ← hmore.lanes_eq]
        omega
    · rintro e w' ⟨rfl, more, hmore, hclaims⟩
      exact ⟨job, List.mem_cons_self, rfl, more, hmore, hclaims⟩

/-- Whatever other clients do between the calls of a push, and after its last one until it returns:
if it succeeds, each of its jobs was pending in a state between its start and its end, so it still
is or another client claimed it meanwhile; if it fails, other clients claimed one of its jobs in
each of its rounds. -/
theorem push_loses_no_trigger (w : World σ Contention) (start : Lanes) (turns : List Turn)
    (config : QueueConfig) (kind : JobKind) (ids : List String) :
    (push Contention.broker config kind ids).Ensures { w with broker := .fresh start turns }
      (fun _ w' => ∀ last : List TimedCall,
        let trace := w'.broker.trace ++ last.map (SharedCall.mk false)
        ∀ job ∈ formJobs (config.lane kind.lane) kind ids,
          Lanes.PendingAmid kind.lane job.id start trace ∧
          (((start.afterShared trace).get kind.lane).pending.contains job.id = true ∨
            1 ≤ Lanes.claimsOfOthers kind.lane job.id start trace))
      fun e w' => ∃ job ∈ formJobs (config.lane kind.lane) kind ids,
        e = exhausted kind.lane job.id ∧
        3 ≤ Lanes.claimsOfOthers kind.lane job.id start w'.broker.trace := by
  refine ((publish_contention (w := { w with broker := .fresh start turns }) _ _ _ _).mono
    ?_ ?_).announcing fun _ _ _ _ h => h
  · rintro _ w' ⟨more, hmore, hpending⟩ last trace job hjob
    have htrace : w'.broker.trace = more := hmore.trace_eq
    have hlast := (hpending job hjob).append (last.map (SharedCall.mk false))
    rw [← htrace] at hlast
    refine ⟨hlast, hlast.pending_or_claimed ?_⟩
    rw [htrace]
    exact hmore.publishes.append (Lanes.onlyPublishes_others last)
  · rintro e w' ⟨job, hjob, rfl, more, hmore, hclaims⟩
    have htrace : w'.broker.trace = more := hmore.trace_eq
    exact ⟨job, hjob, rfl, htrace ▸ hclaims⟩

/-- Another client queues the job before each addition of a push, and claims it with an empty lease
before each deferral. -/
def snatchingTurns (clock : Clock) (kind : JobKind) (id : String) : List Turn :=
  let snatched := [⟨[⟨clock, .add kind.lane (.single kind id) .default .zero⟩], clock⟩,
    ⟨[⟨clock, .recoverStalled kind.lane⟩, ⟨clock, .claim kind.lane .zero⟩], clock⟩]
  snatched ++ snatched ++ snatched

example :
    let turns := snatchingTurns ⟨⟨0, 0⟩, 0⟩ .fileClosure "f"
    let w : World Unit Contention := .initial () (.fresh .empty turns)
    ((push Contention.broker .default .fileClosure ["f"]).run w).1.toOption.isNone = true := by
  decide +kernel

end Queue

end SyncCascade
