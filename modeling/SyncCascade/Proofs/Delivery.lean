import SyncCascade.Proofs.Broker.Pending
import SyncCascade.Proofs.Cascade.Step
import SyncCascade.Proofs.Store.Disturbed
import SyncCascade.Proofs.Store.Keys
import SyncCascade.Proofs.Store.Undated

/-!
# Delivering a job again

A job is delivered again when its handler failed, and it may be when its handler succeeded. The members
of a job are closed one after another, each in a transaction of its own, so a delivery that fails leaves
some of them closed. Those are settled: the next delivery passes over them, wherever the last one
stopped, and what it ends with is what one delivery would have come to, but for the dates.
-/

namespace SyncCascade

def JobPayload.Readable (p : JobPayload) : Prop :=
  ∀ s ∈ p.memberIds, (Uuid.parse? s).isSome = true

theorem Engine.parseMembers_of_readable {α : Type} [Identifier α] {ids : List String}
    (h : ∀ s ∈ ids, (Uuid.parse? s).isSome = true) :
    ∃ as : List α, Engine.parseMembers ids = .ok as := by
  induction ids with
  | nil => exact ⟨[], rfl⟩
  | cons s rest ih =>
    obtain ⟨as, has⟩ := ih fun s' hs' => h s' (List.mem_cons_of_mem _ hs')
    obtain ⟨u, hu⟩ := Option.isSome_iff_exists.1 (h s List.mem_cons_self)
    refine ⟨Identifier.ofUuid u :: as, ?_⟩
    have hs : (Identifier.parse s : Except Failure α) = .ok (Identifier.ofUuid u) := by
      unfold Identifier.parse Identifier.parse?
      rw [hu]
      rfl
    unfold Engine.parseMembers
    rw [hs, has]
    rfl

namespace Delivery

open SyncCascade.Action

/-- What a delivery works on: the committed database and the lanes. -/
structure State where
  db : Database
  lanes : Lanes

/-- The rows are the same, end dates aside, and the same jobs are pending. -/
structure State.Alike (s s' : State) : Prop where
  rows : s.db.undated = s'.db.undated
  pending : ∀ lane id, s.lanes.Pends lane id ↔ s'.lanes.Pends lane id

theorem State.Alike.refl (s : State) : s.Alike s := ⟨rfl, fun _ _ => Iff.rfl⟩

section Passes

variable {α ρ : Type}

def pass (next : State → α → ρ × State) (s : State) : List α → List ρ × State
  | [] => ([], s)
  | a :: rest =>
    let (r, s') := next s a
    let (rs, s'') := pass next s' rest
    (r :: rs, s'')

theorem pass_append (next : State → α → ρ × State) (s : State) (as bs : List α) :
    (pass next s (as ++ bs)).2 = (pass next (pass next s as).2 bs).2 := by
  induction as generalizing s with
  | nil => rfl
  | cons a rest ih => exact ih (next s a).2

/-- A member that was tried once is settled. It stays so whatever is tried later, and trying it again
changes nothing. What is tried at another time, on what is alike, ends in what is alike. -/
structure Settling (next : Clock → State → α → ρ × State) (settled : State → α → Prop)
    (idle : α → ρ) : Prop where
  settles : ∀ clock s a, settled (next clock s a).2 a
  keeps : ∀ clock s a b, settled s a → settled (next clock s b).2 a
  idles : ∀ clock s a, settled s a → next clock s a = (idle a, s)
  alike : ∀ clock clock' s s' a, s.Alike s' → (next clock s a).2.Alike (next clock' s' a).2

variable {next : Clock → State → α → ρ × State} {settled : State → α → Prop} {idle : α → ρ}
  {s s' s₁ : State} {as done rest : List α} {clock clock' : Clock}

namespace Settling

variable (h : Settling next settled idle)

include h

theorem pass_keeps {a : α} (ha : settled s a) : settled (pass (next clock) s as).2 a := by
  induction as generalizing s with
  | nil => exact ha
  | cons b rest ih => exact ih (h.keeps clock s a b ha)

theorem pass_settles : ∀ a ∈ as, settled (pass (next clock) s as).2 a := by
  induction as generalizing s with
  | nil => exact fun _ ha => nomatch ha
  | cons b rest ih =>
    intro a ha
    rcases List.mem_cons.1 ha with rfl | ha
    · change settled (pass (next clock) (next clock s a).2 rest).2 a
      exact h.pass_keeps (h.settles clock s a)
    · exact ih a ha

theorem pass_idles (hs : ∀ a ∈ as, settled s a) : pass (next clock) s as = (as.map idle, s) := by
  induction as with
  | nil => rfl
  | cons a rest ih =>
    have hrest := ih fun b hb => hs b (List.mem_cons_of_mem _ hb)
    unfold pass
    rw [h.idles clock s a (hs a List.mem_cons_self)]
    dsimp only
    rw [hrest]
    rfl

theorem pass_alike (hs : s.Alike s') : (pass (next clock) s as).2.Alike (pass (next clock') s' as).2 := by
  induction as generalizing s s' with
  | nil => exact hs
  | cons a rest ih => exact ih (h.alike clock clock' s s' a hs)

end Settling

/-- Passes that began in `s` stopped in `s₁`: the members up to some one are settled, and the state is
like the one after a pass over those. -/
def Stopped (next : Clock → State → α → ρ × State) (settled : State → α → Prop) (as : List α)
    (s s₁ : State) : Prop :=
  ∃ done rest, as = done ++ rest ∧ (∀ a ∈ done, settled s₁ a) ∧
    ∀ clock, s₁.Alike (pass (next clock) s done).2

theorem Stopped.start : Stopped next settled as s s := by
  refine ⟨[], as, rfl, fun a ha => ?_, fun clock => .refl s⟩
  cases ha

theorem Settling.resume (h : Settling next settled idle) (hsettled : ∀ a ∈ done, settled s₁ a)
    (halike : s₁.Alike (pass (next clock') s done).2) (more : List α) :
    (pass (next clock) s₁ (done ++ more)).2.Alike (pass (next clock') s (done ++ more)).2 := by
  rw [pass_append, pass_append, h.pass_idles hsettled]
  exact h.pass_alike halike

theorem Stopped.again (h : Settling next settled idle) (hstopped : Stopped next settled as s s₁)
    {done' rest' : List α} (hdone' : as = done' ++ rest') :
    Stopped next settled as s (pass (next clock) s₁ done').2 := by
  obtain ⟨done, rest, rfl, hsettled, halike⟩ := hstopped
  -- The pass stops behind the place where the last ones stopped, or it does not get beyond it.
  rcases List.append_eq_append_iff.1 hdone' with ⟨more, rfl, rfl⟩ | ⟨more, rfl, -⟩
  · refine ⟨done ++ more, rest', (List.append_assoc ..).symm, h.pass_settles, fun clock' => ?_⟩
    exact h.resume hsettled (halike clock') more
  · rw [h.pass_idles fun a ha => hsettled a (List.mem_append_left _ ha)]
    exact ⟨_, rest, rfl, hsettled, halike⟩

theorem Stopped.finish (h : Settling next settled idle) (hstopped : Stopped next settled as s s₁) :
    (pass (next clock) s₁ as).2.Alike (pass (next clock') s as).2 := by
  obtain ⟨done, rest, rfl, hsettled, halike⟩ := hstopped
  exact h.resume hsettled (halike clock') rest

end Passes

def fileStep (queue : QueueConfig) (clock : Clock) (s : State) (id : FileId) : FileClosure × State :=
  (⟨id, (s.db.tryCloseFile clock.wall id).1⟩,
    ⟨(s.db.tryCloseFile clock.wall id).2,
      Cascade.notified clock queue s.lanes (s.db.tryCloseFile clock.wall id).1⟩)

def syncStep (clock : Clock) (s : State) (id : SyncId) : SyncClosure × State :=
  (⟨id, (s.db.tryCloseSync clock.wall id).1⟩, ⟨(s.db.tryCloseSync clock.wall id).2, s.lanes⟩)

theorem pends_pushed_congr (queue : QueueConfig) {clock clock' : Clock} {kind : JobKind} {l l' : Lanes}
    (h : ∀ lane id, l.Pends lane id ↔ l'.Pends lane id) (ids : List String) (lane : Lane)
    (id : String) :
    (l.pushed clock queue kind ids).Pends lane id ↔
      (l'.pushed clock' queue kind ids).Pends lane id := by
  rw [Lanes.pends_pushed, Lanes.pends_pushed, h]

theorem fileStep_settling (queue : QueueConfig) :
    Settling (fileStep queue) (fun s id => s.db.FileSettled id) fun id => ⟨id, none⟩ where
  settles clock s id := Database.tryCloseFile_settled clock.wall s.db id
  keeps clock _ _ id h := h.tryCloseFile clock.wall id
  idles clock s id h := by
    unfold fileStep
    rw [Database.tryCloseFile_of_settled h]
    rfl
  alike clock clock' s s' id h := by
    obtain ⟨howner, hrows⟩ :=
      Database.tryCloseFile_undated clock.wall clock'.wall h.rows id
    refine ⟨hrows, ?_⟩
    unfold fileStep
    rw [howner]
    cases (s'.db.tryCloseFile clock'.wall id).1 with
    | none => exact h.pending
    | some sync => exact pends_pushed_congr queue h.pending _

theorem syncStep_settling :
    Settling syncStep (fun s id => s.db.SyncSettled id) fun id => ⟨id, []⟩ where
  settles clock s id := Database.tryCloseSync_settled clock.wall s.db id
  keeps clock _ _ id h := h.tryCloseSync clock.wall id
  idles clock s id h := by
    unfold syncStep
    rw [Database.tryCloseSync_of_settled h]
  alike clock clock' _ _ id h :=
    ⟨(Database.tryCloseSync_undated clock.wall clock'.wall h.rows id).2, h.pending⟩

/-- The closure engine over the lanes in memory and a database whose commits can be made to fail at any
time. -/
def engine (transaction : TransactionConfig) (queue : QueueConfig) : Engine Disturbed Lanes :=
  ⟨Disturbed.storage, Lanes.broker, transaction, queue⟩

/-- Where nothing is set for the commits, it handles jobs as the cascade does. -/
theorem handle_undisturbed (transaction : TransactionConfig) (queue : QueueConfig) (p : JobPayload)
    (w : World Session Lanes) :
    ((engine transaction queue).handle p).run (w.withStore ⟨w.store, []⟩) =
      ((((cascade transaction queue).handle p).run w).1,
        (((cascade transaction queue).handle p).run w).2.withStore
          ⟨(((cascade transaction queue).handle p).run w).2.store, []⟩) := by
  obtain ⟨_, hrun, rfl⟩ := (cascade transaction queue).handle_mirrors Disturbed.storage_mirrors p w
    ⟨w.store, []⟩ rfl
  exact hrun

def state (w : World Disturbed Lanes) : State := ⟨w.store.session.committed, w.broker⟩

/-- The world is in this state, and no commit fails if that is `quiet`. -/
abbrev Has (quiet : Prop) (s : State) (clock : Clock) (w : World Disturbed Lanes) : Prop :=
  World.Standing (Disturbed.Has s.db quiet) s.lanes clock w

variable {transaction : TransactionConfig} {queue : QueueConfig} {quiet : Prop} {s : State}
  {clock : Clock} {w : World Disturbed Lanes}

theorem state_of_has (h : Has quiet s clock w) : state w = s := by
  obtain ⟨⟨hdb, -⟩, hlanes, -⟩ := h
  unfold state
  rw [hdb, hlanes]

theorem has_state (hquiet : quiet → w.store.Quiet) : Has quiet (state w) w.clock w :=
  ⟨⟨rfl, hquiet⟩, rfl, rfl⟩

theorem transact_query {c : StoreCall} {reply : c.Reply} {db' : Database}
    (happly : s.db.apply clock.wall c = .ok (reply, db')) (operation correlationId : String)
    (h : Has quiet s clock w) :
    ((engine transaction queue).transact operation correlationId
        ((engine transaction queue).query c)).Ensures w
      (fun r w' => r = reply ∧ Has quiet ⟨db', s.lanes⟩ clock w')
      fun _ w' => Disturbed.Hindered quiet transaction.retry ∧ Has quiet s clock w' := by
  refine (Disturbed.run_ensures (Q := fun r view => r = reply ∧ view = db') (fun w hw => ?_) _ _
    h).mono ?_ fun _ _ h => h
  · refine (Disturbed.query_ensures hw happly).mono ?_ fun _ _ h => h
    rintro _ w' ⟨rfl, h'⟩
    exact ⟨db', ⟨rfl, rfl⟩, h'⟩
  · rintro _ w' ⟨_, ⟨rfl, rfl⟩, h'⟩
    exact ⟨rfl, h'⟩

theorem closeFile_ensures (correlationId : String) (id : FileId) (h : Has quiet s clock w) :
    ((engine transaction queue).closeFile id correlationId).Ensures w
      (fun r w' => r = (fileStep queue clock s id).1 ∧ Has quiet (fileStep queue clock s id).2 clock w')
      fun _ w' => Disturbed.Hindered quiet transaction.retry ∧ Has quiet s clock w' := by
  unfold fileStep
  generalize hclose : s.db.tryCloseFile clock.wall id = out
  obtain ⟨reply, db'⟩ := out
  have happly : s.db.apply clock.wall (.tryCloseFile id) = .ok (reply, db') :=
    congrArg Except.ok hclose
  refine Engine.closeFile_of_transact (transact_query happly _ _ h) (fun _ _ _ _ h => h)
    (fun _ _ _ _ h => h) ?_ ?_
  · rintro w' ⟨rfl, h'⟩
    exact ⟨rfl, h'⟩
  · rintro sync w' ⟨rfl, h'⟩
    exact (Queue.push_ensures queue .syncClosure _ h').mono (fun _ _ h => ⟨rfl, h⟩)
      fun _ _ h => h.elim

theorem closeSync_ensures (correlationId : String) (id : SyncId) (h : Has quiet s clock w) :
    ((engine transaction queue).closeSync id correlationId).Ensures w
      (fun r w' => r = (syncStep clock s id).1 ∧ Has quiet (syncStep clock s id).2 clock w')
      fun _ w' => Disturbed.Hindered quiet transaction.retry ∧ Has quiet s clock w' := by
  unfold syncStep
  generalize hclose : s.db.tryCloseSync clock.wall id = out
  obtain ⟨reply, db'⟩ := out
  have happly : s.db.apply clock.wall (.tryCloseSync id) = .ok (reply, db') :=
    congrArg Except.ok hclose
  refine Engine.closeSync_of_transact (transact_query happly _ _ h) (fun _ _ _ _ h => h)
    (fun _ _ _ _ h => h) ?_
  rintro closed w' ⟨rfl, h'⟩
  exact ⟨rfl, h'⟩

/-- One step for each member makes a pass, up to the member at which a transaction fails for good. -/
theorem each_ensures {α ρ : Type} {next : Clock → State → α → ρ × State}
    {step : α → Action Disturbed Lanes ρ}
    (hstep : ∀ {s w} a, Has quiet s clock w → (step a).Ensures w
      (fun r w' => r = (next clock s a).1 ∧ Has quiet (next clock s a).2 clock w')
      fun _ w' => Disturbed.Hindered quiet transaction.retry ∧ Has quiet s clock w')
    (as : List α) (h : Has quiet s clock w) :
    (Engine.each step as).Ensures w
      (fun rs w' => rs = (pass (next clock) s as).1 ∧ Has quiet (pass (next clock) s as).2 clock w')
      fun _ w' => Disturbed.Hindered quiet transaction.retry ∧
        ∃ done rest, as = done ++ rest ∧ Has quiet (pass (next clock) s done).2 clock w' := by
  -- Each step starts where the last one left the database and the lanes.
  induction as generalizing s w with
  | nil => exact ⟨rfl, h⟩
  | cons a rest ih =>
    unfold Engine.each
    rw [ensures_bind]
    refine (hstep a h).mono ?_ fun _ _ h => ⟨h.1, [], a :: rest, rfl, h.2⟩
    rintro _ w' ⟨rfl, h'⟩
    rw [ensures_bind]
    refine (ih h').mono ?_ ?_
    · rintro _ w'' ⟨rfl, h''⟩
      exact ⟨rfl, h''⟩
    · rintro e w'' ⟨hquiet, done, rest', rfl, h''⟩
      exact ⟨hquiet, a :: done, rest', rfl, h''⟩

def changesetStep (queue : QueueConfig) (clock : Clock) (s : State) (ids : List ChangesetId) :
    ChangesetClosure × State :=
  (⟨(s.db.markCompleted ids).2.findFiles ids [.inProgress]⟩,
    ⟨(s.db.markCompleted ids).2, s.lanes.pushed clock queue .fileClosure
      (((s.db.markCompleted ids).2.findFiles ids [.inProgress]).map Identifier.text)⟩)

theorem closeChangesets_ensures (correlationId : String) (ids : List ChangesetId)
    (h : Has quiet s clock w) :
    ((engine transaction queue).closeChangesets ids correlationId).Ensures w
      (fun r w' => r = (changesetStep queue clock s ids).1 ∧
        Has quiet (changesetStep queue clock s ids).2 clock w')
      fun _ w' => Disturbed.Hindered quiet transaction.retry ∧ Has quiet s clock w' := by
  refine Engine.closeChangesets_of_transact (P := fun files w' =>
    files = (s.db.markCompleted ids).2.findFiles ids [.inProgress] ∧
      Has quiet ⟨(s.db.markCompleted ids).2, s.lanes⟩ clock w') ?_ (fun _ _ _ _ h => h) ?_ ?_
  · refine (Disturbed.run_ensures (Q := fun files view => view = (s.db.markCompleted ids).2 ∧
      files = (s.db.markCompleted ids).2.findFiles ids [.inProgress]) (fun w hw => ?_) _ _ h).mono
      ?_ fun _ _ h => h
    · rw [ensures_bind]
      refine (Disturbed.query_ensures hw rfl).mono ?_ fun _ _ h => h
      rintro updated w₁ ⟨-, h₁⟩
      refine ensures_note_bind World.standing_blind h₁ fun w₂ h₂ => ?_
      refine (Disturbed.query_ensures h₂ rfl).mono ?_ fun _ _ h => h
      rintro files w₃ ⟨rfl, h₃⟩
      exact ⟨_, ⟨rfl, rfl⟩, h₃⟩
    · rintro files w' ⟨_, ⟨rfl, rfl⟩, h'⟩
      exact ⟨rfl, h'⟩
  · rintro w' ⟨hfiles, h'⟩
    unfold changesetStep
    rw [← hfiles, List.map_nil, Cascade.pushed_nil]
    exact ⟨rfl, h'⟩
  · rintro files w' ⟨rfl, h'⟩
    exact (Queue.push_ensures queue .fileClosure _ h').mono (fun _ _ h => ⟨rfl, h⟩)
      fun _ _ h => h.elim

theorem changesetStep_alike {clock clock' : Clock} {s : State} (ids : List ChangesetId) :
    (changesetStep queue clock s ids).2.Alike (changesetStep queue clock' s ids).2 :=
  ⟨rfl, pends_pushed_congr queue (fun _ _ => Iff.rfl) _⟩

/-- Deliveries that began in `w` failed, each one where the last one stopped, and the next one begins in
`w'`. Between two of them time may pass and other commits be made to fail. -/
inductive Interrupted (handle : Action Disturbed Lanes Json) (w : World Disturbed Lanes) :
    World Disturbed Lanes → Prop
  | start {w' : World Disturbed Lanes} (h : state w' = state w) : Interrupted handle w w'
  | again {w₁ w' : World Disturbed Lanes} {e : Failure} (h : Interrupted handle w w₁)
      (hfail : (handle.run w₁).1 = .error e) (hresume : state w' = state (handle.run w₁).2) :
      Interrupted handle w w'

/-- What a delivery reports after one that succeeded and reported `r`: the same files, or no closure. -/
inductive ReportsAgain (p : JobPayload) (r : Json) : Json → Prop
  | changesets (hkind : p.kind = .changesetClosure) : ReportsAgain p r r
  | files {ids : List FileId} (hkind : p.kind = .fileClosure)
      (hids : Engine.parseMembers p.memberIds = .ok ids) :
      ReportsAgain p r (Json.singleOrAll (ids.map fun id => (FileClosure.mk id none).toJson))
  | syncs {ids : List SyncId} (hkind : p.kind = .syncClosure)
      (hids : Engine.parseMembers p.memberIds = .ok ids) :
      ReportsAgain p r (Json.singleOrAll (ids.map fun id => (SyncClosure.mk id []).toJson))

/-- A delivery of a job of this kind that repeats one leaves no other state than it finds. -/
structure State.Kept (kind : JobKind) (s s' : State) : Prop where
  rows : s'.db = s.db
  pending : ∀ lane id, s'.lanes.Pends lane id ↔ s.lanes.Pends lane id
  /-- The closure of changesets is the one that publishes again. -/
  lanes : kind ≠ .changesetClosure → s'.lanes = s.lanes

theorem State.Kept.refl (kind : JobKind) (s : State) : s.Kept kind s :=
  ⟨rfl, fun _ _ => Iff.rfl, fun _ => rfl⟩

/-- Delivering the job again is safe. -/
structure Redeliverable (policy : RetryPolicy) (p : JobPayload)
    (handle : Action Disturbed Lanes Json) : Prop where
  /-- Only a commit that fails stops a delivery, if any attempt is allowed. -/
  succeeds : 0 < policy.attempts → ∀ {w : World Disturbed Lanes}, w.store.Quiet →
    ∃ r, (handle.run w).1 = .ok r
  /-- A delivery that succeeds after others failed ends like one that succeeds at once. -/
  resumed : ∀ {w w₁ w' : World Disturbed Lanes} {r r' : Json}, Interrupted handle w w₁ →
    (handle.run w₁).1 = .ok r → state w' = state w → (handle.run w').1 = .ok r' →
    (state (handle.run w₁).2).Alike (state (handle.run w').2)
  /-- A delivery after one that succeeded changes nothing, whether it succeeds or not. -/
  repeated : ∀ {w w' : World Disturbed Lanes} {r : Json}, (handle.run w).1 = .ok r →
    state w' = state (handle.run w).2 → (state w').Kept p.kind (state (handle.run w').2) ∧
      ∀ r', (handle.run w').1 = .ok r' → ReportsAgain p r r'

section Redelivery

variable {handle : Action Disturbed Lanes Json} {w' : World Disturbed Lanes} {p : JobPayload}
  {report : Clock → State → Json} {after : Clock → State → State}
  {Stops : Clock → State → State → Prop} {e : Failure} {r : Json}

/-- The action takes a state to `after` and reports `report`. If its transactions are hindered, it stops
instead, in a state as `Stops` says. -/
def Handles (policy : RetryPolicy) (handle : Action Disturbed Lanes Json) (report : Clock → State → Json)
    (after : Clock → State → State) (Stops : Clock → State → State → Prop) : Prop :=
  ∀ (quiet : Prop) (s : State) (clock : Clock) (w : World Disturbed Lanes), Has quiet s clock w →
    handle.Ensures w (fun r w' => r = report clock s ∧ Has quiet (after clock s) clock w')
      fun _ w' => Disturbed.Hindered quiet policy ∧ ∃ s', Stops clock s s' ∧ Has quiet s' clock w'

namespace Handles

variable {policy : RetryPolicy} (h : Handles policy handle report after Stops)

include h

theorem of_run_ok (hrun : (handle.run w).1 = .ok r) :
    r = report w.clock (state w) ∧ state (handle.run w).2 = after w.clock (state w) := by
  have hens := (h False (state w) w.clock w (has_state False.elim)).of_ok hrun
  exact ⟨hens.1, state_of_has hens.2⟩

theorem of_run_error (hrun : (handle.run w).1 = .error e) :
    Disturbed.Hindered w.store.Quiet policy ∧
      Stops w.clock (state w) (state (handle.run w).2) := by
  obtain ⟨hquiet, s', hstops, hs'⟩ :=
    (h w.store.Quiet (state w) w.clock w (has_state id)).of_error hrun
  exact ⟨hquiet, state_of_has hs' ▸ hstops⟩

theorem interrupted_keeps {I : State → Prop} (hstart : I (state w))
    (hstops : ∀ {clock s s'}, I s → Stops clock s s' → I s') (hw' : Interrupted handle w w') :
    I (state w') := by
  induction hw' with
  | start hsame => exact hsame ▸ hstart
  | again _ hfail hresume ih =>
    rw [hresume]
    exact hstops ih (h.of_run_error hfail).2

/-- It is safe to deliver again what stops in a state `I` from which it ends alike, and what has
nothing left to do after it. -/
theorem redeliverable {I : State → State → Prop} (hstart : ∀ s, I s s)
    (hstops : ∀ {clock s s₁ s₂}, I s s₁ → Stops clock s₁ s₂ → I s s₂)
    (hfinish : ∀ {clock clock' s s₁}, I s s₁ → (after clock s₁).Alike (after clock' s))
    (hagain : ∀ {clock clock' s}, (after clock s).Kept p.kind (after clock' (after clock s)) ∧
      ReportsAgain p (report clock s) (report clock' (after clock s)))
    (hkept : ∀ {clock clock' s s'}, Stops clock' (after clock s) s' → (after clock s).Kept p.kind s') :
    Redeliverable policy p handle where
  succeeds := by
    intro hallowed w hquiet
    cases hrun : (handle.run w).1 with
    | ok r => exact ⟨r, rfl⟩
    | error e => exact absurd ((h.of_run_error hrun).1 hquiet) (Nat.ne_of_gt hallowed)
  resumed := by
    intro w w₁ w' r r' hinterrupted hrun hsame hrun'
    rw [(h.of_run_ok hrun).2, (h.of_run_ok hrun').2, hsame]
    exact hfinish (h.interrupted_keeps (hstart (state w)) hstops hinterrupted)
  repeated := by
    intro w w' r hrun hsame
    obtain ⟨rfl, hafter⟩ := h.of_run_ok hrun
    rw [hafter] at hsame
    cases hrun' : (handle.run w').1 with
    | ok r' =>
      obtain ⟨rfl, hafter'⟩ := h.of_run_ok hrun'
      rw [hafter', hsame]
      refine ⟨hagain.1, ?_⟩
      rintro _ ⟨⟩
      exact hagain.2
    | error e =>
      have hstopped := (h.of_run_error hrun').2
      rw [hsame] at hstopped ⊢
      exact ⟨hkept hstopped, nofun⟩

end Handles

theorem handles_changesets (correlationId : String) (ids : List ChangesetId) :
    Handles transaction.retry (do
        let r ← (engine transaction queue).closeChangesets ids correlationId
        pure r.toJson)
      (fun clock s => (changesetStep queue clock s ids).1.toJson)
      (fun clock s => (changesetStep queue clock s ids).2) fun _ s s' => s' = s := by
  intro quiet s clock w hw
  rw [ensures_bind]
  refine (closeChangesets_ensures correlationId ids hw).mono ?_ fun _ _ h => ⟨h.1, s, rfl, h.2⟩
  rintro _ w' ⟨rfl, h'⟩
  exact ⟨rfl, h'⟩

/-- The states in which a pass can stop. -/
def StopsWithin {α ρ : Type} (next : Clock → State → α → ρ × State) (as : List α) (clock : Clock)
    (s s' : State) : Prop :=
  ∃ done rest, as = done ++ rest ∧ s' = (pass (next clock) s done).2

theorem handles_each {α ρ : Type} {next : Clock → State → α → ρ × State}
    {step : α → Action Disturbed Lanes ρ}
    (hstep : ∀ {quiet s clock w} a, Has quiet s clock w → (step a).Ensures w
      (fun r w' => r = (next clock s a).1 ∧ Has quiet (next clock s a).2 clock w')
      fun _ w' => Disturbed.Hindered quiet transaction.retry ∧ Has quiet s clock w')
    (as : List α) (render : List ρ → Json) :
    Handles transaction.retry (do
        let rs ← Engine.each step as
        pure (render rs))
      (fun clock s => render (pass (next clock) s as).1)
      (fun clock s => (pass (next clock) s as).2) (StopsWithin next as) := by
  intro quiet s clock w hw
  rw [ensures_bind]
  refine (each_ensures hstep as hw).mono ?_ ?_
  · rintro _ w' ⟨rfl, h'⟩
    exact ⟨rfl, h'⟩
  · rintro e w' ⟨hquiet, done, rest, hdone, h'⟩
    exact ⟨hquiet, _, ⟨done, rest, hdone, rfl⟩, h'⟩

theorem Settling.redeliverable {α ρ : Type} {next : Clock → State → α → ρ × State}
    {settled : State → α → Prop} {idle : α → ρ} (hsettling : Settling next settled idle)
    {step : α → Action Disturbed Lanes ρ}
    (hstep : ∀ {quiet s clock w} a, Has quiet s clock w → (step a).Ensures w
      (fun r w' => r = (next clock s a).1 ∧ Has quiet (next clock s a).2 clock w')
      fun _ w' => Disturbed.Hindered quiet transaction.retry ∧ Has quiet s clock w')
    (as : List α) (render : List ρ → Json)
    (hreports : ∀ r, ReportsAgain p r (render (as.map idle))) :
    Redeliverable transaction.retry p (do
      let rs ← Engine.each step as
      pure (render rs)) := by
  have hsettled : ∀ {clock clock' s} {done : List α}, (∀ a ∈ done, a ∈ as) →
      pass (next clock') (pass (next clock) s as).2 done =
        (done.map idle, (pass (next clock) s as).2) :=
    fun hdone => hsettling.pass_idles fun a ha => hsettling.pass_settles a (hdone a ha)
  refine (handles_each hstep as render).redeliverable (I := Stopped next settled as)
    (fun _ => .start) ?_
    (fun hstopped => hstopped.finish hsettling) ?_ ?_
  · rintro clock s s₁ _ hstopped ⟨done, rest, hdone, rfl⟩
    exact hstopped.again hsettling hdone
  · intro clock clock' s
    rw [hsettled fun _ ha => ha]
    exact ⟨.refl .., hreports _⟩
  · rintro clock clock' s _ ⟨done, rest, hdone, rfl⟩
    rw [hsettled fun a ha => hdone ▸ List.mem_append_left rest ha]
    exact .refl ..

theorem changesets_redeliverable (hkind : p.kind = .changesetClosure) (correlationId : String)
    (ids : List ChangesetId) :
    Redeliverable transaction.retry p (do
      let r ← (engine transaction queue).closeChangesets ids correlationId
      pure r.toJson) := by
  refine (handles_changesets correlationId ids).redeliverable (I := fun s s₁ => s₁ = s)
    (fun _ => rfl) ?_ ?_ ?_ ?_
  · rintro clock s _ _ rfl rfl
    rfl
  · rintro clock clock' s _ rfl
    exact changesetStep_alike ids
  · intro clock clock' s
    unfold changesetStep
    dsimp only
    rw [Database.markCompleted_again]
    refine ⟨⟨rfl, fun lane id => ?_, fun hne => absurd hkind hne⟩, .changesets hkind⟩
    dsimp only
    rw [Lanes.pends_pushed, Lanes.pends_pushed, or_assoc, or_self]
  · rintro clock clock' s _ rfl
    exact .refl ..

end Redelivery

/-- A job can be delivered again, as often as deliveries fail and once more after one succeeded: the
members that are settled are passed over. -/
theorem handle_redeliverable (transaction : TransactionConfig) (queue : QueueConfig) {p : JobPayload}
    (hp : p.Readable) : Redeliverable transaction.retry p ((engine transaction queue).handle p) := by
  cases hkind : p.kind with
  | changesetClosure =>
    obtain ⟨ids, hids⟩ : ∃ ids : List ChangesetId, Engine.parseMembers p.memberIds = .ok ids :=
      Engine.parseMembers_of_readable hp
    have hhandle : (engine transaction queue).handle p = (do
        let r ← (engine transaction queue).closeChangesets ids p.id
        pure r.toJson) := by
      simp only [Engine.handle, hkind, hids]
      rfl
    rw [hhandle]
    exact changesets_redeliverable hkind p.id ids
  | fileClosure =>
    obtain ⟨ids, hids⟩ : ∃ ids : List FileId, Engine.parseMembers p.memberIds = .ok ids :=
      Engine.parseMembers_of_readable hp
    have hhandle : (engine transaction queue).handle p = (do
        let rs ← Engine.each (fun id => (engine transaction queue).closeFile id p.id) ids
        pure (Json.singleOrAll (rs.map FileClosure.toJson))) := by
      simp only [Engine.handle, hkind, hids]
      rfl
    rw [hhandle]
    refine (fileStep_settling queue).redeliverable (closeFile_ensures p.id) ids
      (fun rs => Json.singleOrAll (rs.map FileClosure.toJson)) fun r => ?_
    rw [List.map_map]
    exact .files hkind hids
  | syncClosure =>
    obtain ⟨ids, hids⟩ : ∃ ids : List SyncId, Engine.parseMembers p.memberIds = .ok ids :=
      Engine.parseMembers_of_readable hp
    have hhandle : (engine transaction queue).handle p = (do
        let rs ← Engine.each (fun id => (engine transaction queue).closeSync id p.id) ids
        pure (Json.singleOrAll (rs.map SyncClosure.toJson))) := by
      simp only [Engine.handle, hkind, hids]
      rfl
    rw [hhandle]
    refine syncStep_settling.redeliverable (closeSync_ensures p.id) ids
      (fun rs => Json.singleOrAll (rs.map SyncClosure.toJson)) fun r => ?_
    rw [List.map_map]
    exact .syncs hkind hids

namespace Pair

def sync : SyncId := ⟨⟨1⟩⟩

def calls : List (Timestamp × StoreCall) :=
  [.insertSync
      { id := sync
        layerId := 7
        geometryType := .point
        dumpDate := ⟨0, 0⟩
        startDate := ⟨0, 0⟩
        endDate := none
        status := .inProgress
        totalFiles := some 2
        isFull := true
        baseSyncId := none
        runNumber := 0
        metadata := none },
    .insertFile ⟨⟨⟨2⟩⟩, sync, .inProgress, some 0, ⟨0, 0⟩, none⟩,
    .insertFile ⟨⟨⟨3⟩⟩, sync, .inProgress, some 0, ⟨0, 0⟩, none⟩].map fun c => (⟨0, 0⟩, c)

def job : JobPayload :=
  { JobPayload.single .fileClosure "both" with
    batchIds := some
      ["00000000-0000-0000-0000-000000000002", "00000000-0000-0000-0000-000000000003"] }

def world (faults : List Nat) : World Disturbed Lanes :=
  .initial ⟨⟨.afterCalls .empty calls, none, 0⟩, faults⟩ .empty

/-- The report of the job, with the owners of the files that it closed. -/
def report (first second : Option SyncId) : Json :=
  .array [(FileClosure.mk ⟨⟨2⟩⟩ first).toJson, (FileClosure.mk ⟨⟨3⟩⟩ second).toJson]

end Pair

open Pair in
/-- The first file is closed, and no attempt to close the second one can be committed. The next delivery
closes it, and the one after that finds both closed. -/
theorem redelivered_at_second_file :
    let deliver := ((engine .default .default).handle job).run
    let first := deliver (world [0, 4])
    let second := deliver first.2
    let third := deliver second.2
    let direct := deliver (world [])
    first.1 = .error (.retriesExceeded 3) ∧
      second.1 = .ok (report none (some sync)) ∧ direct.1 = .ok (report (some sync) (some sync)) ∧
      (state second.2).Alike (state direct.2) ∧
      third.1 = .ok (report none none) ∧ (state second.2).Kept .fileClosure (state third.2) := by
  intro deliver first second third direct
  have hreadable : job.Readable := by
    unfold JobPayload.Readable
    decide +kernel
  have hsafe := handle_redeliverable .default .default hreadable
  have hfirst : first.1 = .error (.retriesExceeded 3) := by decide +kernel
  have hsecond : second.1 = .ok (report none (some sync)) := by decide +kernel
  have hthird : third.1 = .ok (report none none) := by decide +kernel
  have hdirect : direct.1 = .ok (report (some sync) (some sync)) := by decide +kernel
  have hinterrupted : Interrupted ((engine .default .default).handle job) (world [0, 4]) first.2 :=
    .again (.start rfl) hfirst rfl
  have hstart : state (world []) = state (world [0, 4]) := rfl
  exact ⟨hfirst, hsecond, hdirect, hsafe.resumed hinterrupted hsecond hstart hdirect, hthird,
    (hsafe.repeated hsecond rfl).1⟩

end Delivery

end SyncCascade
