import SyncCascade.Broker.Rehearsal
import SyncCascade.Proofs.Broker.Talks
import SyncCascade.Proofs.Engine
import SyncCascade.Proofs.Store.Keys
import SyncCascade.Proofs.Store.Readiness

/-!
# Closing a file again

A job that failed is delivered again, so a file is closed until that succeeds. The closing is committed
before its sync is published, and a file that is closed already publishes nothing. So the sync is
published exactly if the closing that succeeds is the one that closed the file; if the broker refused
the sync when the file was closed, no later delivery makes up for it.
-/

namespace SyncCascade

theorem Database.hasStatus_eq {db : Database} {id : FileId} {f : File}
    (h : db.files.find? id = some f) (statuses : List FileStatus) :
    db.hasStatus statuses id = statuses.contains f.status := by
  unfold Database.hasStatus
  rw [h]

def World.isDone {β : Type} (id : FileId) (w : World Session β) : Bool :=
  w.store.committed.hasStatus [.completed] id

namespace Engine

/-- Closes the file once per delivery, at its time and under its correlation, whether that succeeds or
not. -/
def closings {σ β : Type} (E : Engine σ β) (id : FileId) (w : World σ β) :
    List (Clock × String) → List (Except Failure FileClosure) × World σ β
  | [] => ([], w)
  | (clock, correlationId) :: rest =>
    let (result, w) := (E.closeFile id correlationId).run { w with clock := clock }
    let (results, w) := closings E id w rest
    (result :: results, w)

open SyncCascade.Action SyncCascade.Session

variable {β : Type} (B : Broker β) (transaction : TransactionConfig) (queue : QueueConfig)
  {id : FileId} {owner : SyncId} {before : List Exchange} {w : World Session (Logged β)}

/-- The job that the closing of a file of the sync publishes. -/
def trigger (owner : SyncId) : JobPayload := .single .syncClosure owner.uuid.text

/-- The file belongs to the sync, and of the exchanges since `before` some or none took its trigger,
as `taken` says. -/
structure Tried (id : FileId) (owner : SyncId) (before : List Exchange) (taken : Bool)
    (w : World Session (Logged β)) : Prop where
  owned : ∃ f, w.store.committed.files.find? id = some f ∧ f.syncId = owner
  offered : Queue.Offered .syncs (trigger owner) before taken w

theorem tried_blind {taken : Bool} :
    World.Blind (Tried (β := β) id owner before taken) := fun _ _ _ h => ⟨h.owned, h.offered⟩

theorem closeFile_tried (correlationId : String) (h : Tried id owner before false w) :
    ((plainEngine B.logged transaction queue).closeFile id correlationId).Ensures w
      (fun _ w' => Tried id owner before (!w.isDone id && w'.isDone id) w')
      fun _ w' => Tried id owner before false w' := by
  obtain ⟨⟨f, hf, howner⟩, more, hheard, hnone⟩ := h
  have hstands : World.Standing (Awaits w.store.committed w.store.failingCommits) w.broker w.clock w :=
    ⟨⟨rfl, rfl⟩, rfl, rfl⟩
  have hkept : ∀ w', World.Standing (Has w.store.committed) w.broker w.clock w' →
      Tried id owner before false w' := by
    rintro w' ⟨hdb, hbroker, -⟩
    refine ⟨⟨f, hdb ▸ hf, howner⟩, more, ?_, hnone⟩
    exact (congrArg Logged.exchanges hbroker).trans hheard
  have hclosing := Database.tryCloseFile_closing w.clock.wall w.store.committed id
  generalize hout : w.store.committed.tryCloseFile w.clock.wall id = out at hclosing
  obtain ⟨closed, db'⟩ := out
  refine closeFile_rule hout (fun _ => tried_blind) (fun w' hrefused h' => ?_)
    (fun sync w' hsync h' => ?_) (fun _ w' _ h' => hkept w' h') correlationId hstands
  · cases hclosing with
    | closed => cases hrefused
    | refused =>
      have hdone : w'.isDone id = w.isDone id := by
        unfold World.isDone
        rw [show w'.store.committed = w.store.committed from h'.1]
      rw [hdone, Bool.not_and_self]
      exact hkept w' h'
  · cases hclosing with
    | refused => cases hsync
    | @closed f' hf' hcloses =>
      cases hf.symm.trans hf'
      obtain rfl : sync = owner := (Option.some.inj hsync).symm.trans howner
      have hfind : ∀ w'' : World Session (Logged β),
          w''.At (Has { w.store.committed with
            files := w.store.committed.files.modify id (Database.completeFile w.clock.wall) })
            w.clock →
          w''.store.committed.files.find? id = some (Database.completeFile w.clock.wall f) := by
        rintro w'' ⟨hdb, -⟩
        rw [show w''.store.committed = _ from hdb, Table.find?_modify, if_pos rfl, hf,
          Option.map_some]
      have hopen : w.isDone id = false := by
        unfold Database.fileCloses at hcloses
        rw [Bool.and_eq_true, beq_iff_eq] at hcloses
        unfold World.isDone
        rw [Database.hasStatus_eq hf, hcloses.1]
        rfl
      have hheard' : w'.Heard (before ++ more) :=
        (congrArg Logged.exchanges h'.2.1).trans hheard
      refine ((Queue.push_single_offered B queue .syncClosure sync.uuid.text hheard').and
        (Queue.push_at B.logged queue .syncClosure [sync.uuid.text] h'.at)).mono ?_ ?_
      · rintro _ w'' ⟨hoffered, h''⟩
        have hdone : w''.isDone id = true := by
          unfold World.isDone
          rw [Database.hasStatus_eq (hfind w'' h'')]
          rfl
        rw [hopen, hdone]
        exact ⟨⟨_, hfind w'' h'', howner⟩, hoffered.trans hnone⟩
      · rintro _ w'' ⟨hoffered, h''⟩
        exact ⟨⟨_, hfind w'' h'', howner⟩, hoffered.trans hnone⟩

theorem closings_tried {deliveries : List (Clock × String)} {failures : List Failure}
    (h : Tried id owner before false w)
    (hfail : ((plainEngine B.logged transaction queue).closings id w deliveries).1 =
      failures.map .error) :
    Tried id owner before false
      ((plainEngine B.logged transaction queue).closings id w deliveries).2 := by
  induction deliveries generalizing w failures with
  | nil => exact h
  | cons delivery rest ih =>
    obtain ⟨clock, correlationId⟩ := delivery
    have hnow : Tried id owner before false { w with clock := clock } := ⟨h.owned, h.offered⟩
    have hstep := closeFile_tried B transaction queue correlationId hnow
    unfold closings at hfail ⊢
    unfold Ensures at hstep
    dsimp only at hfail ⊢
    generalize Action.run _ { w with clock := clock } = out at hfail hstep ⊢
    obtain ⟨result, w'⟩ := out
    cases failures with
    | nil => cases hfail
    | cons e failures =>
      obtain ⟨hresult, hrest⟩ := List.cons.inj hfail
      cases hresult
      exact ih hstep hrest

/-- The file of a sync is closed until that succeeds. The broker took the trigger of the sync, in any of
the closings, exactly if the one that succeeds is the one that closed the file. -/
theorem trigger_taken_iff (id : FileId) (w : World Session (Logged β)) {f : File}
    (hf : w.store.committed.files.find? id = some f) (deliveries : List (Clock × String))
    {failures : List Failure} {w₁ : World Session (Logged β)}
    (hfail : (plainEngine B.logged transaction queue).closings id w deliveries =
      (failures.map .error, w₁))
    (clock : Clock) (correlationId : String) {r : FileClosure} {w' : World Session (Logged β)}
    (hlast : ((plainEngine B.logged transaction queue).closeFile id correlationId).run
      { w₁ with clock := clock } = (.ok r, w')) :
    ∃ heard, w'.broker.exchanges = w.broker.exchanges ++ heard ∧
      (heard.any (Exchange.takes .syncs (trigger f.syncId)) = true ↔
        w₁.isDone id = false ∧ w'.isDone id = true) := by
  have hstart : Tried id f.syncId w.broker.exchanges false w :=
    ⟨⟨f, hf, rfl⟩, [], (List.append_nil _).symm, rfl⟩
  have hfailed := closings_tried B transaction queue hstart (congrArg Prod.fst hfail)
  rw [hfail] at hfailed
  have hnow : Tried id f.syncId w.broker.exchanges false { w₁ with clock := clock } :=
    ⟨hfailed.owned, hfailed.offered⟩
  have hclosed := closeFile_tried B transaction queue correlationId hnow
  unfold Ensures at hclosed
  rw [hlast] at hclosed
  obtain ⟨heard, hheard, htaken⟩ := hclosed.offered
  refine ⟨heard, hheard, ?_⟩
  rw [htaken, Bool.and_eq_true, Bool.not_eq_true']
  rfl

namespace Ready

def sync : SyncId := ⟨⟨1⟩⟩

def file : FileId := ⟨⟨2⟩⟩

def fileRow : File := ⟨file, sync, .inProgress, some 1, ⟨0, 0⟩, none⟩

def calls : List (Timestamp × StoreCall) :=
  [.insertSync
      { id := sync
        layerId := 7
        geometryType := .point
        dumpDate := ⟨0, 0⟩
        startDate := ⟨0, 0⟩
        endDate := none
        status := .inProgress
        totalFiles := some 1
        isFull := true
        baseSyncId := none
        runNumber := 0
        metadata := none },
    .insertFile fileRow,
    .insertEntities [⟨⟨"a"⟩, file, none, .completed, .create, none⟩]].map fun c => (⟨0, 0⟩, c)

/-- Some commits fail, and the broker answers as the script says. -/
def world (failing : Nat) (adds : List (Except Failure AddOutcome)) :
    World Session (Logged BrokerRehearsal) :=
  .initial ⟨.afterCalls .empty calls, none, failing⟩ ⟨⟨adds, [], []⟩, []⟩

def engine : Engine Session (Logged BrokerRehearsal) :=
  plainEngine BrokerRehearsal.broker.logged .default .default

def delivery : Clock × String := (⟨⟨60, 0⟩, 0⟩, "file")

end Ready

open Ready in
/-- The first delivery fails because all its commits do. The second one closes the file, and the broker
takes the trigger. -/
theorem trigger_taken_after_failed_commits :
    let first := engine.closings file (world 4 []) [delivery]
    let second := (engine.closeFile file "file").run { first.2 with clock := ⟨⟨60, 0⟩, 0⟩ }
    first.1 = [.error (.retriesExceeded 3)] ∧ second.1 = .ok ⟨file, some sync⟩ ∧
      ∃ heard, second.2.broker.exchanges = (world 4 []).broker.exchanges ++ heard ∧
        heard.any (Exchange.takes .syncs (trigger sync)) = true := by
  intro first second
  have hfirst : first.1 = [.error (.retriesExceeded 3)] := by decide +kernel
  have hsecond : second.1 = .ok ⟨file, some sync⟩ := by decide +kernel
  have hfail : first = ([Failure.retriesExceeded 3].map .error, first.2) := Prod.ext hfirst rfl
  have hlast : second = (.ok ⟨file, some sync⟩, second.2) := Prod.ext hsecond rfl
  obtain ⟨heard, hheard, htaken⟩ := trigger_taken_iff BrokerRehearsal.broker .default .default file
    (world 4 []) (f := fileRow) (by decide +kernel) [delivery] hfail ⟨⟨60, 0⟩, 0⟩ "file" hlast
  exact ⟨hfirst, hsecond, heard, hheard, htaken.2 ⟨by decide +kernel, by decide +kernel⟩⟩

open Ready in
/-- The broker refuses the trigger when the file is closed. The second delivery succeeds without
offering it again, so it is lost. -/
theorem refused_trigger_is_lost :
    let w := world 0 [.error (.queue "refused")]
    let closings := engine.closings file w [delivery, delivery]
    closings.1 = [.error (.queue "refused"), .ok ⟨file, none⟩] ∧
      w.isDone file = false ∧ closings.2.isDone file = true ∧
      closings.2.broker.exchanges.any (Exchange.takes .syncs (trigger sync)) = false := by
  decide +kernel

end Engine

end SyncCascade
