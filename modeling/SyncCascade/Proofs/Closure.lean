import SyncCascade.Closure
import SyncCascade.Proofs.Action

/-!
# What the operations of the engine ensure

Each operation of the engine is one transaction and then perhaps a push, over every storage and every
broker. So to show what it ensures, it is enough to know what the transaction ensures, and what the push
does where the transaction gives something to be pushed.
-/

namespace SyncCascade.Engine

open SyncCascade.Action

variable {σ β : Type} {E : Engine σ β} {w : World σ β} {F : Failure → World σ β → Prop}

theorem closeChangesets_of_transact {ids : List ChangesetId} {correlationId : String}
    {P : List FileId → World σ β → Prop} {R : ChangesetClosure → World σ β → Prop}
    (htransact : (E.transact "close_changesets" correlationId do
      let updated ← E.query (.markCompleted ids)
      .note (.entitiesCompleted updated)
      E.query (.findFiles ids [.inProgress])).Ensures w P F)
    (hF : ∀ e, World.Blind (F e)) (hnone : ∀ w', P [] w' → R ⟨[]⟩ w')
    (hpush : ∀ files w', P files w' → (E.push .fileClosure (files.map Identifier.text)).Ensures w'
      (fun _ w'' => R ⟨files⟩ w'') F) :
    (E.closeChangesets ids correlationId).Ensures w R F := by
  unfold closeChangesets
  refine Ensures.announcing ?_ hF
  rw [ensures_bind]
  refine htransact.mono (fun files w' h' => ?_) fun _ _ h => h
  cases files with
  | nil => exact hnone w' h'
  | cons file rest =>
    change (discard (E.push .fileClosure ((file :: rest).map Identifier.text)) >>= fun _ =>
      pure ⟨file :: rest⟩).Ensures w' R F
    rw [ensures_bind, ensures_discard]
    exact hpush (file :: rest) w' h'

theorem closeFile_of_transact {id : FileId} {correlationId : String}
    {P : Option SyncId → World σ β → Prop} {R : FileClosure → World σ β → Prop}
    (htransact : (E.transact "close_file" correlationId (E.query (.tryCloseFile id))).Ensures w P F)
    (hP : ∀ owner, World.Blind (P owner)) (hF : ∀ e, World.Blind (F e))
    (hnone : ∀ w', P none w' → R ⟨id, none⟩ w')
    (hsome : ∀ sync w', P (some sync) w' → (E.push .syncClosure [sync.uuid.text]).Ensures w'
      (fun _ w'' => R ⟨id, some sync⟩ w'') F) :
    (E.closeFile id correlationId).Ensures w R F := by
  unfold closeFile
  refine Ensures.announcing ?_ hF
  rw [ensures_bind]
  refine htransact.mono (fun owner w' h' => ?_) fun _ _ h => h
  cases owner with
  | none => exact hnone w' h'
  | some sync =>
    refine ensures_note_bind (hP _) h' fun w'' h'' => ?_
    rw [ensures_bind, ensures_discard]
    exact hsome sync w'' h''

theorem closeSync_of_transact {id : SyncId} {correlationId : String}
    {P : List SyncId → World σ β → Prop} {R : SyncClosure → World σ β → Prop}
    (htransact : (E.transact "close_sync" correlationId (E.query (.tryCloseSync id))).Ensures w P F)
    (hP : ∀ closed, World.Blind (P closed)) (hF : ∀ e, World.Blind (F e))
    (hR : ∀ closed w', P closed w' → R ⟨id, closed⟩ w') :
    (E.closeSync id correlationId).Ensures w R F := by
  unfold closeSync
  refine Ensures.announcing ?_ hF
  rw [ensures_bind]
  refine htransact.mono (fun closed w' h' => ?_) fun _ _ h => h
  cases closed with
  | nil => exact hR [] w' h'
  | cons sync rest => exact ensures_note_bind (hP _) h' fun w'' h'' => hR (sync :: rest) w'' h''

section Handle

variable {p : JobPayload}

theorem handle_changesets (hkind : p.kind = .changesetClosure) {ids : List ChangesetId}
    (hids : parseMembers p.memberIds = .ok ids) :
    E.handle p = (do
      let r ← E.closeChangesets ids p.id
      pure r.toJson) := by
  simp only [handle, hkind, hids]
  rfl

theorem handle_files (hkind : p.kind = .fileClosure) {ids : List FileId}
    (hids : parseMembers p.memberIds = .ok ids) :
    E.handle p = (do
      let rs ← each (fun id => E.closeFile id p.id) ids
      pure (Json.singleOrAll (rs.map FileClosure.toJson))) := by
  simp only [handle, hkind, hids]
  rfl

theorem handle_syncs (hkind : p.kind = .syncClosure) {ids : List SyncId}
    (hids : parseMembers p.memberIds = .ok ids) :
    E.handle p = (do
      let rs ← each (fun id => E.closeSync id p.id) ids
      pure (Json.singleOrAll (rs.map SyncClosure.toJson))) := by
  simp only [handle, hkind, hids]
  rfl

end Handle

end SyncCascade.Engine
