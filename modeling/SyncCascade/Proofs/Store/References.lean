import SyncCascade.Proofs.Store.Keys
import SyncCascade.Proofs.Store.Readiness

/-!
# References between rows

Syncs are never deleted, and a file is only inserted for a sync that is there. So in every database
that calls make from the empty one, the owner of each file is there.
-/

namespace SyncCascade.Database

def FilesOwned (db : Database) : Prop :=
  ∀ ⦃id f⦄, db.files.find? id = some f → db.syncs.contains f.syncId = true

variable {db db' : Database} {now : Timestamp}

theorem filesOwned_empty : empty.FilesOwned := by
  intro id f hf
  cases hf

theorem FilesOwned.of_back (h : db.FilesOwned)
    (hsyncs : ∀ id, db.syncs.contains id = true → db'.syncs.contains id = true)
    (hfiles : ∀ id f', db'.files.find? id = some f' →
      ∃ f, db.files.find? id = some f ∧ f'.syncId = f.syncId) : db'.FilesOwned := by
  intro id f' hf'
  obtain ⟨f, hf, hsync⟩ := hfiles id f' hf'
  rw [hsync]
  exact hsyncs _ (h hf)

theorem FilesOwned.of_syncs (h : db.FilesOwned) (hfiles : db'.files = db.files)
    (hsyncs : ∀ id, db.syncs.contains id = true → db'.syncs.contains id = true) :
    db'.FilesOwned :=
  h.of_back hsyncs fun _ f' hf' => ⟨f', hfiles ▸ hf', rfl⟩

theorem contains_withCompleted (db : Database) (now : Timestamp) (id id' : SyncId) :
    (db.withCompleted now id).syncs.contains id' = db.syncs.contains id' :=
  Table.contains_modify ..

theorem tryCloseSync_filesOwned (h : db.FilesOwned) {id : SyncId} {closed : List SyncId}
    (hclosing : Closing now db id closed db') : db'.FilesOwned := by
  cases hclosing with
  | refused => exact h
  | alone =>
    exact h.of_syncs rfl fun id' hid' => (contains_withCompleted ..).trans hid'
  | withRerun =>
    exact h.of_syncs rfl fun id' hid' =>
      (contains_withCompleted ..).trans ((contains_withCompleted ..).trans hid')

theorem tryCloseFile_filesOwned (h : db.FilesOwned) {id : FileId} {owner : Option SyncId}
    (hclosing : FileClosing now db id owner db') : db'.FilesOwned := by
  cases hclosing with
  | refused => exact h
  | closed =>
    refine h.of_back (fun _ hid => hid) fun id' f' hf' => ?_
    obtain ⟨f, hf, hstep⟩ := (Table.revised_modify db.files id (completeFile now)).find?_back hf'
    refine ⟨f, hf, ?_⟩
    rw [hstep]
    split <;> rfl

theorem insertFile_filesOwned (h : db.FilesOwned) {f : File} (hok : db.insertFile f = .ok db') :
    db'.FilesOwned := by
  obtain ⟨howner, -, rfl⟩ := insertFile_eq_ok hok
  intro id f' hf'
  rw [Table.find?_insert] at hf'
  split at hf'
  · cases hf'
    exact howner
  · exact h hf'

theorem preserved_filesOwned : Preserved FilesOwned := by
  intro now db c reply db' h hok
  cases c with
  | insertSync s =>
    obtain ⟨-, rfl⟩ := insertSync_eq_ok (eq_ok_of_map hok)
    exact h.of_syncs rfl fun id hid => by rw [Table.contains_insert, hid, Bool.or_true]
  | tryCloseSync id =>
    have heq : db.tryCloseSync now id = (reply, db') := Except.ok.inj hok
    exact tryCloseSync_filesOwned h (heq ▸ tryCloseSync_closing now db id)
  | decrementTotalFiles id n =>
    cases decrementTotalFiles_eq_ok (eq_ok_of_map hok)
    exact h.of_syncs rfl fun id' hid' => (Table.contains_modify ..).trans hid'
  | insertFile f => exact insertFile_filesOwned h (eq_ok_of_map hok)
  | tryCloseFile id =>
    have heq : db.tryCloseFile now id = (reply, db') := Except.ok.inj hok
    exact tryCloseFile_filesOwned h (heq ▸ tryCloseFile_closing now db id)
  | deleteEmptyFiles sync =>
    cases hok
    refine h.of_back (fun _ hid => hid) fun id f' hf' => ?_
    rw [Table.find?_filter] at hf'
    exact ⟨f', (Option.filter_eq_some_iff.1 hf').1, rfl⟩
  | reopenFiles sync =>
    cases hok
    refine h.of_back (fun _ hid => hid) fun id f' hf' => ?_
    rw [Table.find?_mapRows] at hf'
    obtain ⟨f, hf, rfl⟩ := Option.map_eq_some_iff.1 hf'
    refine ⟨f, hf, ?_⟩
    split <;> rfl
  | insertEntities es =>
    obtain ⟨-, rfl⟩ := insertEntities_eq_ok (eq_ok_of_map hok)
    exact h
  | patchEntity id file p =>
    obtain ⟨-, -, rfl⟩ := patchEntity_eq_ok (eq_ok_of_map hok)
    exact h
  | insertChangeset c =>
    obtain ⟨-, rfl⟩ := insertChangeset_eq_ok (eq_ok_of_map hok)
    exact h
  | findSync | latestRerun | findFile | findEntity | markCompleted | findFiles | resetEntities |
    findChangeset | archiveEntities | history =>
    cases hok
    exact h

end SyncCascade.Database
