import SyncCascade.Proofs.ByteOrder
import SyncCascade.Proofs.Store.Readiness
import SyncCascade.Proofs.Trace

/-!
# Scans over the entities of a file

The entities of a file are found by a scan that starts at the first key the file can have and ends at
the first key of another file. Keys are ordered by their file first, and in every reachable state a row
stands under its own key. So the scan finds what a look at every row of the table finds, and the calls
that count or test the entities of a file do so over all of them.
-/

namespace SyncCascade

namespace Database

/-- The entities that name the file, wherever they stand in the table. -/
def entitiesNaming (db : Database) (file : FileId) : List Entity :=
  db.entities.rows.filter fun e => e.fileId = file

/-- The row `f` of the file is in progress and declares as many entities as name the file and are
resolved. -/
def closesByRows (db : Database) (file : FileId) (f : File) : Bool :=
  f.status = .inProgress && f.totalEntities = some (Int32.ofNat
    (db.entities.rows.countP fun e => e.fileId = file && e.status.isResolved))

/-- The file belongs to the sync, and no entity names it. -/
def emptyByRows (db : Database) (sync : SyncId) (f : File) : Bool :=
  f.syncId = sync && db.entities.rows.all fun e => e.fileId ≠ f.fileId

/-- The file belongs to the sync and is not in progress, and an entity that names it is not synced. -/
def reopensByRows (db : Database) (sync : SyncId) (f : File) : Bool :=
  f.syncId = sync && f.status ≠ .inProgress &&
    db.entities.rows.any fun e => e.fileId = f.fileId && e.status = .notSynced

/-- The scan of a file finds exactly the entities that name it, and the calls that scan come to what
looking at every row would give. -/
structure ScansAll (db : Database) : Prop where
  found : ∀ file, db.entitiesOf file = db.entitiesNaming file
  stored : ∀ file e, e ∈ db.entitiesOf file ↔ db.entities.find? ⟨file, e.entityId⟩ = some e
  ascending : ∀ file, (db.entitiesOf file).Pairwise fun a b =>
    a.entityId.text.toUTF8.toList < b.entityId.text.toUTF8.toList
  closing : ∀ now file, db.tryCloseFile now file =
    match (db.files.find? file).filter (db.closesByRows file) with
    | some f => (some f.syncId, { db with files := db.files.modify file (completeFile now) })
    | none => (none, db)
  emptying : ∀ sync, db.deleteEmptyFiles sync =
    (db.files.rows.countP (db.emptyByRows sync),
      { db with files := db.files.filter fun _ f => !db.emptyByRows sync f })
  reopening : ∀ sync, db.reopenFiles sync =
    (db.files.rows.countP (db.reopensByRows sync),
      { db with files := db.files.mapRows fun _ f =>
          if db.reopensByRows sync f then reopenFile f else f })

variable {db : Database}

theorem Keyed.key_eq (h : db.Keyed) {e : EntityKey × Entity} (he : e ∈ db.entities.entries) :
    e.2.key = e.1 :=
  h.entities ((Table.find?_eq_some_iff _ _ _).2 he)

theorem Keyed.entitiesOf_eq (h : db.Keyed) (file : FileId) :
    db.entitiesOf file = db.entitiesNaming file := by
  rw [entitiesOf_eq_map, entitiesNaming, Table.rows, List.filter_map]
  congr 1
  refine List.filter_congr fun e he => ?_
  have hfile : e.2.fileId = e.1.file := congrArg EntityKey.file (h.key_eq he)
  simp [hfile]

theorem Keyed.mem_entitiesOf_iff (h : db.Keyed) {file : FileId} {e : Entity} :
    e ∈ db.entitiesOf file ↔ db.entities.find? ⟨file, e.entityId⟩ = some e := by
  rw [entitiesOf_eq_map]
  simp only [List.mem_map, List.mem_filter, decide_eq_true_eq]
  constructor
  · rintro ⟨⟨k, e⟩, ⟨he, rfl⟩, rfl⟩
    have hkey : e.key = k := h.key_eq he
    rw [Table.find?_eq_some_iff]
    subst hkey
    exact he
  · intro he
    exact ⟨(⟨file, e.entityId⟩, e), ⟨(Table.find?_eq_some_iff _ _ _).1 he, rfl⟩, rfl⟩

/-- Within one file the keys are ordered by the identifiers of the entities. -/
theorem Keyed.entitiesOf_ascending (h : db.Keyed) (file : FileId) :
    (db.entitiesOf file).Pairwise fun a b =>
      a.entityId.text.toUTF8.toList < b.entityId.text.toUTF8.toList := by
  rw [entitiesOf_eq_map, List.pairwise_map]
  refine (db.entities.sorted.filter _).imp_of_mem fun {a b} ha hb hlt => ?_
  simp only [List.mem_filter, decide_eq_true_eq] at ha hb
  have hid : ∀ e ∈ db.entities.entries, e.1.entity = e.2.entityId := fun e he =>
    (congrArg EntityKey.entity (h.key_eq he)).symm
  rw [← hid a ha.1, ← hid b hb.1]
  rcases EntityKey.lt_iff.1 hlt with hfile | ⟨-, htext⟩
  · rw [ha.2, hb.2] at hfile
    exact absurd hfile (Key.irrefl file)
  · exact Text.toUTF8_lt htext

theorem Keyed.fileCloses_eq (h : db.Keyed) : db.fileCloses = db.closesByRows := by
  funext file f
  unfold fileCloses closesByRows resolvedEntities
  rw [h.entitiesOf_eq, entitiesNaming, List.countP_filter, Bool.beq_eq_decide_eq,
    Bool.beq_eq_decide_eq]
  simp only [Bool.and_comm]

theorem Keyed.isEmptyFileOf_eq (h : db.Keyed) : db.isEmptyFileOf = db.emptyByRows := by
  funext sync f
  unfold isEmptyFileOf emptyByRows
  rw [h.entitiesOf_eq, entitiesNaming, Bool.eq_iff_iff]
  simp

theorem Keyed.reopens_eq (h : db.Keyed) : db.reopens = db.reopensByRows := by
  funext sync f
  unfold reopens reopensByRows
  rw [h.entitiesOf_eq, entitiesNaming, List.any_filter]

theorem Keyed.scansAll (h : db.Keyed) : db.ScansAll where
  found := h.entitiesOf_eq
  stored _ _ := h.mem_entitiesOf_iff
  ascending := h.entitiesOf_ascending
  closing now file := by
    unfold tryCloseFile
    rw [h.fileCloses_eq]
    cases hf : db.files.find? file with
    | none => rfl
    | some f =>
      rw [Option.filter_some]
      by_cases hcloses : db.closesByRows file f <;> simp [hcloses]
  emptying sync := by rw [deleteEmptyFiles, h.isEmptyFileOf_eq]
  reopening sync := by rw [reopenFiles, h.reopens_eq]

/-- The file between its neighbours, with an entity that has the empty identifier. -/
example :
    let entity (file : Nat) (id : String) : Entity :=
      ⟨⟨id⟩, ⟨⟨BitVec.ofNat 128 file⟩⟩, none, .completed, .create, none⟩
    let entities := [entity 8 "", entity 7 "b", entity 6 "z", entity 7 ""]
    let db := { empty with entities := entities.foldl (fun t (e : Entity) => t.insert e.key e) .empty }
    db.entitiesOf ⟨⟨7⟩⟩ = [entity 7 "", entity 7 "b"] := by
  decide

end Database

open Database in
/-- In every state of a run from the empty database the scan of any file finds all its entities, in
what is committed as in what the unit of work in progress sees. The trace in which this is read changes
nothing and ends with the state that the run leaves. -/
theorem scans_find_all {β : Type} (broker : Broker β) (transaction : TransactionConfig)
    (queue : QueueConfig) (w : World Session β) (activities : List Activity) :
    let run := plainRun broker transaction queue (w.withStore (.ofDatabase .empty)) activities
    let traced := tracedRun broker transaction queue
      (w.withStore (.fresh (.ofDatabase .empty))) activities
    let states := Session.ofDatabase .empty :: traced.2.store.states
    run = (traced.1, traced.2.withStore traced.2.store.state) ∧
      states.getLast? = some run.2.store ∧
      ∀ s ∈ states, s.committed.ScansAll ∧ s.visible.ScansAll := by
  intro run traced states
  have hrun : run = (traced.1, traced.2.withStore traced.2.store.state) :=
    tracedRun_fresh broker transaction queue w (.ofDatabase .empty) activities
  have halong := tracedRun_moves broker transaction queue keyed_empty preserved_keyed
    (C := fun _ _ => True) (fun _ => trivial) (fun _ _ => trivial) w activities
  refine ⟨hrun, ?_, fun s hs => ?_⟩
  · rw [hrun]
    exact halong.last
  · have hkeeps := halong.holds s hs
    exact ⟨hkeeps.committed.scansAll, hkeeps.visible.scansAll⟩

end SyncCascade
