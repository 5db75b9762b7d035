import SyncCascade.Proofs.Store.Outcome
import SyncCascade.Rerun

/-!
# Trimmed bases

Before a rerun is made its base is trimmed: the files that own no entity are deleted, and the declared
total is lowered by their number, not below zero. A trimmed base closes exactly if it then declares as
many files as are completed among those that remain. As a base is a root, neither the trimming nor the
closing touches its reruns.
-/

namespace SyncCascade

/-- A declared total without `n` files: lowered by their number, not below zero. -/
def totalWithout (n : Nat) (total : Option Int32) : Option Int32 :=
  if n = 0 then total else total.map fun t => Int32.ofInt (max 0 (t.toInt - n))

theorem loweredTotal_eq (total : Int32) (count : Nat) :
    Database.loweredTotal total count = Int32.ofInt (max 0 (total.toInt - count)) := by
  have hlt := Int32.toInt_lt total
  have hlimit : Word.limit 31 = 2 ^ 31 := rfl
  unfold Database.loweredTotal
  congr 1
  omega

theorem totalWithout_of_pos {n : Nat} (hn : 0 < n) (total : Option Int32) :
    totalWithout n total = total.map fun t => Database.loweredTotal t n := by
  simp only [totalWithout, if_neg (Nat.ne_of_gt hn), loweredTotal_eq]

/-- A lowered total that is a count as a word is that count, if the count fits into a word. -/
theorem totalWithout_eq_ofNat_iff {n count : Nat} (hn : 0 < n) (hcount : count < Word.limit 32)
    (total : Option Int32) :
    totalWithout n total = some (Int32.ofNat count) ↔
      ∃ t, total = some t ∧ max 0 (t.toInt - n) = (count : Int) := by
  rw [totalWithout, if_neg (Nat.ne_of_gt hn), Option.map_eq_some_iff]
  refine exists_congr fun t => and_congr_right fun _ => ?_
  have hlt := Int32.toInt_lt t
  constructor
  · intro h
    have hword := congrArg Int32.toInt h
    have hsize : Int32.size = 4294967296 := rfl
    have hlimit : Word.limit 32 = 4294967296 := rfl
    rw [Int32.toInt_ofInt_of_le (by omega) (by omega), Int32.toInt_ofNat', Int.bmod, hsize] at hword
    omega
  · intro h
    rw [h, Int32.ofInt_eq_ofNat]

namespace Database

variable {db : Database} {base : SyncId} {row : SyncRun} {now : Timestamp}

/-- The file belongs to the sync and owns no entity. -/
def bare (db : Database) (sync : SyncId) (f : File) : Bool :=
  decide (f.syncId = sync) && decide (db.entityCount f.fileId = 0)

def bareCount (db : Database) (sync : SyncId) : Nat := db.files.count fun _ f => db.bare sync f

/-- How many files of the sync own an entity and are completed. -/
def filledCompletedCount (db : Database) (sync : SyncId) : Nat :=
  db.files.count fun _ f =>
    decide (f.syncId = sync) && !db.bare sync f && decide (f.status = .completed)

theorem isEmpty_entitiesOf (db : Database) (file : FileId) :
    (db.entitiesOf file).isEmpty = decide (db.entityCount file = 0) := by
  have hlength := countP_entitiesOf db file fun _ => true
  simp only [List.countP_true, Bool.and_true] at hlength
  rw [Bool.eq_iff_iff, List.isEmpty_iff, decide_eq_true_eq, ← List.length_eq_zero_iff, hlength]
  rfl

theorem isEmptyFileOf_eq_bare (db : Database) (sync : SyncId) :
    db.isEmptyFileOf sync = db.bare sync := by
  funext f
  unfold isEmptyFileOf bare
  rw [isEmpty_entitiesOf]

/-- Without the empty files of the base, which declares so many files less. -/
def trimmed (db : Database) (base : SyncId) : Database :=
  { db with
    files := db.files.filter fun _ f => !db.bare base f
    syncs := db.syncs.modify base fun s =>
      { s with totalFiles := totalWithout (db.bareCount base) s.totalFiles } }

theorem deleteEmptyFiles_eq (db : Database) (base : SyncId) :
    db.deleteEmptyFiles base =
      (db.bareCount base, { db with files := db.files.filter fun _ f => !db.bare base f }) := by
  unfold deleteEmptyFiles
  rw [isEmptyFileOf_eq_bare, Table.countP_rows]
  rfl

theorem trimmed_of_bareCount_eq_zero (h : db.bareCount base = 0) :
    { db with files := db.files.filter fun _ f => !db.bare base f } = db.trimmed base := by
  unfold trimmed
  rw [h]
  congr 1
  exact (Table.modify_id db.syncs base).symm

theorem decrementTotalFiles_eq_trimmed (hrow : db.syncs.find? base = some row)
    (h : 0 < db.bareCount base) :
    decrementTotalFiles { db with files := db.files.filter fun _ f => !db.bare base f } base
      (db.bareCount base) = .ok (db.trimmed base) := by
  unfold decrementTotalFiles trimmed
  rw [if_pos (Table.contains_eq_true.2 ⟨row, hrow⟩)]
  simp only [totalWithout_of_pos h]

theorem find?_trimmed (hrow : db.syncs.find? base = some row) :
    (db.trimmed base).syncs.find? base =
      some { row with totalFiles := totalWithout (db.bareCount base) row.totalFiles } := by
  unfold trimmed
  rw [Table.find?_modify, if_pos rfl, hrow, Option.map_some]

theorem contains_trimmed (db : Database) (base id : SyncId) :
    (db.trimmed base).syncs.contains id = db.syncs.contains id :=
  Table.contains_modify ..

theorem completedFiles_trimmed (db : Database) (base : SyncId) :
    (db.trimmed base).completedFiles base = db.filledCompletedCount base := by
  rw [completedFiles_eq, trimmed, Table.count_filter]
  apply Table.count_congr
  intro _ f _
  cases decide (f.syncId = base) <;> cases db.bare base f <;> cases decide (f.status = .completed) <;> rfl

theorem rerunsOf_modify {f : SyncRun → SyncRun} {b : SyncId}
    (h : ∀ s, db.syncs.find? base = some s → s.baseSyncId ≠ some b ∧ (f s).baseSyncId ≠ some b) :
    rerunsOf { db with syncs := db.syncs.modify base f } b = db.rerunsOf b := by
  unfold rerunsOf
  refine Table.filter_rows_modify fun s hs => ?_
  simpa using h s hs

theorem latestRerun_modify {f : SyncRun → SyncRun} {b : SyncId}
    (h : ∀ s, db.syncs.find? base = some s → s.baseSyncId ≠ some b ∧ (f s).baseSyncId ≠ some b) :
    latestRerun { db with syncs := db.syncs.modify base f } b = db.latestRerun b :=
  congrArg (List.foldl laterRun none) (rerunsOf_modify h)

theorem rerunsOf_trimmed (hrow : db.syncs.find? base = some row) (hroot : row.baseSyncId = none)
    (b : SyncId) : (db.trimmed base).rerunsOf b = db.rerunsOf b := by
  refine rerunsOf_modify fun s hs => ?_
  rw [hrow] at hs
  cases hs
  simp [hroot]

theorem latestRerun_trimmed (hrow : db.syncs.find? base = some row)
    (hroot : row.baseSyncId = none) (b : SyncId) :
    (db.trimmed base).latestRerun b = db.latestRerun b :=
  congrArg (List.foldl laterRun none) (rerunsOf_trimmed hrow hroot b)

theorem rerunsOf_withCompleted_root (hrow : db.syncs.find? base = some row)
    (hroot : row.baseSyncId = none) (now : Timestamp) (b : SyncId) :
    (db.withCompleted now base).rerunsOf b = db.rerunsOf b := by
  refine rerunsOf_modify fun s hs => ?_
  rw [hrow] at hs
  cases hs
  simp [completeSync, hroot]

theorem latestRerun_withCompleted_root (hrow : db.syncs.find? base = some row)
    (hroot : row.baseSyncId = none) (now : Timestamp) (b : SyncId) :
    (db.withCompleted now base).latestRerun b = db.latestRerun b :=
  congrArg (List.foldl laterRun none) (rerunsOf_withCompleted_root hrow hroot now b)

/-- Trimmed, the base with the row `row` declares as many files as are completed. -/
def Exhausted (db : Database) (base : SyncId) (row : SyncRun) : Prop :=
  totalWithout (db.bareCount base) row.totalFiles = some (Int32.ofNat (db.filledCompletedCount base))

instance (db : Database) (base : SyncId) (row : SyncRun) : Decidable (db.Exhausted base row) :=
  inferInstanceAs (Decidable (_ = _))

/-- A failed root whose latest rerun is not in progress closes alone. -/
theorem tryCloseSync_trimmed (now : Timestamp) (hrow : db.syncs.find? base = some row)
    (hroot : row.baseSyncId = none) (hfailed : row.status = .failed)
    (hlatest : ∀ r, db.latestRerun base = some r → r.status ≠ .inProgress) :
    (db.trimmed base).tryCloseSync now base =
      if db.Exhausted base row then ([base], (db.trimmed base).withCompleted now base)
      else ([], db.trimmed base) := by
  have hfind := find?_trimmed hrow
  have hcloses : ∀ s, (db.trimmed base).syncs.find? base = some s →
      ((db.trimmed base).syncCloses base s = true ↔ db.Exhausted base row) := by
    intro s hs
    rw [hfind] at hs
    cases hs
    unfold syncCloses Exhausted
    rw [completedFiles_trimmed, hfailed, Bool.and_eq_true, beq_iff_eq]
    exact ⟨And.right, fun h => ⟨rfl, h⟩⟩
  have hlatest' : ((db.trimmed base).withCompleted now base).latestRerun base =
      db.latestRerun base := by
    rw [latestRerun_withCompleted_root hfind hroot, latestRerun_trimmed hrow hroot]
  have hclosing := tryCloseSync_closing now (db.trimmed base) base
  generalize hout : (db.trimmed base).tryCloseSync now base = out at hclosing
  obtain ⟨closed, db'⟩ := out
  cases hclosing with
  | refused hrefused =>
    have hnot : ¬ db.Exhausted base row := by
      rw [← hcloses _ hfind, hrefused _ hfind]
      exact Bool.false_ne_true
    exact (if_neg hnot).symm
  | alone hs hs' => exact (if_pos ((hcloses _ hs).1 hs')).symm
  | withRerun hs hs' hr hopen =>
    rw [hlatest'] at hr
    exact absurd hopen (hlatest _ hr)

end Database

end SyncCascade
