import SyncCascade.Proofs.Cascade.Changesets

/-!
# Changesets in one go or in several

Marking the entities of some changesets and then those of others marks what marking all of them at once
does, and counts as many. Only which changesets they are matters, not in what order or how often they are
named. The candidate files of all changesets are those of the one part and of the other, in their order
and each once.
-/

namespace SyncCascade.Database

variable {db : Database} {A B : List ChangesetId}

theorem inChangesets_nil (e : Entity) : inChangesets [] e = false := by
  unfold inChangesets
  cases e.changesetId <;> rfl

theorem inChangesets_append (A B : List ChangesetId) (e : Entity) :
    inChangesets (A ++ B) e = (inChangesets A e || inChangesets B e) := by
  unfold inChangesets
  cases e.changesetId with
  | none => rfl
  | some c => simp

theorem inChangesets_congr (h : ∀ c, c ∈ A ↔ c ∈ B) (e : Entity) :
    inChangesets A e = inChangesets B e := by
  unfold inChangesets
  cases e.changesetId with
  | none => rfl
  | some c => simp [h c]

theorem marks_congr (h : ∀ c, c ∈ A ↔ c ∈ B) : marks A = marks B := by
  funext e
  unfold marks
  rw [inChangesets_congr h]

theorem markCompleted_congr (h : ∀ c, c ∈ A ↔ c ∈ B) : db.markCompleted A = db.markCompleted B := by
  unfold markCompleted
  rw [marks_congr h]

theorem markCompleted_nil (db : Database) : (db.markCompleted []).2 = db := by
  simp [markCompleted, marks, inChangesets_nil, Table.mapRows_id]

def mark (ids : List ChangesetId) (e : Entity) : Entity :=
  if marks ids e then { e with status := .completed } else e

theorem mark_append (A B : List ChangesetId) (e : Entity) : mark (A ++ B) e = mark B (mark A e) := by
  unfold mark marks
  rw [inChangesets_append]
  by_cases hA : inChangesets A e = true <;> by_cases hB : inChangesets B e = true <;>
    by_cases hdone : e.status = .completed <;> simp [hA, hB, hdone]

/-- What is marked with all changesets is marked with the first ones, or else with the others. -/
theorem marks_append (A B : List ChangesetId) (e : Entity) :
    (marks (A ++ B) e && marks A e) = marks A e ∧
      (marks (A ++ B) e && !marks A e) = marks B (mark A e) := by
  unfold mark marks
  rw [inChangesets_append]
  by_cases hA : inChangesets A e = true <;> by_cases hB : inChangesets B e = true <;>
    by_cases hdone : e.status = .completed <;> simp [hA, hB, hdone]

theorem markCompleted_append (db : Database) (A B : List ChangesetId) :
    db.markCompleted (A ++ B) =
      ((db.markCompleted A).1 + ((db.markCompleted A).2.markCompleted B).1,
        ((db.markCompleted A).2.markCompleted B).2) := by
  have hcount : db.entities.rows.countP (marks (A ++ B)) = db.entities.rows.countP (marks A) +
      (db.entities.mapRows fun _ => mark A).rows.countP (marks B) := by
    rw [Table.countP_rows, Table.countP_rows, Table.countP_rows, Table.count_mapRows,
      Table.count_split _ _ fun _ => marks A, Table.count_filter, Table.count_filter]
    simp only [(marks_append A B _).1, (marks_append A B _).2]
  have hrows : (db.entities.mapRows fun _ => mark (A ++ B)) =
      (db.entities.mapRows fun _ => mark A).mapRows fun _ => mark B := by
    rw [Table.mapRows_mapRows]
    exact Table.mapRows_congr fun _ e _ => mark_append A B e
  unfold markCompleted
  exact Prod.ext hcount (congrArg (fun entities => { db with entities := entities }) hrows)

theorem notMem_findFiles_nil {statuses : List FileStatus} {file : FileId} :
    file ∉ db.findFiles [] statuses := by
  simp [mem_findFiles, inChangesets_nil]

theorem mem_findFiles_append {statuses : List FileStatus} {file : FileId} :
    file ∈ db.findFiles (A ++ B) statuses ↔
      file ∈ db.findFiles A statuses ∨ file ∈ db.findFiles B statuses := by
  simp only [mem_findFiles, inChangesets_append, Bool.or_eq_true]
  grind

theorem mem_findFiles_congr (h : ∀ c, c ∈ A ↔ c ∈ B) {statuses : List FileStatus} {file : FileId} :
    file ∈ db.findFiles A statuses ↔ file ∈ db.findFiles B statuses := by
  simp only [mem_findFiles, inChangesets_congr h]

theorem mem_findFiles_markCompleted {ids : List ChangesetId} {statuses : List FileStatus}
    {file : FileId} :
    file ∈ (db.markCompleted ids).2.findFiles A statuses ↔ file ∈ db.findFiles A statuses := by
  have hfind : ∀ k, (db.markCompleted ids).2.entities.find? k =
      (db.entities.find? k).map fun e =>
        if marks ids e then { e with status := .completed } else e :=
    db.entities.find?_mapRows _
  rw [mem_findFiles, mem_findFiles]
  refine and_congr Iff.rfl ⟨?_, ?_⟩
  · rintro ⟨k, e', he', hk, hin⟩
    rw [hfind] at he'
    obtain ⟨e, he, rfl⟩ := Option.map_eq_some_iff.1 he'
    rw [inChangesets_marked] at hin
    exact ⟨k, e, he, hk, hin⟩
  · rintro ⟨k, e, he, hk, hin⟩
    refine ⟨k, _, by rw [hfind, he, Option.map_some], hk, ?_⟩
    rw [inChangesets_marked]
    exact hin

/-- What becomes of changesets that are closed in two parts. -/
structure Parted (db : Database) (A B : List ChangesetId) : Prop where
  marked : db.markCompleted (A ++ B) =
    ((db.markCompleted A).1 + ((db.markCompleted A).2.markCompleted B).1,
      ((db.markCompleted A).2.markCompleted B).2)
  unordered : (∀ c, c ∈ A ↔ c ∈ B) → db.markCompleted A = db.markCompleted B
  ascending : ∀ statuses, (db.findFiles (A ++ B) statuses).Pairwise (· < ·)
  candidates : ∀ statuses file, file ∈ db.findFiles (A ++ B) statuses ↔
    file ∈ db.findFiles A statuses ∨ file ∈ db.findFiles B statuses

theorem parted (db : Database) (A B : List ChangesetId) : db.Parted A B where
  marked := markCompleted_append db A B
  unordered := markCompleted_congr
  ascending := findFiles_ascending db (A ++ B)
  candidates _ _ := mem_findFiles_append

end SyncCascade.Database
