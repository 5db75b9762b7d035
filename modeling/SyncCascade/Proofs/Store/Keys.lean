import SyncCascade.Proofs.Store.Syncs

/-!
# Keys of rows

In every database that calls make from the empty one, files and entities stand under the keys that
their rows name. So the file that an entity names is the one by whose key it is found.
-/

namespace SyncCascade

namespace Table

variable {κ ρ : Type} [Key κ] {t : Table κ ρ} {key : ρ → κ}

/-- Every row stands under the key that it names. -/
def Keyed (key : ρ → κ) (t : Table κ ρ) : Prop := ∀ ⦃k r⦄, t.find? k = some r → key r = k

theorem keyed_empty : (empty : Table κ ρ).Keyed key := by
  intro k r h
  cases h

theorem Keyed.insert (h : t.Keyed key) (r : ρ) : (t.insert (key r) r).Keyed key := by
  intro k r' hr'
  rw [find?_insert] at hr'
  split at hr'
  next hk =>
    cases hr'
    exact hk.symm
  next => exact h hr'

theorem Keyed.insertAll (h : t.Keyed key) (rs : List ρ) :
    (rs.foldl (fun t r => t.insert (key r) r) t).Keyed key := by
  induction rs generalizing t with
  | nil => exact h
  | cons r rest ih => exact ih (h.insert r)

theorem Keyed.filter (h : t.Keyed key) (p : κ → ρ → Bool) : (t.filter p).Keyed key := by
  intro k r hr
  rw [find?_filter] at hr
  exact h (Option.filter_eq_some_iff.1 hr).1

theorem Keyed.mapRows (h : t.Keyed key) {f : κ → ρ → ρ} (hf : ∀ k r, key (f k r) = key r) :
    (t.mapRows f).Keyed key := by
  intro k r' hr'
  rw [find?_mapRows] at hr'
  obtain ⟨r, hr, rfl⟩ := Option.map_eq_some_iff.1 hr'
  rw [hf]
  exact h hr

theorem Keyed.modify (h : t.Keyed key) (k : κ) {f : ρ → ρ} (hf : ∀ r, key (f r) = key r) :
    (t.modify k f).Keyed key :=
  h.mapRows fun k' r => by
    split
    · exact hf r
    · rfl

end Table

namespace Database

/-- Files and entities stand under their own keys. -/
structure Keyed (db : Database) : Prop where
  files : db.files.Keyed File.fileId
  entities : db.entities.Keyed Entity.key

/-- The database after calls at these times; a call that fails leaves it as it is. -/
def afterCalls (db : Database) : List (Timestamp × StoreCall) → Database
  | [] => db
  | (now, c) :: rest =>
    match db.apply now c with
    | .ok (_, db') => db'.afterCalls rest
    | .error _ => db.afterCalls rest

variable {db db' : Database}

theorem keyed_empty : empty.Keyed := ⟨Table.keyed_empty, Table.keyed_empty⟩

theorem Keyed.of_eq (h : db.Keyed) (hfiles : db'.files = db.files)
    (hentities : db'.entities = db.entities) : db'.Keyed where
  files := hfiles ▸ h.files
  entities := hentities ▸ h.entities

theorem tryCloseFile_keyed (h : db.Keyed) (now : Timestamp) (id : FileId) :
    (db.tryCloseFile now id).2.Keyed := by
  unfold tryCloseFile
  split
  · exact h
  split
  · exact ⟨h.files.modify _ fun _ => rfl, h.entities⟩
  · exact h

theorem tryCloseSync_keyed (h : db.Keyed) (now : Timestamp) (id : SyncId) :
    (db.tryCloseSync now id).2.Keyed := by
  have hclosing := tryCloseSync_closing now db id
  generalize (db.tryCloseSync now id).1 = closed at hclosing
  generalize (db.tryCloseSync now id).2 = db' at hclosing ⊢
  cases hclosing <;> exact h.of_eq rfl rfl

theorem apply_keyed {now : Timestamp} {c : StoreCall} {reply : c.Reply} (h : db.Keyed)
    (hok : db.apply now c = .ok (reply, db')) : db'.Keyed := by
  cases c with
  | insertSync s =>
    obtain ⟨-, rfl⟩ := insertSync_eq_ok (eq_ok_of_map hok)
    exact h.of_eq rfl rfl
  | decrementTotalFiles id n =>
    cases decrementTotalFiles_eq_ok (eq_ok_of_map hok)
    exact h.of_eq rfl rfl
  | tryCloseSync id =>
    have hdb' : (db.tryCloseSync now id).2 = db' := congrArg Prod.snd (Except.ok.inj hok)
    exact hdb' ▸ tryCloseSync_keyed h now id
  | tryCloseFile id =>
    have hdb' : (db.tryCloseFile now id).2 = db' := congrArg Prod.snd (Except.ok.inj hok)
    exact hdb' ▸ tryCloseFile_keyed h now id
  | insertFile f =>
    obtain ⟨-, -, rfl⟩ := insertFile_eq_ok (eq_ok_of_map hok)
    exact ⟨h.files.insert f, h.entities⟩
  | insertEntities es =>
    obtain ⟨-, rfl⟩ := insertEntities_eq_ok (eq_ok_of_map hok)
    exact ⟨h.files, h.entities.insertAll es⟩
  | patchEntity id file p =>
    obtain ⟨-, -, rfl⟩ := patchEntity_eq_ok (eq_ok_of_map hok)
    exact ⟨h.files, h.entities.modify _ fun _ => rfl⟩
  | insertChangeset c =>
    obtain ⟨-, rfl⟩ := insertChangeset_eq_ok (eq_ok_of_map hok)
    exact h.of_eq rfl rfl
  | deleteEmptyFiles s =>
    cases hok
    exact ⟨h.files.filter _, h.entities⟩
  | reopenFiles s =>
    cases hok
    exact ⟨h.files.mapRows fun _ f => by split <;> rfl, h.entities⟩
  | markCompleted ids =>
    cases hok
    exact ⟨h.files, h.entities.mapRows fun _ e => by split <;> rfl⟩
  | resetEntities s =>
    cases hok
    exact ⟨h.files, h.entities.mapRows fun _ e => by split <;> rfl⟩
  | archiveEntities base rerun =>
    cases hok
    exact h.of_eq rfl rfl
  | findSync | latestRerun | findFile | findEntity | findFiles | findChangeset | history =>
    cases hok
    exact h

/-- Every call of the database that succeeds preserves `P`. -/
def Preserved (P : Database → Prop) : Prop :=
  ∀ ⦃now db c reply db'⦄, P db → db.apply now c = .ok (reply, db') → P db'

theorem Preserved.afterCalls {P : Database → Prop} (hP : Preserved P) (h : P db)
    (calls : List (Timestamp × StoreCall)) : P (db.afterCalls calls) := by
  induction calls generalizing db with
  | nil => exact h
  | cons call rest ih =>
    unfold Database.afterCalls
    split
    next hok => exact ih (hP h hok)
    next => exact ih h

theorem preserved_keyed : Preserved Keyed := fun _ _ _ _ _ h hok => apply_keyed h hok

theorem preserved_syncsKeyed : Preserved SyncsKeyed :=
  fun _ _ _ _ _ h hok => (apply_closes h hok).2

theorem Keyed.afterCalls (h : db.Keyed) (calls : List (Timestamp × StoreCall)) :
    (db.afterCalls calls).Keyed := preserved_keyed.afterCalls h calls

end Database

end SyncCascade
