import SyncCascade.Proofs.Store.Rows

/-!
# Inserting a list of entities

A list of entities is inserted as a whole or not at all. An entity is unfit if its file or its changeset
is unknown, or if its key is stored already or belongs to an entity further up in the list. One unfit
entity is enough to refuse the list, and the failure is that of the first one.
-/

namespace SyncCascade.Database

/-- What stands against an entity that follows the entities `before` in its list. -/
inductive Unfit (db : Database) (before : List Entity) (e : Entity) : Prop
  | file (h : db.files.contains e.fileId = false)
  | changeset {c : ChangesetId} (hc : e.changesetId = some c) (h : db.changesets.contains c = false)
  | stored (h : db.entities.contains e.key = true)
  | earlier {e' : Entity} (he' : e' ∈ before) (hkey : e'.key = e.key)

/-- The failure that tells what stands against the entity: an unknown file counts before an unknown
changeset, and that before a key that is taken. -/
inductive Fault (db : Database) (before : List Entity) (e : Entity) : Failure → Prop
  | file (h : db.files.contains e.fileId = false) : Fault db before e (.fileMissing e.fileId)
  | changeset {c : ChangesetId} (hfile : db.files.contains e.fileId = true)
      (hc : e.changesetId = some c) (h : db.changesets.contains c = false) :
      Fault db before e (.changesetMissing c)
  | taken (hfile : db.files.contains e.fileId = true)
      (hchangeset : ∀ c, e.changesetId = some c → db.changesets.contains c = true)
      (h : db.entities.contains e.key = true ∨ ∃ e' ∈ before, e'.key = e.key) :
      Fault db before e (.entityExists e.entityId e.fileId)

/-- No entity of the list is unfit where it stands. -/
def AllFit (db : Database) (es : List Entity) : Prop :=
  ∀ ⦃before e after⦄, es = before ++ e :: after → ¬ db.Unfit before e

/-- The database has gained these entities and is otherwise as before. -/
structure Gains (db : Database) (es : List Entity) (db' : Database) : Prop where
  stored : ∀ e ∈ es, db'.entities.find? e.key = some e
  others : ∀ k, (∀ e ∈ es, e.key ≠ k) → db'.entities.find? k = db.entities.find? k
  rest : db' = { db with entities := db'.entities }

variable {db : Database} {before es : List Entity} {e : Entity}

theorem Fault.unfit {f : Failure} (h : db.Fault before e f) : db.Unfit before e := by
  cases h with
  | file h => exact .file h
  | changeset _ hc h => exact .changeset hc h
  | taken _ _ h =>
    rcases h with hstored | ⟨e', he', hkey⟩
    · exact .stored hstored
    · exact .earlier he' hkey

theorem allFit_nil : db.AllFit [] := by
  intro before e after h
  cases before <;> cases h

theorem allFit_concat (hes : db.AllFit es) (he : ¬ db.Unfit es e) : db.AllFit (es ++ [e]) := by
  intro before e' after h
  rcases List.append_eq_append_iff.1 h with ⟨_ | ⟨e₀, more⟩, rfl, hrest⟩ | ⟨_ | ⟨e₀, more⟩, rfl, hrest⟩
  · cases hrest
    rwa [List.append_nil]
  · cases more <;> cases hrest
  · cases hrest
    rwa [List.append_nil] at he
  · cases hrest
    exact hes rfl

section Check

variable {seen : List EntityKey} (hseen : ∀ k, seen.contains k = true ↔ ∃ e ∈ before, e.key = k)
include hseen

theorem checkEntities_cons (e : Entity) (rest : List Entity) :
    (∃ f, db.Fault before e f ∧ db.checkEntities seen (e :: rest) = .error f) ∨
      (¬ db.Unfit before e ∧
        db.checkEntities seen (e :: rest) = db.checkEntities (e.key :: seen) rest) := by
  rw [checkEntities]
  cases hfile : db.files.contains e.fileId with
  | false => exact .inl ⟨_, .file hfile, rfl⟩
  | true =>
    cases hchangeset : e.changesetId.filter fun c => !db.changesets.contains c with
    | some c =>
      obtain ⟨hc, hunknown⟩ := Option.filter_eq_some_iff.1 hchangeset
      exact .inl ⟨_, .changeset hfile hc (by simpa using hunknown), rfl⟩
    | none =>
      have hknown : ∀ c, e.changesetId = some c → db.changesets.contains c = true := fun c hc => by
        simpa using Option.filter_eq_none_iff.1 hchangeset c hc
      cases htaken : db.entities.contains e.key || seen.contains e.key with
      | true =>
        rw [Bool.or_eq_true, hseen] at htaken
        exact .inl ⟨_, .taken hfile hknown htaken, rfl⟩
      | false =>
        obtain ⟨hfree, hnew⟩ := Bool.or_eq_false_iff.1 htaken
        refine .inr ⟨fun h => ?_, rfl⟩
        cases h with
        | file h => cases h.symm.trans hfile
        | changeset hc h => cases h.symm.trans (hknown _ hc)
        | stored h => cases h.symm.trans hfree
        | earlier he' hkey => cases ((hseen _).2 ⟨_, he', hkey⟩).symm.trans hnew

/-- What the check of the entities behind `before` comes to: they are all fit, or it tells the fault of
the first that is not. -/
theorem checkEntities_cases (hbefore : db.AllFit before) (es : List Entity) :
    match db.checkEntities seen es with
    | .ok () => db.AllFit (before ++ es)
    | .error f => ∃ done e after, es = done ++ e :: after ∧ db.AllFit (before ++ done) ∧
        db.Fault (before ++ done) e f := by
  induction es generalizing seen before with
  | nil => rwa [List.append_nil]
  | cons e rest ih =>
    rcases checkEntities_cons hseen e rest with ⟨f, hfault, hcheck⟩ | ⟨hfit, hcheck⟩
    · rw [hcheck]
      exact ⟨[], e, rest, rfl, by rwa [List.append_nil], by rwa [List.append_nil]⟩
    · have hkeys : ∀ k, (e.key :: seen).contains k = true ↔ ∃ e' ∈ before ++ [e], e'.key = k := by
        intro k
        rw [List.contains_cons, Bool.or_eq_true, beq_iff_eq, hseen]
        grind
      have hnext := ih hkeys (allFit_concat hbefore hfit)
      rw [hcheck]
      simp only [List.append_assoc, List.singleton_append] at hnext
      cases hrest : db.checkEntities (e.key :: seen) rest with
      | ok u =>
        rw [hrest] at hnext
        exact hnext
      | error f =>
        rw [hrest] at hnext
        obtain ⟨done, e', after, rfl, hdone, hfault⟩ := hnext
        exact ⟨e :: done, e', after, rfl, hdone, hfault⟩

end Check

theorem AllFit.gains (h : db.AllFit es) :
    db.Gains es { db with entities := es.foldl (fun t e => t.insert e.key e) db.entities } where
  stored e he := by
    obtain ⟨before, after, rfl⟩ := List.append_of_mem he
    have hlater : ∀ e' ∈ after, e'.key ≠ e.key := fun e' he' hkey => by
      obtain ⟨between, rest, rfl⟩ := List.append_of_mem he'
      have hsplit : before ++ e :: (between ++ e' :: rest) = (before ++ e :: between) ++ e' :: rest := by
        simp only [List.append_assoc, List.cons_append]
      exact h hsplit (.earlier (List.mem_append_right _ List.mem_cons_self) hkey.symm)
    dsimp only
    rw [List.foldl_append, List.foldl_cons, find?_insertAll_of_ne hlater, Table.find?_insert,
      if_pos rfl]
  others _ hk := find?_insertAll_of_ne hk
  rest := rfl

/-- A list is inserted as a whole, all its entities being fit, or it is refused for the first that is
not. -/
theorem insertEntities_cases (db : Database) (es : List Entity) :
    match db.insertEntities es with
    | .ok db' => db.AllFit es ∧ db.Gains es db'
    | .error f => ∃ before e after, es = before ++ e :: after ∧ db.AllFit before ∧
        db.Fault before e f := by
  have hseen : ∀ k, ([] : List EntityKey).contains k = true ↔ ∃ e ∈ ([] : List Entity), e.key = k := by
    simp
  have hcases := checkEntities_cases hseen (@allFit_nil db) es
  unfold insertEntities
  cases hcheck : db.checkEntities [] es with
  | ok u =>
    rw [hcheck] at hcases
    exact ⟨hcases, AllFit.gains hcases⟩
  | error f =>
    rw [hcheck] at hcases
    exact hcases

end SyncCascade.Database
