import SyncCascade.Postgres.Client
import SyncCascade.Proofs.Postgres.Insertion
import SyncCascade.Proofs.Postgres.Reading

/-!
# The layout of rows in Postgres

Values are bound in the order of a list of columns and read by the names of these columns. A find gives
back the row that was inserted, if the server gives back the values that were bound.
-/

namespace SyncCascade

namespace Postgres

/-- The row has the values of another under the columns of that one. -/
def Row.Carries (row other : Row) : Prop := ∀ p ∈ other, row.value? p.1 = some p.2

theorem Row.carries_self {row : Row} (h : (row.map Prod.fst).Nodup) : row.Carries row := by
  intro p hp
  obtain ⟨before, after, rfl⟩ := List.append_of_mem hp
  rw [List.map_append, List.map_cons, List.nodup_append, List.nodup_cons] at h
  obtain ⟨-, ⟨hafter, -⟩, -⟩ := h
  -- Of two columns with one name the later counts, and no later one has the name of `p`.
  refine List.lookup_eq_some_iff.2 ⟨after.reverse, before.reverse, by simp, fun q hq => ?_⟩
  refine bne_iff_ne.2 fun heq => hafter ?_
  exact List.mem_map.2 ⟨q, List.mem_reverse.1 hq, heq.symm⟩

/-- The statement inserts a row, and the call, when its answer begins with a row that has the same
values under the same columns, gives the reply. -/
def Statement.ReadBack (s : Statement) (call : StoreCall) (reply : call.Reply) : Prop :=
  ∃ inserted, s.inserted? = some inserted ∧ inserted.Carries inserted ∧
    ∀ row affected more, row.Carries inserted → Result.read call ⟨affected, row :: more⟩ = .ok reply

theorem readBack_insertInto {table blank : String} {columns : List String} {values : List Value}
    {call : StoreCall} {reply : call.Reply} (htable : IsName table)
    (hblank : IsBlank blank) (hcolumns : Listable columns)
    (hlength : columns.length = values.length)
    (hread : ∀ row affected more, Row.Carries row (columns.zip values) →
      Result.read call ⟨affected, row :: more⟩ = .ok reply) :
    Statement.ReadBack ⟨Statement.insertInto table blank columns, values⟩ call reply := by
  refine ⟨columns.zip values, inserted?_insertInto htable hblank hcolumns hlength, ?_, hread⟩
  refine Row.carries_self ?_
  rw [List.map_fst_zip (Nat.le_of_eq hlength)]
  exact hcolumns.distinct

end Postgres

open Postgres Postgres.Value Postgres.Row

namespace SyncRun

theorem listable_columns : Listable columns := ⟨by decide +kernel, by decide +kernel, by decide +kernel⟩

theorem ofColumns_of_carries {s : SyncRun} {row : Row} (h : row.Carries (columns.zip s.values)) :
    ofColumns row = .ok s := by
  simp only [Carries, columns, values, List.zip_cons_cons, List.zip_nil_left, List.forall_mem_cons] at h
  obtain ⟨hid, hlayer, hgeometry, hdump, hstart, hend, hstatus, htotal, hfull, hbase, hrun,
    hmetadata, -⟩ := h
  exact ofColumns_eq_ok_iff.2 ⟨get?_eq_some hid (id?_ofId _), get?_eq_some hlayer rfl,
    hgeometry, get?_eq_some hdump rfl, get?_eq_some hstart rfl, get?_nullable hend rfl fun _ => rfl,
    hstatus, get?_nullable htotal rfl fun _ => rfl, get?_eq_some hfull rfl,
    get?_nullable hbase rfl id?_ofId, get?_eq_some hrun rfl,
    get?_nullable hmetadata rfl fun _ => rfl⟩

theorem readBack_insertSync (s : SyncRun) :
    (Statement.insertSync s).ReadBack (.findSync s.id) (some s) := by
  refine readBack_insertInto (by decide +kernel) (by decide +kernel) listable_columns rfl
    fun row affected more h => ?_
  exact congrArg (Except.map some) (ofColumns_of_carries h)

end SyncRun

namespace File

theorem listable_columns : Listable columns := ⟨by decide +kernel, by decide +kernel, by decide +kernel⟩

theorem ofColumns_of_carries {f : File} {row : Row} (h : row.Carries (columns.zip f.values)) :
    ofColumns row = .ok f := by
  simp only [Carries, columns, values, List.zip_cons_cons, List.zip_nil_left, List.forall_mem_cons] at h
  obtain ⟨hfile, hsync, hstatus, htotal, hstart, hend, -⟩ := h
  exact ofColumns_eq_ok_iff.2 ⟨get?_eq_some hfile (id?_ofId _), get?_eq_some hsync (id?_ofId _),
    hstatus, get?_nullable htotal rfl fun _ => rfl, get?_eq_some hstart rfl,
    get?_nullable hend rfl fun _ => rfl⟩

theorem readBack_insertFile (f : File) :
    (Statement.insertFile f).ReadBack (.findFile f.fileId) (some f) := by
  refine readBack_insertInto (by decide +kernel) (by decide +kernel) listable_columns rfl
    fun row affected more h => ?_
  exact congrArg (Except.map some) (ofColumns_of_carries h)

end File

namespace Entity

theorem listable_columns : Listable columns := ⟨by decide +kernel, by decide +kernel, by decide +kernel⟩

theorem ofColumns_of_carries {e : Entity} {row : Row} (h : row.Carries (columns.zip e.values)) :
    ofColumns row = .ok e := by
  simp only [Carries, columns, values, List.zip_cons_cons, List.zip_nil_left, List.forall_mem_cons] at h
  obtain ⟨hentity, hfile, hchangeset, hstatus, haction, hreason, -⟩ := h
  exact ofColumns_eq_ok_iff.2 ⟨get?_eq_some hentity rfl, get?_eq_some hfile (id?_ofId _),
    get?_nullable hchangeset rfl id?_ofId, hstatus, haction, get?_nullable hreason rfl fun _ => rfl⟩

theorem readBack_insertEntity (e : Entity) :
    (Statement.insertEntity e).ReadBack (.findEntity e.entityId e.fileId) (some e) := by
  refine readBack_insertInto (by decide +kernel) (by decide +kernel) listable_columns rfl
    fun row affected more h => ?_
  exact congrArg (Except.map some) (ofColumns_of_carries h)

end Entity

namespace Changeset

theorem listable_columns : Listable columns := ⟨by decide +kernel, by decide +kernel, by decide +kernel⟩

theorem ofColumns?_of_carries {c : Changeset} {row : Row} (h : row.Carries (columns.zip c.values)) :
    ofColumns? row = some c := by
  simp only [Carries, columns, values, List.zip_cons_cons, List.zip_nil_left, List.forall_mem_cons] at h
  obtain ⟨hchangeset, hosm, -⟩ := h
  rw [ofColumns?, get?_eq_some hchangeset (id?_ofId _), get?_nullable hosm rfl fun _ => rfl]
  rfl

theorem readBack_insertChangeset (c : Changeset) :
    (Statement.insertChangeset c).ReadBack (.findChangeset c.changesetId) (some c) := by
  refine readBack_insertInto (by decide +kernel) (by decide +kernel) listable_columns rfl
    fun row affected more h => ?_
  have hread : Result.orGarbled (.findChangeset c.changesetId) ofColumns? row = .ok c := by
    unfold Result.orGarbled
    rw [ofColumns?_of_carries h]
  exact congrArg (Except.map some) hread

end Changeset

namespace Postgres

/-- Every row that is inserted is read back as it was, whatever else an answer holds, and a row whose
status, action or geometry type has no known name is refused. -/
theorem rows_read_as_written :
    (∀ s : SyncRun, ∃ st, Statement.ofCall (.insertSync s) = [st] ∧
      st.ReadBack (.findSync s.id) (some s)) ∧
    (∀ f : File, ∃ st, Statement.ofCall (.insertFile f) = [st] ∧
      st.ReadBack (.findFile f.fileId) (some f)) ∧
    (∀ es : List Entity, List.Forall₂
      (fun st e => st.ReadBack (.findEntity e.entityId e.fileId) (some e))
      (Statement.ofCall (.insertEntities es)) es) ∧
    (∀ c : Changeset, ∃ st, Statement.ofCall (.insertChangeset c) = [st] ∧
      st.ReadBack (.findChangeset c.changesetId) (some c)) ∧
    ∀ row : Row,
      (row.Misnamed SyncStatus "status" ∨ row.Misnamed GeometryType "geometry_type" →
        Refused (SyncRun.ofColumns row)) ∧
      (row.Misnamed FileStatus "status" → Refused (File.ofColumns row)) ∧
      (row.Misnamed EntityStatus "status" ∨ row.Misnamed EntityAction "action" →
        Refused (Entity.ofColumns row) ∧ Refused (EntityHistory.ofColumns row)) := by
  refine ⟨fun s => ⟨_, rfl, s.readBack_insertSync⟩, fun f => ⟨_, rfl, f.readBack_insertFile⟩,
    fun es => ?_, fun c => ⟨_, rfl, c.readBack_insertChangeset⟩, fun row => ⟨?_, ?_, ?_⟩⟩
  · exact List.forall₂_map_left_iff.2 (List.forall₂_same.2 fun e _ => e.readBack_insertEntity)
  · exact SyncRun.ofColumns_refused
  · exact File.ofColumns_refused
  · exact fun h => ⟨Entity.ofColumns_refused h, EntityHistory.ofColumns_refused h⟩

/-- Rows that lack nothing but a known name. -/
theorem rows_read_as_written_misnamed :
    Refused (SyncRun.ofColumns (SyncRun.columns.zip [.uuid default, .int4 1, .text "circle",
      .moment default, .moment default, .null, .text "completed", .null, .bool true, .null, .int4 0,
      .null])) ∧
    Refused (File.ofColumns (File.columns.zip [.uuid default, .uuid default, .text "paused", .null,
      .moment default, .null])) ∧
    Refused (Entity.ofColumns (Entity.columns.zip [.text "node/1", .uuid default, .null,
      .text "in_progress", .text "upsert", .null])) := by
  refine ⟨(rows_read_as_written.2.2.2.2 _).1 (.inr ⟨"circle", rfl, ?_⟩),
    (rows_read_as_written.2.2.2.2 _).2.1 ⟨"paused", rfl, ?_⟩,
    ((rows_read_as_written.2.2.2.2 _).2.2 (.inr ⟨"upsert", rfl, ?_⟩)).1⟩
  all_goals intro a; cases a <;> decide

end Postgres

end SyncCascade
