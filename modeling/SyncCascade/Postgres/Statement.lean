import SyncCascade.Config
import SyncCascade.Postgres.Record
import SyncCascade.Postgres.Schema
import SyncCascade.Store.Call

/-!
# Statements

What is sent to Postgres. A closure is a single statement whose comparison of counts and whose change
of status happen together, so that a concurrent writer who would change the counts makes one side
fail.
-/

namespace SyncCascade.Postgres

structure Statement where
  text : String
  /-- The values of `$1`, `$2`, and so on. -/
  params : List Value
deriving DecidableEq, Repr

inductive Request where
  | start
  | isolate (level : IsolationLevel)
  | commit
  | run (s : Statement)
deriving DecidableEq, Repr

def Statement.sent (s : Statement) : Statement := { s with params := s.params.map Value.sent }

def Request.sent : Request → Request
  | run s => run s.sent
  | r => r

def Request.statement : Request → Statement
  | start => ⟨"BEGIN", []⟩
  | isolate level => ⟨"SET TRANSACTION ISOLATION LEVEL " ++ level.sql, []⟩
  | commit => ⟨"COMMIT", []⟩
  | run s => s

namespace Statement

open Value

def columnList (columns : List String) : String := ", ".intercalate columns

def placeholders (count : Nat) : String :=
  ", ".intercalate ((List.range count).map fun i => "$" ++ Numeral.text (i + 1))

/-- The insertion of a row whose columns are listed in brackets, with a placeholder for each. A blank
may stand inside the brackets. -/
def insertInto (table blank : String) (columns : List String) : String :=
  "INSERT INTO " ++ table ++ " (" ++ blank ++ columnList columns ++ blank ++ ") VALUES (" ++
    placeholders columns.length ++ ")"

def select (columns : List String) (table condition : String) (params : List Value) : Statement :=
  ⟨"SELECT " ++ columnList columns ++ " FROM " ++ table ++ " WHERE " ++ condition, params⟩

def findSync (id : SyncId) : Statement := select SyncRun.columns "sync" "id = $1" [ofId id]

def insertSync (s : SyncRun) : Statement :=
  ⟨insertInto "sync" " " SyncRun.columns, s.values⟩

def tryCloseSync (id : SyncId) : Statement :=
  ⟨"WITH closed_sync AS ( " ++
      "UPDATE sync s SET status = 'completed', end_date = NOW() " ++
      "WHERE s.id = $1 AND s.status IN ('in_progress', 'failed') AND s.total_files = ( " ++
      "SELECT COUNT(*) FROM file f WHERE f.sync_id = s.id AND f.status = 'completed' ) " ++
      "RETURNING s.id ), " ++
      "latest_rerun AS ( " ++
      "SELECT r.id, r.status FROM sync r WHERE r.base_sync_id = $1 " ++
      "ORDER BY r.run_number DESC LIMIT 1 ), " ++
      "closed_rerun AS ( " ++
      "UPDATE sync r SET status = 'completed', end_date = NOW() FROM latest_rerun l " ++
      "WHERE r.id = l.id AND l.status = 'in_progress' " ++
      "AND EXISTS (SELECT 1 FROM closed_sync) RETURNING r.id ) " ++
      "SELECT id, 0 AS ord FROM closed_sync UNION ALL " ++
      "SELECT id, 1 AS ord FROM closed_rerun ORDER BY ord",
    [ofId id]⟩

def latestRerun (base : SyncId) : Statement :=
  select SyncRun.columns "sync" "base_sync_id = $1 ORDER BY run_number DESC LIMIT 1" [ofId base]

/-- An undeclared total stays undeclared. -/
def decrementTotalFiles (id : SyncId) (count : Int64) : Statement :=
  ⟨"UPDATE sync SET total_files = CASE WHEN total_files IS NULL THEN NULL " ++
      "ELSE GREATEST(total_files - $2, 0)::INTEGER END WHERE id = $1",
    [ofId id, int8 count]⟩

def findFile (id : FileId) : Statement := select File.columns "file" "file_id = $1" [ofId id]

def insertFile (f : File) : Statement := ⟨insertInto "file" "" File.columns, f.values⟩

def tryCloseFile (id : FileId) : Statement :=
  ⟨"UPDATE file f SET status = 'completed', end_date = NOW() " ++
      "WHERE f.file_id = $1 AND f.status = 'in_progress' AND f.total_entities IS NOT NULL " ++
      "AND f.total_entities = ( SELECT COUNT(*) FROM entity e WHERE e.file_id = f.file_id " ++
      "AND e.status IN ('completed', 'not_synced') ) RETURNING f.sync_id",
    [ofId id]⟩

def deleteEmptyFiles (sync : SyncId) : Statement :=
  ⟨"DELETE FROM file f WHERE f.sync_id = $1 " ++
      "AND NOT EXISTS (SELECT 1 FROM entity e WHERE e.file_id = f.file_id)",
    [ofId sync]⟩

def reopenFiles (sync : SyncId) : Statement :=
  ⟨"UPDATE file f SET status = 'in_progress', end_date = NULL " ++
      "WHERE f.sync_id = $1 AND f.status <> 'in_progress' AND EXISTS ( " ++
      "SELECT 1 FROM entity e WHERE e.file_id = f.file_id AND e.status = 'not_synced' )",
    [ofId sync]⟩

def findEntity (id : EntityId) (file : FileId) : Statement :=
  select Entity.columns "entity" "entity_id = $1 AND file_id = $2" [.text id.text, ofId file]

def insertEntity (e : Entity) : Statement := ⟨insertInto "entity" "" Entity.columns, e.values⟩

def patchEntity (id : EntityId) (file : FileId) (p : EntityPatch) : Statement :=
  ⟨"UPDATE entity SET status = COALESCE($3, status), " ++
      "changeset_id = COALESCE($4, changeset_id), action = COALESCE($5, action), " ++
      "fail_reason = COALESCE($6, fail_reason) WHERE entity_id = $1 AND file_id = $2",
    [.text id.text, ofId file, ofOption ofName p.status, ofOption ofId p.changesetId,
      ofOption ofName p.action, ofOption Value.text p.failReason]⟩

def markCompleted (changesets : List ChangesetId) : Statement :=
  ⟨"UPDATE entity SET status = 'completed' " ++
      "WHERE changeset_id = ANY($1) AND status <> 'completed'",
    [uuids (changesets.map ChangesetId.uuid)]⟩

def findFiles (changesets : List ChangesetId) (statuses : List FileStatus) : Statement :=
  ⟨"SELECT DISTINCT e.file_id FROM entity e JOIN file f ON f.file_id = e.file_id " ++
      "WHERE e.changeset_id = ANY($1) AND f.status = ANY($2) ORDER BY e.file_id",
    [uuids (changesets.map ChangesetId.uuid), texts (statuses.map FileStatus.name)]⟩

def resetEntities (sync : SyncId) : Statement :=
  ⟨"UPDATE entity e SET status = 'in_rerun', changeset_id = NULL, fail_reason = NULL " ++
      "FROM file f WHERE f.file_id = e.file_id AND f.sync_id = $1 " ++
      "AND e.status IN ('in_progress', 'not_synced', 'failed')",
    [ofId sync]⟩

def findChangeset (id : ChangesetId) : Statement :=
  select Changeset.columns "changeset" "changeset_id = $1" [ofId id]

def insertChangeset (c : Changeset) : Statement :=
  ⟨insertInto "changeset" "" Changeset.columns, c.values⟩

def archiveEntities (base rerun : SyncId) : Statement :=
  ⟨"INSERT INTO entity_history ( " ++ columnList EntityHistory.columns ++ " ) " ++
      "SELECT e.entity_id, e.file_id, $2, $1, e.changeset_id, e.status, e.action, " ++
      "e.fail_reason FROM entity e JOIN file f ON f.file_id = e.file_id " ++
      "WHERE f.sync_id = $1 AND NOT EXISTS ( SELECT 1 FROM entity_history h " ++
      "WHERE h.entity_id = e.entity_id AND h.file_id = e.file_id " ++
      "AND h.status = 'completed' ) " ++
      "ON CONFLICT (entity_id, file_id, sync_id) DO NOTHING",
    [ofId base, ofId rerun]⟩

def history (sync : SyncId) : Statement :=
  select EntityHistory.columns "entity_history" "sync_id = $1 ORDER BY file_id, entity_id"
    [ofId sync]

/-- What a call sends, one statement after another: a single one but for the insertion of
entities. -/
def ofCall : StoreCall → List Statement
  | .findSync id => [findSync id]
  | .insertSync s => [insertSync s]
  | .tryCloseSync id => [tryCloseSync id]
  | .latestRerun base => [latestRerun base]
  | .decrementTotalFiles id count => [decrementTotalFiles id (Int64.ofNat count)]
  | .findFile id => [findFile id]
  | .insertFile f => [insertFile f]
  | .tryCloseFile id => [tryCloseFile id]
  | .deleteEmptyFiles sync => [deleteEmptyFiles sync]
  | .reopenFiles sync => [reopenFiles sync]
  | .findEntity id file => [findEntity id file]
  | .insertEntities es => es.map insertEntity
  | .patchEntity id file p => [patchEntity id file p]
  | .markCompleted ids => [markCompleted ids]
  | .findFiles ids statuses => [findFiles ids statuses]
  | .resetEntities sync => [resetEntities sync]
  | .findChangeset id => [findChangeset id]
  | .insertChangeset c => [insertChangeset c]
  | .archiveEntities base rerun => [archiveEntities base rerun]
  | .history sync => [history sync]

def migrate : Statement := ⟨Schema.script, []⟩

def ping : Statement := ⟨"SELECT 1", []⟩

end Statement

end SyncCascade.Postgres
