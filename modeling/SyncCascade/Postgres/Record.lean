import SyncCascade.Postgres.Value

/-!
# Rows of the sync hierarchy as rows of Postgres

The values of a row are written in the order of its columns, and read by the names of the columns.
Identifiers are uuids, statuses texts, metadata json.
-/

namespace SyncCascade

open Postgres Postgres.Value

namespace SyncRun

def values (s : SyncRun) : List Value := [
  ofId s.id,
  int4 s.layerId,
  ofName s.geometryType,
  ofTimestamp s.dumpDate,
  ofTimestamp s.startDate,
  ofOption ofTimestamp s.endDate,
  ofName s.status,
  ofOption int4 s.totalFiles,
  bool s.isFull,
  ofOption ofId s.baseSyncId,
  int4 s.runNumber,
  ofOption json s.metadata]

def ofColumns (r : Row) : Except Failure SyncRun := do
  let id ← r.get "id" id?
  let layerId ← r.get "layer_id" int4?
  let geometryType ← r.getNamed "geometry_type"
  let dumpDate ← r.get "dump_date" moment?
  let startDate ← r.get "start_date" moment?
  let endDate ← r.get "end_date" (nullable moment?)
  let status ← r.getNamed "status"
  let totalFiles ← r.get "total_files" (nullable int4?)
  let isFull ← r.get "is_full" bool?
  let baseSyncId ← r.get "base_sync_id" (nullable id?)
  let runNumber ← r.get "run_number" int4?
  let metadata ← r.get "metadata" (nullable json?)
  pure ⟨id, layerId, geometryType, dumpDate, startDate, endDate, status, totalFiles, isFull,
    baseSyncId, runNumber, metadata⟩

end SyncRun

namespace File

def values (f : File) : List Value := [
  ofId f.fileId,
  ofId f.syncId,
  ofName f.status,
  ofOption int4 f.totalEntities,
  ofTimestamp f.startDate,
  ofOption ofTimestamp f.endDate]

def ofColumns (r : Row) : Except Failure File := do
  let fileId ← r.get "file_id" id?
  let syncId ← r.get "sync_id" id?
  let status ← r.getNamed "status"
  let totalEntities ← r.get "total_entities" (nullable int4?)
  let startDate ← r.get "start_date" moment?
  let endDate ← r.get "end_date" (nullable moment?)
  pure ⟨fileId, syncId, status, totalEntities, startDate, endDate⟩

end File

namespace Entity

def values (e : Entity) : List Value := [
  text e.entityId.text,
  ofId e.fileId,
  ofOption ofId e.changesetId,
  ofName e.status,
  ofName e.action,
  ofOption text e.failReason]

def ofColumns (r : Row) : Except Failure Entity := do
  let entityId ← r.get "entity_id" text?
  let fileId ← r.get "file_id" id?
  let changesetId ← r.get "changeset_id" (nullable id?)
  let status ← r.getNamed "status"
  let action ← r.getNamed "action"
  let failReason ← r.get "fail_reason" (nullable text?)
  pure ⟨⟨entityId⟩, fileId, changesetId, status, action, failReason⟩

end Entity

namespace Changeset

def values (c : Changeset) : List Value := [ofId c.changesetId, ofOption int8 c.osmId]

/-- Nothing, if a column cannot be read. -/
def ofColumns? (r : Row) : Option Changeset := do
  let changesetId ← r.get? "changeset_id" id?
  let osmId ← r.get? "osm_id" (nullable int8?)
  some ⟨changesetId, osmId⟩

end Changeset

namespace EntityHistory

def ofColumns (r : Row) : Except Failure EntityHistory := do
  let entityId ← r.get "entity_id" text?
  let fileId ← r.get "file_id" id?
  let syncId ← r.get "sync_id" id?
  let baseSyncId ← r.get "base_sync_id" (nullable id?)
  let changesetId ← r.get "changeset_id" (nullable id?)
  let status ← r.getNamed "status"
  let action ← r.getNamed "action"
  let failReason ← r.get "fail_reason" (nullable text?)
  pure ⟨⟨entityId⟩, fileId, syncId, baseSyncId, changesetId, status, action, failReason⟩

end EntityHistory

end SyncCascade
