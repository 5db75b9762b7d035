import SyncCascade.Json.Decoder
import SyncCascade.Row
import SyncCascade.Timestamp.Rfc3339

/-!
# Rows as JSON objects

A row is an object whose members are its columns; identifiers, statuses and moments are strings. A
column that may be null may also be left out.
-/

namespace SyncCascade

open Json

namespace Json

def ofUuid {α : Type} [Identifier α] (a : α) : Json := .string (Identifier.text a)

def ofName {α : Type} [Named α] (a : α) : Json := .string (Named.name a)

def ofTimestamp (t : Timestamp) : Json := .string t.text

def ofInt32 (n : Int32) : Json := .int n.toInt

namespace Decode

def uuid : Decoder Uuid := text Uuid.parse?

def identifier {α : Type} [Identifier α] : Decoder α := text Identifier.parse?

def named {α : Type} [Named α] : Decoder α := variant Named.parse?

def timestamp : Decoder Timestamp := text Timestamp.parse?

def entityId : Decoder EntityId := fun depth n => (string depth n).map EntityId.mk

end Decode

end Json

namespace SyncRun

def toJson (s : SyncRun) : Json := .object [
  ("base_sync_id", ofOption ofUuid s.baseSyncId),
  ("dump_date", ofTimestamp s.dumpDate),
  ("end_date", ofOption ofTimestamp s.endDate),
  ("geometry_type", ofName s.geometryType),
  ("id", ofUuid s.id),
  ("is_full", .bool s.isFull),
  ("layer_id", ofInt32 s.layerId),
  ("metadata", s.metadata.getD .null),
  ("run_number", ofInt32 s.runNumber),
  ("start_date", ofTimestamp s.startDate),
  ("status", ofName s.status),
  ("total_files", ofOption ofInt32 s.totalFiles)]

def columns : List String := ["id", "layer_id", "geometry_type", "dump_date", "start_date",
  "end_date", "status", "total_files", "is_full", "base_sync_id", "run_number", "metadata"]

def decoder : Decoder SyncRun := fun depth n => do
  let f ← Fields.openRecord columns false depth n
  let id ← f.required "id" Decode.identifier
  let layerId ← f.required "layer_id" Decode.int32
  let geometryType ← f.required "geometry_type" Decode.named
  let dumpDate ← f.required "dump_date" Decode.timestamp
  let startDate ← f.required "start_date" Decode.timestamp
  let endDate ← f.optional "end_date" Decode.timestamp
  let status ← f.required "status" Decode.named
  let totalFiles ← f.optional "total_files" Decode.int32
  let isFull ← f.required "is_full" Decode.bool
  let baseSyncId ← f.optional "base_sync_id" Decode.identifier
  let runNumber ← f.required "run_number" Decode.int32
  let metadata ← f.optional "metadata" Decode.json
  f.close ⟨id, layerId, geometryType, dumpDate, startDate, endDate, status, totalFiles, isFull,
    baseSyncId, runNumber, metadata⟩

end SyncRun

namespace File

def toJson (f : File) : Json := .object [
  ("end_date", ofOption ofTimestamp f.endDate),
  ("file_id", ofUuid f.fileId),
  ("start_date", ofTimestamp f.startDate),
  ("status", ofName f.status),
  ("sync_id", ofUuid f.syncId),
  ("total_entities", ofOption ofInt32 f.totalEntities)]

def columns : List String :=
  ["file_id", "sync_id", "status", "total_entities", "start_date", "end_date"]

def decoder : Decoder File := fun depth n => do
  let f ← Fields.openRecord columns false depth n
  let fileId ← f.required "file_id" Decode.identifier
  let syncId ← f.required "sync_id" Decode.identifier
  let status ← f.required "status" Decode.named
  let totalEntities ← f.optional "total_entities" Decode.int32
  let startDate ← f.required "start_date" Decode.timestamp
  let endDate ← f.optional "end_date" Decode.timestamp
  f.close ⟨fileId, syncId, status, totalEntities, startDate, endDate⟩

end File

namespace Entity

def toJson (e : Entity) : Json := .object [
  ("action", ofName e.action),
  ("changeset_id", ofOption ofUuid e.changesetId),
  ("entity_id", .string e.entityId.text),
  ("fail_reason", ofOption .string e.failReason),
  ("file_id", ofUuid e.fileId),
  ("status", ofName e.status)]

def columns : List String :=
  ["entity_id", "file_id", "changeset_id", "status", "action", "fail_reason"]

def decoder : Decoder Entity := fun depth n => do
  let f ← Fields.openRecord columns false depth n
  let entityId ← f.required "entity_id" Decode.entityId
  let fileId ← f.required "file_id" Decode.identifier
  let changesetId ← f.optional "changeset_id" Decode.identifier
  let status ← f.required "status" Decode.named
  let action ← f.required "action" Decode.named
  let failReason ← f.optional "fail_reason" Decode.string
  f.close ⟨entityId, fileId, changesetId, status, action, failReason⟩

end Entity

namespace EntityPatch

def toJson (p : EntityPatch) : Json := .object [
  ("action", ofOption ofName p.action),
  ("changeset_id", ofOption ofUuid p.changesetId),
  ("fail_reason", ofOption .string p.failReason),
  ("status", ofOption ofName p.status)]

def columns : List String := ["status", "changeset_id", "action", "fail_reason"]

def decoder : Decoder EntityPatch := fun depth n => do
  let f ← Fields.openRecord columns false depth n
  let status ← f.optional "status" Decode.named
  let changesetId ← f.optional "changeset_id" Decode.identifier
  let action ← f.optional "action" Decode.named
  let failReason ← f.optional "fail_reason" Decode.string
  f.close ⟨status, changesetId, action, failReason⟩

end EntityPatch

namespace Changeset

def toJson (c : Changeset) : Json := .object [
  ("changeset_id", ofUuid c.changesetId),
  ("osm_id", ofOption (fun n : Int64 => .int n.toInt) c.osmId)]

def columns : List String := ["changeset_id", "osm_id"]

def decoder : Decoder Changeset := fun depth n => do
  let f ← Fields.openRecord columns false depth n
  let changesetId ← f.required "changeset_id" Decode.identifier
  let osmId ← f.optional "osm_id" Decode.int64
  f.close ⟨changesetId, osmId⟩

end Changeset

namespace EntityHistory

def toJson (h : EntityHistory) : Json := .object [
  ("action", ofName h.action),
  ("base_sync_id", ofOption ofUuid h.baseSyncId),
  ("changeset_id", ofOption ofUuid h.changesetId),
  ("entity_id", .string h.entityId.text),
  ("fail_reason", ofOption .string h.failReason),
  ("file_id", ofUuid h.fileId),
  ("status", ofName h.status),
  ("sync_id", ofUuid h.syncId)]

def columns : List String := ["entity_id", "file_id", "sync_id", "base_sync_id", "changeset_id",
  "status", "action", "fail_reason"]

def decoder : Decoder EntityHistory := fun depth n => do
  let f ← Fields.openRecord columns false depth n
  let entityId ← f.required "entity_id" Decode.entityId
  let fileId ← f.required "file_id" Decode.identifier
  let syncId ← f.required "sync_id" Decode.identifier
  let baseSyncId ← f.optional "base_sync_id" Decode.identifier
  let changesetId ← f.optional "changeset_id" Decode.identifier
  let status ← f.required "status" Decode.named
  let action ← f.required "action" Decode.named
  let failReason ← f.optional "fail_reason" Decode.string
  f.close ⟨entityId, fileId, syncId, baseSyncId, changesetId, status, action, failReason⟩

end EntityHistory

end SyncCascade
