/-!
# The schema

The tables of the sync hierarchy. The statements can be run again on a schema that is there already.
-/

namespace SyncCascade.Postgres.Schema

def heading : List String := [
  "-- Sync completion tracking schema.",
  "-- Statuses are stored as TEXT and checked against the values the tracker writes."]

def syncTable : List String := [
  "CREATE TABLE IF NOT EXISTS sync (",
  "    id              UUID PRIMARY KEY,",
  "    layer_id        INTEGER NOT NULL,",
  "    geometry_type   TEXT NOT NULL CHECK (geometry_type IN ('point', 'line', 'polygon')),",
  "    dump_date       TIMESTAMPTZ NOT NULL,",
  "    start_date      TIMESTAMPTZ NOT NULL,",
  "    end_date        TIMESTAMPTZ,",
  "    status          TEXT NOT NULL CHECK (status IN ('in_progress', 'completed', 'failed')),",
  "    total_files     INTEGER CHECK (total_files >= 0),",
  "    is_full         BOOLEAN NOT NULL DEFAULT FALSE,",
  "    base_sync_id    UUID REFERENCES sync (id) ON DELETE CASCADE,",
  "    run_number      INTEGER NOT NULL DEFAULT 0 CHECK (run_number >= 0),",
  "    metadata        JSONB,",
  "    CHECK ((base_sync_id IS NULL) = (run_number = 0))",
  ");"]

def syncIndexes : List String := [
  "CREATE UNIQUE INDEX IF NOT EXISTS sync_base_run_number_idx",
  "    ON sync (base_sync_id, run_number) WHERE base_sync_id IS NOT NULL;",
  "CREATE INDEX IF NOT EXISTS sync_base_status_idx ON sync (base_sync_id, status);"]

def fileTable : List String := [
  "CREATE TABLE IF NOT EXISTS file (",
  "    file_id         UUID PRIMARY KEY,",
  "    sync_id         UUID NOT NULL REFERENCES sync (id) ON DELETE CASCADE,",
  "    status          TEXT NOT NULL CHECK (status IN ('in_progress', 'completed', 'failed')),",
  "    total_entities  INTEGER CHECK (total_entities >= 0),",
  "    start_date      TIMESTAMPTZ NOT NULL,",
  "    end_date        TIMESTAMPTZ",
  ");"]

def fileIndexes : List String := [
  "CREATE INDEX IF NOT EXISTS file_sync_status_idx ON file (sync_id, status);"]

def changesetTable : List String := [
  "CREATE TABLE IF NOT EXISTS changeset (",
  "    changeset_id    UUID PRIMARY KEY,",
  "    osm_id          BIGINT",
  ");"]

def entityTable : List String := [
  "CREATE TABLE IF NOT EXISTS entity (",
  "    entity_id       TEXT NOT NULL,",
  "    file_id         UUID NOT NULL REFERENCES file (file_id) ON DELETE CASCADE,",
  "    changeset_id    UUID REFERENCES changeset (changeset_id) ON DELETE CASCADE,",
  "    status          TEXT NOT NULL",
  "        CHECK (status IN ('in_progress', 'completed', 'not_synced', 'failed', 'in_rerun')),",
  "    action          TEXT NOT NULL CHECK (action IN ('create', 'modify', 'delete')),",
  "    fail_reason     TEXT,",
  "    PRIMARY KEY (entity_id, file_id)",
  ");"]

def entityIndexes : List String := [
  "CREATE INDEX IF NOT EXISTS entity_file_status_idx ON entity (file_id, status);",
  "CREATE INDEX IF NOT EXISTS entity_changeset_file_idx ON entity (changeset_id, file_id);"]

def historyTable : List String := [
  "CREATE TABLE IF NOT EXISTS entity_history (",
  "    entity_id       TEXT NOT NULL,",
  "    file_id         UUID NOT NULL REFERENCES file (file_id) ON DELETE CASCADE,",
  "    -- Rows are archived before the rerun they belong to is inserted.",
  "    sync_id         UUID NOT NULL REFERENCES sync (id) ON DELETE CASCADE",
  "                        DEFERRABLE INITIALLY DEFERRED,",
  "    base_sync_id    UUID REFERENCES sync (id) ON DELETE CASCADE,",
  "    changeset_id    UUID,",
  "    status          TEXT NOT NULL,",
  "    action          TEXT NOT NULL,",
  "    fail_reason     TEXT,",
  "    PRIMARY KEY (entity_id, file_id, sync_id)",
  ");"]

def historyIndexes : List String := [
  "CREATE INDEX IF NOT EXISTS entity_history_entity_status_idx",
  "    ON entity_history (entity_id, file_id, status);"]

/-- All statements, sent as one. -/
def script : String :=
  "\n\n".intercalate (([heading, syncTable, syncIndexes, fileTable, fileIndexes, changesetTable,
    entityTable, entityIndexes, historyTable, historyIndexes].map ("\n".intercalate ·))) ++ "\n"

end SyncCascade.Postgres.Schema
