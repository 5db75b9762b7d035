import SyncCascade.Identifier
import SyncCascade.Json
import SyncCascade.Status
import SyncCascade.Timestamp

/-!
# Rows of the sync hierarchy

A sync owns files, a file owns entities, and an entity may belong to a changeset. A rerun is a sync
that names its base. A file closes when as many of its entities are resolved as it declares, a sync
when as many of its files are completed as it declares. The history keeps the state an entity had
when a rerun reset it.
-/

namespace SyncCascade

/-- One synchronization of a layer and a kind of geometry. -/
structure SyncRun where
  id : SyncId
  layerId : Int32
  geometryType : GeometryType
  dumpDate : Timestamp
  startDate : Timestamp
  endDate : Option Timestamp
  status : SyncStatus
  /-- A sync without a declared total does not close by itself. -/
  totalFiles : Option Int32
  isFull : Bool
  baseSyncId : Option SyncId
  /-- 0 for a root; the reruns of a base count from 1. -/
  runNumber : Int32
  metadata : Option Json
deriving DecidableEq, Repr

def SyncRun.isRerun (s : SyncRun) : Bool := s.baseSyncId.isSome

structure File where
  fileId : FileId
  syncId : SyncId
  status : FileStatus
  /-- A file without a declared total never closes. -/
  totalEntities : Option Int32
  startDate : Timestamp
  endDate : Option Timestamp
deriving DecidableEq, Repr

structure Entity where
  entityId : EntityId
  fileId : FileId
  changesetId : Option ChangesetId
  status : EntityStatus
  action : EntityAction
  failReason : Option String
deriving DecidableEq, Repr

def Entity.key (e : Entity) : EntityKey := ⟨e.fileId, e.entityId⟩

/-- A change of an entity; what is `none` stays as it is. -/
structure EntityPatch where
  status : Option EntityStatus
  changesetId : Option ChangesetId
  action : Option EntityAction
  failReason : Option String
deriving DecidableEq, Repr, Inhabited

namespace EntityPatch

def ofStatus (s : EntityStatus) : EntityPatch := ⟨some s, none, none, none⟩

def ofChangeset (c : ChangesetId) : EntityPatch := ⟨none, some c, none, none⟩

def apply (p : EntityPatch) (e : Entity) : Entity :=
  { e with
    status := p.status.getD e.status
    changesetId := p.changesetId.or e.changesetId
    action := p.action.getD e.action
    failReason := p.failReason.or e.failReason }

end EntityPatch

structure Changeset where
  changesetId : ChangesetId
  /-- Assigned when the changeset has been applied. -/
  osmId : Option Int64
deriving DecidableEq, Repr

/-- The state of an entity as a rerun found it. -/
structure EntityHistory where
  entityId : EntityId
  fileId : FileId
  /-- The rerun to which the row is attributed. -/
  syncId : SyncId
  baseSyncId : Option SyncId
  changesetId : Option ChangesetId
  status : EntityStatus
  action : EntityAction
  failReason : Option String
deriving DecidableEq, Repr

def EntityHistory.archive (e : Entity) (rerun base : SyncId) : EntityHistory where
  entityId := e.entityId
  fileId := e.fileId
  syncId := rerun
  baseSyncId := some base
  changesetId := e.changesetId
  status := e.status
  action := e.action
  failReason := e.failReason

end SyncCascade
