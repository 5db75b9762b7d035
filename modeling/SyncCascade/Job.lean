import SyncCascade.Chunk
import SyncCascade.Hex
import SyncCascade.Neighbours
import SyncCascade.Sha256
import SyncCascade.Status

/-!
# Jobs

Work is queued on three lanes, one for each kind of job. A job names one target, or it is a batch
whose members are sorted and distinct and whose identifier is their hash, so that one set of members
always makes one job.
-/

namespace SyncCascade

inductive Lane where
  | changesets
  | files
  | syncs
deriving DecidableEq, Repr, Inhabited

inductive JobKind where
  | changesetClosure
  | fileClosure
  | syncClosure
deriving DecidableEq, Repr, Inhabited

namespace Lane

def name : Lane → String
  | changesets => "changesets"
  | files => "files"
  | syncs => "syncs"

instance : Named Lane where
  label := "lane"
  all := [changesets, files, syncs]
  name := name
  find_name a := by cases a <;> decide

def all : List Lane := Named.all

def jobKind : Lane → JobKind
  | changesets => .changesetClosure
  | files => .fileClosure
  | syncs => .syncClosure

end Lane

namespace JobKind

def name : JobKind → String
  | changesetClosure => "changeset_closure"
  | fileClosure => "file_closure"
  | syncClosure => "sync_closure"

instance : Named JobKind where
  label := "job kind"
  all := [changesetClosure, fileClosure, syncClosure]
  name := name
  find_name a := by cases a <;> decide

def lane : JobKind → Lane
  | changesetClosure => .changesets
  | fileClosure => .files
  | syncClosure => .syncs

end JobKind

namespace Batch

/-- What is hashed: the bytes of every member, each followed by a zero byte. -/
def encoding (members : List String) : List UInt8 :=
  members.flatMap fun m => m.toUTF8.toList ++ [0]

def jobId (members : List String) : String :=
  String.ofList ((Sha256.digest (encoding members)).flatMap fun b => Hex.digits 2 b.toNat)

/-- Sorted by code points, each once. -/
def normalize (ids : List String) : List String :=
  dropRepeats (ids.mergeSort fun a b => decide (a ≤ b))

end Batch

/-- What travels through a broker. The counters are plain words, which only count up. -/
structure JobPayload where
  /-- The target, or the hash of a batch. -/
  id : String
  kind : JobKind
  batchIds : Option (List String)
  /-- How often the handler met a transaction failure. -/
  transactionFailures : UInt32
  /-- How often the job was claimed and not acknowledged. -/
  stalled : UInt32
  /-- How many pushes were coalesced into the job. -/
  dedupCount : UInt32
deriving DecidableEq, Repr

namespace JobPayload

def single (kind : JobKind) (id : String) : JobPayload := ⟨id, kind, none, 0, 0, 0⟩

def batch (kind : JobKind) (members : List String) : JobPayload :=
  ⟨Batch.jobId members, kind, some members, 0, 0, 0⟩

def memberIds (p : JobPayload) : List String := p.batchIds.getD [p.id]

end JobPayload

end SyncCascade
