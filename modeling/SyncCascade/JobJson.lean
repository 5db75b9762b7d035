import SyncCascade.Failure
import SyncCascade.Job
import SyncCascade.Json.Writer
import SyncCascade.RowJson

/-!
# Payloads as JSON text

Brokers that outlive the process keep a payload as JSON. The members of a job that is no batch are
left out; counters that are left out are zero.
-/

namespace SyncCascade.JobPayload

open Json

def ofUInt32 (n : UInt32) : Json := .int n.toNat

def toJson (p : JobPayload) : Json := .object (
  [("id", .string p.id), ("kind", ofName p.kind)] ++
  (match p.batchIds with
    | none => []
    | some ids => [("batch_ids", ofStrings ids)]) ++
  [("transaction_failures", ofUInt32 p.transactionFailures), ("stalled", ofUInt32 p.stalled),
    ("dedup_count", ofUInt32 p.dedupCount)])

def text (p : JobPayload) : String := p.toJson.text

def fields : List String :=
  ["id", "kind", "batch_ids", "transaction_failures", "stalled", "dedup_count"]

def decoder : Decoder JobPayload := fun depth n => do
  let f ← Fields.openRecord fields false depth n
  let id ← f.required "id" Decode.string
  let kind ← f.required "kind" Decode.named
  let batchIds ← f.defaulted "batch_ids" (Decode.option (Decode.list Decode.string)) none
  let transactionFailures ← f.defaulted "transaction_failures" Decode.uint32 0
  let stalled ← f.defaulted "stalled" Decode.uint32 0
  let dedupCount ← f.defaulted "dedup_count" Decode.uint32 0
  f.close ⟨id, kind, batchIds, transactionFailures, stalled, dedupCount⟩

def parse? (s : String) : Option JobPayload := (decode decoder s.toList).toOption

def parse (s : String) : Except Failure JobPayload :=
  match parse? s with
  | some p => .ok p
  | none => .error (.invalidPayload "no job in this text")

end SyncCascade.JobPayload
