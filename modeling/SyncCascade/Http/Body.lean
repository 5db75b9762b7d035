import SyncCascade.RowJson

/-!
# Bodies of requests
-/

namespace SyncCascade.Http

open Json

structure ClosureBody where
  ids : List String
deriving DecidableEq, Repr

namespace ClosureBody

def decoder : Decoder ClosureBody := fun depth n => do
  let f ← Fields.openRecord ["ids"] false depth n
  let ids ← f.required "ids" (Decode.list Decode.string)
  f.close ⟨ids⟩

end ClosureBody

/-- Asks for a rerun; what is left out is chosen by the service. -/
structure RerunBody where
  id : Option SyncId
  startDate : Option Timestamp
  metadata : Option Json
deriving DecidableEq, Repr

namespace RerunBody

def empty : RerunBody := ⟨none, none, none⟩

def decoder : Decoder RerunBody := fun depth n => do
  let f ← Fields.openRecord ["id", "start_date", "metadata"] false depth n
  let id ← f.optional "id" Decode.identifier
  let startDate ← f.optional "start_date" Decode.timestamp
  let metadata ← f.optional "metadata" Decode.json
  f.close ⟨id, startDate, metadata⟩

def toJson (b : RerunBody) : Json := .object [
  ("id", ofOption ofUuid b.id), ("metadata", b.metadata.getD .null),
  ("start_date", ofOption ofTimestamp b.startDate)]

def isBlank (c : Char) : Bool := c = ' ' || c = '\t' || c = '\n' || c = '\r' || c.toNat = 12

/-- A blank body leaves everything out. -/
def parse (text : String) : Except Failure RerunBody :=
  if text.toList.all isBlank then .ok empty
  else
    match decode decoder text.toList with
    | .ok b => .ok b
    | .error _ => .error (.invalidPayload "no rerun request in this text")

end RerunBody

end SyncCascade.Http
