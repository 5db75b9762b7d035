import SyncCascade.Clock
import SyncCascade.Config
import SyncCascade.Store.Call

/-!
# Storages

A storage answers the calls of one unit of work at a time. Nothing a unit of work did lasts unless it
is committed; a failed commit leaves nothing, like `rollback`.
-/

namespace SyncCascade

/-- A storage whose state, with everything at its far end, is a `σ`. -/
structure Storage (σ : Type) where
  start : Clock → IsolationLevel → σ → Except Failure Unit × σ
  call : Clock → (c : StoreCall) → σ → Except Failure c.Reply × σ
  commit : Clock → σ → Except Failure Unit × σ
  rollback : σ → σ
  /-- Whether the storage can be reached. -/
  ping : σ → Except Failure Unit × σ
  /-- Lets go of what the storage holds; nothing can be started afterwards. -/
  release : σ → σ
  /-- Whether a failure to start is reported in the journal. -/
  announcesStart : Bool
  /-- Whether a failure of the call is reported in the journal. -/
  announces : StoreCall → Bool

/-- The storage as a part of something larger. -/
def Storage.within {σ τ : Type} (S : Storage σ) (get : τ → σ) (put : σ → τ → τ) : Storage τ where
  start clock level t :=
    match S.start clock level (get t) with
    | (r, s) => (r, put s t)
  call clock c t :=
    match S.call clock c (get t) with
    | (r, s) => (r, put s t)
  commit clock t :=
    match S.commit clock (get t) with
    | (r, s) => (r, put s t)
  rollback t := put (S.rollback (get t)) t
  ping t :=
    match S.ping (get t) with
    | (r, s) => (r, put s t)
  release t := put (S.release (get t)) t
  announcesStart := S.announcesStart
  announces := S.announces

end SyncCascade
