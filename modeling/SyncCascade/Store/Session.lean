import SyncCascade.Store.Database
import SyncCascade.Store.Storage

/-!
# Units of work in memory

A unit of work changes a copy of the database, which replaces the database when it is committed.
Commits can be made to fail.
-/

namespace SyncCascade

structure Session where
  committed : Database
  /-- The copy of the unit of work in progress. -/
  working : Option Database
  /-- How many of the next commits fail. -/
  failingCommits : Nat
deriving DecidableEq

namespace Session

def ofDatabase (db : Database) : Session := ⟨db, none, 0⟩

def visible (s : Session) : Database := s.working.getD s.committed

def start (s : Session) : Session := { s with working := some s.committed }

def call (now : Timestamp) (c : StoreCall) (s : Session) : Except Failure c.Reply × Session :=
  match s.visible.apply now c with
  | .ok (reply, db) => (.ok reply, { s with working := some db })
  | .error f => (.error f, s)

def commitFailure : Failure := .transaction "could not serialize access due to concurrent update"

def commit (s : Session) : Except Failure Unit × Session :=
  match s.failingCommits with
  | 0 => (.ok (), ⟨s.visible, none, 0⟩)
  | n + 1 => (.error commitFailure, ⟨s.committed, none, n⟩)

def rollback (s : Session) : Session := { s with working := none }

/-- The storage that keeps everything in memory. -/
def storage : Storage Session where
  start _ _ s := (.ok (), s.start)
  call clock c s := s.call clock.wall c
  commit _ s := s.commit
  rollback := rollback
  ping s := (.ok (), s)
  release s := s
  announcesStart := false
  announces _ := false

end Session

end SyncCascade
