import SyncCascade.Failure

/-!
# Statuses and kinds

The small vocabularies of the sync hierarchy. Each value has one name, which is how it is stored,
shown and read.
-/

namespace SyncCascade

/-- A finite vocabulary whose values have names. -/
class Named (α : Type) where
  label : String
  all : List α
  name : α → String
  find_name : ∀ a : α, all.find? (fun b => name b == name a) = some a

namespace Named

variable {α : Type} [Named α]

def parse? (s : String) : Option α := all.find? fun a => name a == s

def parse (s : String) : Except Failure α :=
  match parse? s with
  | some a => .ok a
  | none => .error (.invalidPayload ("unknown " ++ label α ++ " '" ++ s ++ "'"))

theorem parse?_name (a : α) : parse? (name a) = some a := find_name a

end Named

inductive SyncStatus where
  | inProgress
  | completed
  | failed
deriving DecidableEq, Repr, Inhabited

namespace SyncStatus

def name : SyncStatus → String
  | inProgress => "in_progress"
  | completed => "completed"
  | failed => "failed"

instance : Named SyncStatus where
  label := "SyncStatus"
  all := [inProgress, completed, failed]
  name := name
  find_name a := by cases a <;> decide

/-- A failed sync may still close: that is how a rerun resolves its base. -/
def isClosable : SyncStatus → Bool
  | inProgress | failed => true
  | completed => false

end SyncStatus

inductive FileStatus where
  | inProgress
  | completed
  | failed
deriving DecidableEq, Repr, Inhabited

namespace FileStatus

def name : FileStatus → String
  | inProgress => "in_progress"
  | completed => "completed"
  | failed => "failed"

instance : Named FileStatus where
  label := "FileStatus"
  all := [inProgress, completed, failed]
  name := name
  find_name a := by cases a <;> decide

end FileStatus

inductive EntityStatus where
  | inProgress
  | completed
  | notSynced
  | failed
  | inRerun
deriving DecidableEq, Repr, Inhabited

namespace EntityStatus

def name : EntityStatus → String
  | inProgress => "in_progress"
  | completed => "completed"
  | notSynced => "not_synced"
  | failed => "failed"
  | inRerun => "in_rerun"

instance : Named EntityStatus where
  label := "EntityStatus"
  all := [inProgress, completed, notSynced, failed, inRerun]
  name := name
  find_name a := by cases a <;> decide

def resolved : List EntityStatus := [completed, notSynced]

def rerunnable : List EntityStatus := [inProgress, notSynced, failed]

def isResolved (s : EntityStatus) : Bool := resolved.contains s

def isRerunnable (s : EntityStatus) : Bool := rerunnable.contains s

end EntityStatus

inductive EntityAction where
  | create
  | modify
  | delete
deriving DecidableEq, Repr, Inhabited

namespace EntityAction

def name : EntityAction → String
  | create => "create"
  | modify => "modify"
  | delete => "delete"

instance : Named EntityAction where
  label := "EntityAction"
  all := [create, modify, delete]
  name := name
  find_name a := by cases a <;> decide

end EntityAction

inductive GeometryType where
  | point
  | line
  | polygon
deriving DecidableEq, Repr, Inhabited

namespace GeometryType

def name : GeometryType → String
  | point => "point"
  | line => "line"
  | polygon => "polygon"

instance : Named GeometryType where
  label := "GeometryType"
  all := [point, line, polygon]
  name := name
  find_name a := by cases a <;> decide

end GeometryType

end SyncCascade
