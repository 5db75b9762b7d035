import SyncCascade.RowJson

/-!
# Values and rows of Postgres

A statement carries values as its parameters, and a result has rows of them under the names of its
columns. Of a moment only the microseconds are transmitted.
-/

namespace SyncCascade.Postgres

inductive Value where
  | null
  | uuid (u : Uuid)
  | text (s : String)
  | int4 (n : Int32)
  | int8 (n : Int64)
  | bool (b : Bool)
  | moment (t : Timestamp)
  | json (j : Json)
  | uuids (us : List Uuid)
  | texts (ss : List String)
  /-- A value of a type that no row here has. -/
  | other (j : Json)
deriving DecidableEq, Repr

namespace Value

def ofId {α : Type} [Identifier α] (a : α) : Value := uuid (Identifier.uuid a)

def ofName {α : Type} [Named α] (a : α) : Value := text (Named.name a)

def ofTimestamp (t : Timestamp) : Value := moment t

def ofOption {α : Type} (f : α → Value) : Option α → Value
  | none => null
  | some a => f a

def uuid? : Value → Option Uuid
  | uuid u => some u
  | _ => none

def id? {α : Type} [Identifier α] (v : Value) : Option α := v.uuid?.map Identifier.ofUuid

def text? : Value → Option String
  | text s => some s
  | _ => none

def int4? : Value → Option Int32
  | int4 n => some n
  | _ => none

def int8? : Value → Option Int64
  | int8 n => some n
  | _ => none

def bool? : Value → Option Bool
  | bool b => some b
  | _ => none

def moment? : Value → Option Timestamp
  | moment t => some t
  | _ => none

def json? : Value → Option Json
  | json j => some j
  | _ => none

def nullable {α : Type} (read : Value → Option α) : Value → Option (Option α)
  | null => some none
  | v => (read v).map some

/-- The value as it is transmitted: a moment is cut to microseconds. -/
def sent : Value → Value
  | moment t => moment t.toMicroseconds
  | v => v

def toJson : Value → Json
  | null => .null
  | uuid u => .string u.text
  | text s => .string s
  | int4 n => .int n.toInt
  | int8 n => .int n.toInt
  | bool b => .bool b
  | moment t => .string t.text
  | json j => j
  | uuids us => .array (us.map fun u => .string u.text)
  | texts ss => .array (ss.map .string)
  | other j => j

end Value

/-- The values of a row under the names of their columns. -/
abbrev Row := List (String × Value)

namespace Row

variable {α : Type}

/-- The value of the column; of two columns with one name the later counts. -/
def value? (row : Row) (column : String) : Option Value := row.reverse.lookup column

/-- The value of the column, if the row has the column and `read` understands its value. -/
def get? (row : Row) (column : String) (read : Value → Option α) : Option α :=
  (row.value? column).bind read

def unreadable (column : String) : Failure :=
  .storage ("failed to read column " ++ column ++ ": no value of its type")

def get (row : Row) (column : String) (read : Value → Option α) : Except Failure α :=
  match row.get? column read with
  | some a => .ok a
  | none => .error (unreadable column)

/-- A value of a vocabulary, kept by its name. -/
def getNamed [Named α] (row : Row) (column : String) : Except Failure α :=
  match row.get column Value.text? with
  | .error f => .error f
  | .ok s =>
    match Named.parse s with
    | .ok a => .ok a
    | .error f => .error (.storage ("bad value in column " ++ column ++ ": " ++ f.message))

end Row

end SyncCascade.Postgres
