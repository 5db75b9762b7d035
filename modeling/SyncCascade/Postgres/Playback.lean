import SyncCascade.Postgres.Client

/-!
# A server that plays back replies

It writes down what it is sent and takes its replies from lists, one for the start of a transaction,
one for its isolation level, one for its commit and one for everything else. When a list runs out it
succeeds without rows.
-/

namespace SyncCascade.Postgres

/-- A value of a type by which rows here are kept. -/
def Value.ofJson? (type : String) (j : Json) : Option Value :=
  match type, j with
  | _, .null => some .null
  | "jsonb", j => some (.json j)
  | "uuid", .string s => (Uuid.parse? s).map .uuid
  | "text", .string s => some (.text s)
  | "timestamptz", .string s => (Timestamp.parse? s).map fun t => (ofTimestamp t).sent
  | "int4", .int n => some (.int4 (Int32.ofInt n))
  | "int8", .int n => some (.int8 (Int64.ofInt n))
  | "bool", .bool b => some (.bool b)
  | _, _ => none

def Value.ofJson (type : String) (j : Json) : Value := (ofJson? type j).getD (.other j)

def columnOfJson : Json → String × String
  | .array [.string name, .string type] => (name, type)
  | _ => ("", "")

def rowOfJson (columns : List (String × String)) : Json → Row
  | .array values => List.zipWith (fun c v => (c.1, .ofJson c.2 v)) columns values
  | _ => []

def itemsOf : Option Json → List Json
  | some (.array items) => items
  | _ => []

/-- A reply is an error under a code, the end of the connection, rows or a count of rows; anything
else is success. -/
def Reply.ofJson (j : Json) : Reply :=
  match j.member? "drop", j.member? "error", j.member? "columns", j.member? "affected" with
  | some (.bool true), _, _, _ => .dropped
  | _, some (.string code), _, _ =>
    match j.member? "message" with
    | some (.string message) => .refused code message
    | _ => .refused code ""
  | _, _, some columns, _ =>
    let rows := (itemsOf (j.member? "rows")).map
      (rowOfJson ((itemsOf (some columns)).map columnOfJson))
    .done ⟨rows.length, rows⟩
  | _, _, _, some (.int n) => .done ⟨n.toNat, []⟩
  | _, _, _, _ => .done .none

structure Playback where
  starts : List Reply
  isolations : List Reply
  commits : List Reply
  others : List Reply
  /-- The oldest first. -/
  heard : List Statement
deriving DecidableEq

namespace Playback

def silent : Playback := ⟨[], [], [], [], []⟩

def next : List Reply → Reply × List Reply
  | [] => (.done .none, [])
  | r :: rest => (r, rest)

def link : Link Playback := fun request p =>
  let p := { p with heard := p.heard ++ [request.statement] }
  match request with
  | .start => ((next p.starts).1, { p with starts := (next p.starts).2 })
  | .isolate _ => ((next p.isolations).1, { p with isolations := (next p.isolations).2 })
  | .commit => ((next p.commits).1, { p with commits := (next p.commits).2 })
  | .run _ => ((next p.others).1, { p with others := (next p.others).2 })

/-- Every run of blanks as one, none at the ends. -/
def collapse (text : String) : String :=
  " ".intercalate (((text.toList.splitBy fun a b => a.isWhitespace = b.isWhitespace).filter
    fun run => run.any fun c => !c.isWhitespace).map String.ofList)

def transcript (p : Playback) : Json :=
  .array (p.heard.map fun s => .object [
    ("params", .array (s.params.map Value.toJson)), ("sql", .string (collapse s.text))])

end Playback

end SyncCascade.Postgres
