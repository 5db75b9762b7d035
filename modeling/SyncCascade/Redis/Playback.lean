import SyncCascade.Redis.Client

/-!
# A server that plays back replies

It writes down what it is sent and takes its replies from a list; when the list runs out it answers
nothing. A script that it does not have yet it asks for, and neither that nor the handing over is
written down or takes a reply. Once it or the client has hung up it hears nothing more.
-/

namespace SyncCascade.Redis

/-- A number that is no signed 64-bit word breaks the rules. -/
def Reply.ofInt (n : Int) : Reply :=
  if -(Word.limit 63 : Int) ≤ n ∧ n < Word.limit 63 then .int (Int64.ofInt n) else .garbage

mutual

/-- An object is a hash, unless it stands for an error or for the end of the connection. -/
def Reply.ofJson : Json → Reply
  | .null => .nil
  | .bool b => .int (if b then 1 else 0)
  | .int n => .ofInt n
  | .real _ => .garbage
  | .string s => .text s
  | .array items => .list (repliesOfItems items)
  | .object members =>
    match members.lookup "drop", members.lookup "reply_error" with
    | some (.bool true), _ => .dropped
    | _, some (.string message) => .refused message
    | _, _ => .list (repliesOfMembers members)

def repliesOfItems : List Json → List Reply
  | [] => []
  | j :: rest => Reply.ofJson j :: repliesOfItems rest

def repliesOfMembers : List (String × Json) → List Reply
  | [] => []
  | (name, j) :: rest => .text name :: Reply.ofJson j :: repliesOfMembers rest

end

structure Playback where
  replies : List Reply
  /-- The scripts that it was handed. -/
  scripts : List Script
  /-- The connection is at its end. -/
  hungUp : Bool
  /-- The oldest first. -/
  heard : List Request
deriving Inhabited

namespace Playback

def silent : Playback := ⟨[], [], false, []⟩

def reply (request : Request) (p : Playback) : Reply × Playback :=
  let p := { p with heard := p.heard ++ [request] }
  match p.replies with
  | [] => (.nil, p)
  | .dropped :: rest => (.dropped, { p with replies := rest, hungUp := true })
  | r :: rest => (r, { p with replies := rest })

def answer (request : Request) (p : Playback) : Reply × Playback :=
  if p.hungUp then (.dropped, p)
  else
    match request with
    | .load script => (.nil, { p with scripts := script :: p.scripts })
    | .run script _ _ =>
      if script ∈ p.scripts then p.reply request
      else (.refused "NOSCRIPT No matching script. Please use EVAL.", p)
    | .command _ => p.reply request

def link : Link Playback where
  send := answer
  hangUp p := { p with hungUp := true }

end Playback

open Json in
def Request.toJson : Request → Json
  | run script keys args => .object [
      ("args", ofStrings args), ("keys", ofStrings keys), ("script", .string script.name)]
  | load script => .object [("cmd", ofStrings ["SCRIPT", "LOAD", script.text])]
  | command words => .object [("cmd", ofStrings words)]

end SyncCascade.Redis
