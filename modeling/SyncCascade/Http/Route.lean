import SyncCascade.Http.Message
import SyncCascade.Job

/-!
# Routes

The targets the service knows, each with one method. A target is a path, perhaps after a scheme and
an authority; what stands after a question mark or a number sign does not matter.
-/

namespace SyncCascade.Http

inductive Route where
  | health
  | metrics
  | closure (kind : JobKind)
  /-- The segment that names the base, as it is written. -/
  | rerun (segment : String)
deriving DecidableEq, Repr

namespace Route

def isSchemeChar (c : Char) : Bool := c.isAlphanum || c = '+' || c = '-' || c = '.'

def endsAuthority (c : Char) : Bool := c = '/' || c = '?' || c = '#'

/-- What follows the scheme and the authority, if the target names them. -/
def afterAuthority? (target : List Char) : Option (List Char) :=
  match target.dropWhile isSchemeChar with
  | ':' :: '/' :: '/' :: rest => some (rest.dropWhile (!endsAuthority ·))
  | _ => none

/-- The path of the target; an empty path is a slash. -/
def pathOf (target : String) : List Char :=
  let path := ((afterAuthority? target.toList).getD target.toList).takeWhile fun c =>
    c ≠ '?' && c ≠ '#'
  if path.isEmpty then ['/'] else path

def segments : List Char → List (List Char)
  | [] => [[]]
  | c :: rest =>
    if c = '/' then [] :: segments rest
    else
      match segments rest with
      | [] => [[c]]
      | s :: others => (c :: s) :: others

def ofTarget? (target : String) : Option Route :=
  match (segments (pathOf target)).map String.ofList with
  | ["", "health"] => some .health
  | ["", "metrics"] => some .metrics
  | ["", "changeset", "closure"] => some (.closure .changesetClosure)
  | ["", "file", "closure"] => some (.closure .fileClosure)
  | ["", "sync", "closure"] => some (.closure .syncClosure)
  | ["", "sync", segment, "rerun"] => some (.rerun segment)
  | _ => none

/-- What is read may also be asked for without its body. -/
def allows : Route → String → Bool
  | health, method | metrics, method => method == "GET" || method == "HEAD"
  | closure _, method | rerun _, method => method == "POST"

end Route

end SyncCascade.Http
