import SyncCascade.Numeral
import SyncCascade.Word

/-!
# Replies of Redis

What a server answers, and how an answer is read: as a number, as a list of texts, or as a hash, whose
fields and values follow each other in a list. Numbers may come as texts. An error or a breach of the
rules spoils the list in which it stands; lists that are nested too deeply are such a breach.
-/

namespace SyncCascade.Redis

inductive Reply where
  | nil
  | int (n : Int64)
  | text (s : String)
  | list (items : List Reply)
  /-- The server reports an error. -/
  | refused (message : String)
  /-- The server hangs up. -/
  | dropped
  /-- The answer breaks the rules. -/
  | garbage
deriving Repr, Inhabited

namespace Reply

mutual

def refusal? : Reply → Option String
  | refused message => some message
  | list items => firstRefusal? items
  | _ => none

def firstRefusal? : List Reply → Option String
  | [] => none
  | r :: rest =>
    match refusal? r with
    | some message => some message
    | none => firstRefusal? rest

end

/-- The lists that may be open at once. -/
def nestingLimit : Nat := 100

mutual

/-- Breaks the rules where `room` lists may still be opened. -/
def breaksWithin : (room : Nat) → Reply → Bool
  | _, garbage => true
  | 0, list _ => true
  | room + 1, list items => anyBreaksWithin room items
  | _, _ => false

def anyBreaksWithin : (room : Nat) → List Reply → Bool
  | _, [] => false
  | room, r :: rest => breaksWithin room r || anyBreaksWithin room rest

end

def breaksRules (r : Reply) : Bool := breaksWithin nestingLimit r

/-- The server does not have the script that was called. -/
def asksForScript (r : Reply) : Bool :=
  match r.refusal? with
  | some message => message.toList.takeWhile (· ≠ ' ') == "NOSCRIPT".toList
  | none => false

def int? : Reply → Option Int
  | int n => some n.toInt
  | text s => Numeral.signed? (Word.limit 63) s.toList
  | _ => none

/-- An unsigned 64-bit word; a negative number stands for the word of its bits. -/
def count? : Reply → Option Nat
  | int n => some n.toUInt64.toNat
  | text s => Numeral.unsigned? (Word.limit 64) s.toList
  | _ => none

def text? : Reply → Option String
  | text s => some s
  | _ => none

/-- A missing list is empty, and a text is a list of itself. -/
def texts? : Reply → Option (List String)
  | nil => some []
  | text s => some [s]
  | list items => items.mapM text?
  | _ => none

end Reply

abbrev Fields := List (String × String)

namespace Fields

/-- The value of a field; of two with one name the later counts. -/
def value? (fields : Fields) (name : String) : Option String := fields.reverse.lookup name

def ofTexts? : List String → Option Fields
  | [] => some []
  | name :: value :: rest => (ofTexts? rest).map ((name, value) :: ·)
  | [_] => none

end Fields

/-- A missing hash is empty. -/
def Reply.fields? : Reply → Option Fields
  | nil => some []
  | list items => (items.mapM text?).bind Fields.ofTexts?
  | _ => none

end SyncCascade.Redis
