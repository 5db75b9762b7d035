import SyncCascade.Json.Magnitude

/-!
# Typed reading of JSON

A decoder walks a tree in the order of its text and stops at the first fault: a text that is no
JSON, or a value of another type than is asked for. Containers may be nested up to a limit, counted
over the whole document; what a record ignores may be nested deeper.
-/

namespace SyncCascade.Json

inductive Fault where
  /-- The text is no JSON, or is nested too deeply. -/
  | malformed
  /-- The text is JSON of another shape. -/
  | mistyped
deriving DecidableEq, Repr

/-- Reads a node inside which `depth` containers may still be opened. -/
abbrev Decoder (α : Type) := (depth : Nat) → Node → Except Fault α

/-- The containers that may be open at once. -/
def depthLimit : Nat := 127

namespace Lexeme

def isIntegral (n : Lexeme) : Bool :=
  n.fraction.isEmpty && n.exponent.isEmpty && !(n.negative && n.whole == ['0'])

def toInt? (n : Lexeme) : Option Int :=
  if n.isIntegral then
    (Numeral.natural? n.whole).bind fun m =>
      if n.negative then (if m ≤ Word.limit 63 then some (-(m : Int)) else none)
      else if m < Word.limit 64 then some (m : Int) else none
  else none

def chars (n : Lexeme) : List Char :=
  (if n.negative then ['-'] else []) ++ n.whole ++
    (if n.fraction.isEmpty then [] else '.' :: n.fraction) ++
    (if n.exponent.isEmpty then [] else 'e' :: n.exponent)

/-- A number that is no 64-bit integer keeps its text, with a fraction at least. -/
def toJson (n : Lexeme) : Json :=
  match n.toInt? with
  | some i => .int i
  | none =>
    .real (String.ofList (if n.fraction.isEmpty && n.exponent.isEmpty then n.chars ++ ['.', '0']
      else n.chars))

end Lexeme

namespace Node

mutual

/-- The text of the node is JSON as far as it matters where the node is passed over. -/
def isWhole : Node → Bool
  | cut => false
  | array items => allWhole items
  | object members => membersWhole members
  | _ => true

def allWhole : List Node → Bool
  | [] => true
  | n :: rest => isWhole n && allWhole rest

def membersWhole : List (Option String × Node) → Bool
  | [] => true
  | (_, n) :: rest => isWhole n && membersWhole rest

end

def mismatch : Node → Fault
  | cut => .malformed
  | string none => .malformed
  | number n => if n.isFinite then .mistyped else .malformed
  | _ => .mistyped

end Node

namespace Decode

variable {α : Type}

def string : Decoder String
  | _, .string (some s) => .ok s
  | _, n => .error n.mismatch

def bool : Decoder Bool
  | _, .bool b => .ok b
  | _, n => .error n.mismatch

def integer (low high : Int) : Decoder Int
  | _, .number n =>
    match n.toInt? with
    | some i => if low ≤ i ∧ i ≤ high then .ok i else .error .mistyped
    | none => .error (Node.number n).mismatch
  | _, n => .error n.mismatch

def natural (bound : Nat) : Decoder Nat := fun depth n =>
  (integer 0 ((bound : Int) - 1) depth n).map Int.toNat

def uint32 : Decoder UInt32 := fun depth n => (natural (Word.limit 32) depth n).map UInt32.ofNat

def uint64 : Decoder Nat := natural (Word.limit 64)

def int32 : Decoder Int32 := fun depth n =>
  (integer (-(Word.limit 31 : Int)) ((Word.limit 31 : Int) - 1) depth n).map Int32.ofInt

def int64 : Decoder Int64 := fun depth n =>
  (integer (-(Word.limit 63 : Int)) ((Word.limit 63 : Int) - 1) depth n).map Int64.ofInt

def text (read : String → Option α) : Decoder α := fun depth n =>
  match string depth n with
  | .ok s =>
    match read s with
    | some a => .ok a
    | none => .error .mistyped
  | .error f => .error f

def null : Decoder Unit
  | _, .null => .ok ()
  | _, n => .error n.mismatch

def option (d : Decoder α) : Decoder (Option α)
  | _, .null => .ok none
  | depth, n => (d depth n).map some

def each (d : Decoder α) (depth : Nat) : List Node → Except Fault (List α)
  | [] => .ok []
  | n :: rest =>
    match d depth n with
    | .error f => .error f
    | .ok a =>
      match each d depth rest with
      | .error f => .error f
      | .ok as => .ok (a :: as)

def list (d : Decoder α) : Decoder (List α)
  | 0, .array _ => .error .malformed
  | depth + 1, .array items => each d depth items
  | _, n => .error n.mismatch

/-- A name, alone or as the only member of an object with the value `null`. -/
def variant (read : String → Option α) : Decoder α
  | 0, .object _ => .error .malformed
  | depth + 1, .object ((name, n) :: rest) =>
    match name with
    | none => .error .malformed
    | some s =>
      match read s with
      | none => .error .mistyped
      | some a =>
        match null depth n with
        | .error f => .error f
        | .ok _ => if rest.isEmpty then .ok a else .error .malformed
  | depth, n => text read depth n

mutual

def json : Decoder Json
  | _, .null => .ok .null
  | _, .bool b => .ok (.bool b)
  | _, .number n => if n.isFinite then .ok n.toJson else .error .malformed
  | _, .string (some s) => .ok (.string s)
  | _, .string none => .error .malformed
  | depth, .array items =>
    match depth with
    | 0 => .error .malformed
    | depth + 1 =>
      match jsonItems depth items with
      | .ok js => .ok (.array js)
      | .error f => .error f
  | depth, .object members =>
    match depth with
    | 0 => .error .malformed
    | depth + 1 =>
      match jsonMembers depth members with
      | .ok ms => .ok (Json.ofMembers ms)
      | .error f => .error f
  | _, .cut => .error .malformed

def jsonItems : (depth : Nat) → List Node → Except Fault (List Json)
  | _, [] => .ok []
  | depth, n :: rest =>
    match json depth n with
    | .error f => .error f
    | .ok j =>
      match jsonItems depth rest with
      | .error f => .error f
      | .ok js => .ok (j :: js)

def jsonMembers : (depth : Nat) → List (Option String × Node) → Except Fault (List (String × Json))
  | _, [] => .ok []
  | _, (none, _) :: _ => .error .malformed
  | depth, (some name, n) :: rest =>
    match json depth n with
    | .error f => .error f
    | .ok j =>
      match jsonMembers depth rest with
      | .error f => .error f
      | .ok js => .ok ((name, j) :: js)

end

end Decode

/-- The fields found in an object, or in an array that lists them by position. -/
structure Fields where
  depth : Nat
  found : List (String × Node)
  positional : Bool
  /-- What stopped the reading of the object, if anything did. -/
  fault : Option Fault

namespace Fields

/-- Takes the members with one of the `names`, each at most once, and passes over the others,
which `strict` forbids. -/
def collect (names : List String) (strict : Bool) (found : List (String × Node)) :
    List (Option String × Node) → List (String × Node) × Option Fault
  | [] => (found, none)
  | (none, _) :: _ => (found, some .malformed)
  | (some name, n) :: rest =>
    if name ∈ names then
      if (found.lookup name).isSome then (found, some .mistyped)
      else collect names strict (found ++ [(name, n)]) rest
    else if strict then (found, some .mistyped)
    else if n.isWhole then collect names strict found rest
    else (found, some .malformed)

def openRecord (names : List String) (strict : Bool) : Decoder Fields
  | 0, .object _ => .error .malformed
  | depth + 1, .object members =>
    let (found, fault) := collect names strict [] members
    .ok ⟨depth, found, false, fault⟩
  | 0, .array _ => .error .malformed
  | depth + 1, .array items =>
    .ok ⟨depth, names.zip items, true, if names.length < items.length then some .malformed else none⟩
  | _, n => .error n.mismatch

variable {α : Type}

def missing (f : Fields) : Fault := f.fault.getD .mistyped

def required (f : Fields) (name : String) (d : Decoder α) : Except Fault α :=
  match f.found.lookup name with
  | some n => d f.depth n
  | none => .error f.missing

/-- A field that may be `null` or, in an object, absent. -/
def optional (f : Fields) (name : String) (d : Decoder α) : Except Fault (Option α) :=
  match f.found.lookup name with
  | some n => Decode.option d f.depth n
  | none => if f.positional then .error f.missing else .ok none

def defaulted (f : Fields) (name : String) (d : Decoder α) (default : α) : Except Fault α :=
  match f.found.lookup name with
  | some n => d f.depth n
  | none => .ok default

def close (f : Fields) (a : α) : Except Fault α :=
  match f.fault with
  | some fault => .error fault
  | none => .ok a

end Fields

variable {α : Type}

/-- A text that holds one value and nothing else. -/
def decode (d : Decoder α) (cs : List Char) : Except Fault α :=
  match readFirst cs with
  | (node, rest) =>
    match d depthLimit node with
    | .error f => .error f
    | .ok a => if (skipBlanks rest).isEmpty then .ok a else .error .malformed

def decodeFirst (d : Decoder α) (cs : List Char) : Except Fault α :=
  d depthLimit (readFirst cs).1

end SyncCascade.Json
