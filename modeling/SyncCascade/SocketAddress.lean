import SyncCascade.Hex
import SyncCascade.Numeral
import SyncCascade.Word

/-!
# Addresses to listen on

An address is four octets or eight groups of sixteen bits, and a port. The groups are written with
the longest run of zeros left out.
-/

namespace SyncCascade

inductive Host where
  | octets (a b c d : Nat)
  /-- Eight groups; the scope is zero where none is named. -/
  | groups (gs : List Nat) (scope : Nat)
deriving DecidableEq, Repr

structure SocketAddress where
  host : Host
  port : Nat
deriving DecidableEq, Repr

namespace SocketAddress

def octetsChars (a b c d : Nat) : List Char :=
  Numeral.digits a ++ '.' :: Numeral.digits b ++ '.' :: Numeral.digits c ++ '.' :: Numeral.digits d

def groupsChars (gs : List Nat) : List Char :=
  [':'].intercalate (gs.map (Nat.toDigits 16))

def zeros (gs : List Nat) : Nat := (gs.takeWhile (· = 0)).length

/-- Where the longest run of zeros begins, and its length; of two the first. -/
def longestZeros : (start : Nat) → List Nat → Nat × Nat
  | start, [] => (start, 0)
  | start, g :: rest =>
    let later := longestZeros (start + 1) rest
    if later.2 ≤ zeros (g :: rest) then (start, zeros (g :: rest)) else later

/-- A run of at least two zeros is left out; an address of the older kind ends in octets. -/
def compressedChars (gs : List Nat) : List Char :=
  match gs with
  | [0, 0, 0, 0, 0, 0xFFFF, high, low] =>
    ':' :: ':' :: groupsChars [0xFFFF] ++
      ':' :: octetsChars (high / 256) (high % 256) (low / 256) (low % 256)
  | _ =>
    let (start, length) := longestZeros 0 gs
    if length < 2 then groupsChars gs
    else groupsChars (gs.take start) ++ ':' :: ':' :: groupsChars (gs.drop (start + length))

def hostChars : Host → List Char
  | .octets a b c d => octetsChars a b c d
  | .groups gs scope =>
    '[' :: compressedChars gs ++ (if scope = 0 then [] else '%' :: Numeral.digits scope) ++ [']']

def text (a : SocketAddress) : String :=
  String.ofList (hostChars a.host ++ ':' :: Numeral.digits a.port)

def number? (bound : Nat) (cs : List Char) : Option (Nat × List Char) :=
  let ds := cs.takeWhile Numeral.isDigit
  ((Numeral.natural? ds).filter (· < bound)).map fun n => (n, cs.drop ds.length)

/-- A number below 256 without leading zeros. -/
def octet? (cs : List Char) : Option (Nat × List Char) :=
  match cs with
  | '0' :: c :: rest => if Numeral.isDigit c then none else some (0, c :: rest)
  | _ => number? 256 cs

def literal? (c : Char) : List Char → Option (List Char)
  | d :: rest => if c = d then some rest else none
  | [] => none

def octets? (cs : List Char) : Option ((Nat × Nat × Nat × Nat) × List Char) := do
  let (a, cs) ← octet? cs
  let (b, cs) ← (literal? '.' cs).bind octet?
  let (c, cs) ← (literal? '.' cs).bind octet?
  let (d, cs) ← (literal? '.' cs).bind octet?
  some ((a, b, c, d), cs)

/-- One to four hexadecimal digits. -/
def group? (cs : List Char) : Option (Nat × List Char) :=
  let ds := cs.takeWhile fun c => (Hex.value? c).isSome
  if ds.isEmpty || 4 < ds.length then none
  else (Hex.valueFrom? 0 ds).map fun n => (n, cs.drop ds.length)

/-- At most `limit` groups with colons between them, the last two of which may be written as octets;
tells whether they are. -/
def groups? : (limit : Nat) → (first : Bool) → List Char → List Nat × Bool × List Char
  | 0, _, cs => ([], false, cs)
  | limit + 1, first, cs =>
    match if first then some cs else literal? ':' cs with
    | none => ([], false, cs)
    | some body =>
      match if limit = 0 then none else octets? body with
      | some ((a, b, c, d), rest) => ([a * 256 + b, c * 256 + d], true, rest)
      | none =>
        match group? body with
        | none => ([], false, cs)
        | some (g, rest) =>
          let (gs, ended, last) := groups? limit false rest
          (g :: gs, ended, last)

/-- Eight groups; two colons stand for at least one group of zeros. -/
def allGroups? (cs : List Char) : Option (List Nat × List Char) :=
  let (head, ended, rest) := groups? 8 true cs
  if head.length = 8 then some (head, rest)
  else if ended then none
  else do
    let rest ← (literal? ':' rest).bind (literal? ':')
    let (tail, _, rest) := groups? (7 - head.length) true rest
    some (head ++ List.replicate (8 - head.length - tail.length) 0 ++ tail, rest)

def scope (cs : List Char) : Nat × List Char :=
  ((literal? '%' cs).bind (number? (Word.limit 32))).getD (0, cs)

def host? (cs : List Char) : Option (Host × List Char) :=
  match cs with
  | '[' :: rest => do
    let (gs, rest) ← allGroups? rest
    let (id, rest) := scope rest
    let rest ← literal? ']' rest
    some (.groups gs id, rest)
  | _ => (octets? cs).map fun p => (.octets p.1.1 p.1.2.1 p.1.2.2.1 p.1.2.2.2, p.2)

def parse? (s : String) : Option SocketAddress := do
  let (host, rest) ← host? s.toList
  let (port, rest) ← (literal? ':' rest).bind (number? (Word.limit 16))
  if rest.isEmpty then some ⟨host, port⟩ else none

end SocketAddress

end SyncCascade
