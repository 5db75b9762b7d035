import SyncCascade.Hex
import SyncCascade.Json
import SyncCascade.Numeral

/-!
# JSON text as a tree

A text is read into a tree that keeps what a typed reader may still ask for: numbers as they are
written, repeated members, and strings whose escapes name a lone surrogate. Where the text stops
being JSON the tree ends in `cut`, so a reader that walks the tree in order meets a wrong type and
a broken text in the order in which they stand.
-/

namespace SyncCascade.Json

/-- A number as it is written. -/
structure Lexeme where
  negative : Bool
  whole : List Char
  fraction : List Char
  /-- With its sign, if there is one. -/
  exponent : List Char
deriving DecidableEq, Repr

inductive Node where
  | null
  | bool (b : Bool)
  | number (n : Lexeme)
  /-- The text, unless an escape in it names a lone surrogate. -/
  | string (s : Option String)
  | array (items : List Node)
  | object (members : List (Option String × Node))
  /-- The text stops being JSON here. -/
  | cut
deriving Repr, Inhabited

def isBlank (c : Char) : Bool := c = ' ' || c = '\n' || c = '\t' || c = '\r'

def skipBlanks : List Char → List Char
  | c :: rest => if isBlank c then skipBlanks rest else c :: rest
  | [] => []

inductive Piece where
  | char (c : Char)
  | surrogate (n : Nat)
deriving DecidableEq, Repr

def Piece.ofUnit (n : Nat) : Piece :=
  if 0xD800 ≤ n ∧ n < 0xE000 then .surrogate n else .char (Char.ofNat n)

def simpleEscape? (c : Char) : Option Char :=
  if c = '"' then some '"'
  else if c = '\\' then some '\\'
  else if c = '/' then some '/'
  else if c = 'b' then some (Char.ofNat 8)
  else if c = 'f' then some (Char.ofNat 12)
  else if c = 'n' then some '\n'
  else if c = 'r' then some '\r'
  else if c = 't' then some '\t'
  else none

/-- The pieces up to the closing quote and the text after it. -/
def pieces? : List Char → Option (List Piece × List Char)
  | [] => none
  | '"' :: rest => some ([], rest)
  | '\\' :: 'u' :: a :: b :: c :: d :: rest =>
    match Hex.valueFrom? 0 [a, b, c, d] with
    | some n => (pieces? rest).map fun p => (.ofUnit n :: p.1, p.2)
    | none => none
  | '\\' :: c :: rest =>
    match simpleEscape? c with
    | some e => (pieces? rest).map fun p => (.char e :: p.1, p.2)
    | none => none
  | c :: rest =>
    if c = '\\' ∨ c.toNat < 32 then none
    else (pieces? rest).map fun p => (.char c :: p.1, p.2)

/-- A high surrogate and the low one after it make a character. -/
def assemble? : List Piece → Option (List Char)
  | [] => some []
  | .char c :: rest => (assemble? rest).map (c :: ·)
  | .surrogate high :: .surrogate low :: rest =>
    if high < 0xDC00 ∧ 0xDC00 ≤ low then
      (assemble? rest).map (Char.ofNat (0x10000 + (high - 0xD800) * 0x400 + (low - 0xDC00)) :: ·)
    else none
  | .surrogate _ :: _ => none

def string? (cs : List Char) : Option (Option String × List Char) :=
  (pieces? cs).map fun p => ((assemble? p.1).map String.ofList, p.2)

def takeDigits (cs : List Char) : List Char × List Char := cs.span Numeral.isDigit

/-- Zero alone or digits that do not begin with zero. -/
def whole? (cs : List Char) : Option (List Char × List Char) :=
  let (ds, rest) := takeDigits cs
  match ds with
  | [] => none
  | ['0'] => some (ds, rest)
  | '0' :: _ => none
  | _ => some (ds, rest)

def fraction? : List Char → Option (List Char × List Char)
  | '.' :: rest =>
    let (ds, after) := takeDigits rest
    if ds.isEmpty then none else some (ds, after)
  | cs => some ([], cs)

def exponentDigits? (sign : List Char) (cs : List Char) : Option (List Char × List Char) :=
  let (ds, after) := takeDigits cs
  if ds.isEmpty then none else some (sign ++ ds, after)

def exponent? : List Char → Option (List Char × List Char)
  | c :: rest =>
    if c = 'e' ∨ c = 'E' then
      match rest with
      | '+' :: after => exponentDigits? [] after
      | '-' :: after => exponentDigits? ['-'] after
      | _ => exponentDigits? [] rest
    else some ([], c :: rest)
  | [] => some ([], [])

def lexeme? (cs : List Char) : Option (Lexeme × List Char) := do
  let (negative, body) := match cs with
    | '-' :: rest => (true, rest)
    | _ => (false, cs)
  let (whole, rest) ← whole? body
  let (fraction, rest) ← fraction? rest
  let (exponent, rest) ← exponent? rest
  some (⟨negative, whole, fraction, exponent⟩, rest)

def keyword (word : List Char) (node : Node) (cs : List Char) : Node × List Char :=
  if cs.take word.length = word then (node, cs.drop word.length) else (.cut, [])

mutual

def value : (fuel : Nat) → List Char → Node × List Char
  | 0, _ => (.cut, [])
  | fuel + 1, cs =>
    match skipBlanks cs with
    | [] => (.cut, [])
    | '"' :: rest =>
      match string? rest with
      | some (s, after) => (.string s, after)
      | none => (.cut, [])
    | '[' :: rest =>
      match skipBlanks rest with
      | ']' :: after => (.array [], after)
      | _ => let (nodes, after) := items fuel rest
        (.array nodes, after)
    | '{' :: rest =>
      match skipBlanks rest with
      | '}' :: after => (.object [], after)
      | _ => let (nodes, after) := members fuel rest
        (.object nodes, after)
    | 'n' :: rest => keyword ['u', 'l', 'l'] .null rest
    | 't' :: rest => keyword ['r', 'u', 'e'] (.bool true) rest
    | 'f' :: rest => keyword ['a', 'l', 's', 'e'] (.bool false) rest
    | c :: rest =>
      match lexeme? (c :: rest) with
      | some (n, after) => (.number n, after)
      | none => (.cut, [])

def items : (fuel : Nat) → List Char → List Node × List Char
  | 0, _ => ([.cut], [])
  | fuel + 1, cs =>
    let (node, rest) := value fuel cs
    match skipBlanks rest with
    | ',' :: after =>
      let (nodes, last) := items fuel after
      (node :: nodes, last)
    | ']' :: after => ([node], after)
    | _ => ([node, .cut], [])

def members : (fuel : Nat) → List Char → List (Option String × Node) × List Char
  | 0, _ => ([(none, .cut)], [])
  | fuel + 1, cs =>
    match skipBlanks cs with
    | '"' :: rest =>
      match string? rest with
      | none => ([(none, .cut)], [])
      | some (name, rest) =>
        match skipBlanks rest with
        | ':' :: rest =>
          let (node, rest) := value fuel rest
          match skipBlanks rest with
          | ',' :: after =>
            let (others, last) := members fuel after
            ((name, node) :: others, last)
          | '}' :: after => ([(name, node)], after)
          | _ => ([(name, node), (none, .cut)], [])
        | _ => ([(name, .cut)], [])
    | _ => ([(none, .cut)], [])

end

/-- The first value of a text and what stands after it. -/
def readFirst (cs : List Char) : Node × List Char := value (2 * cs.length + 2) cs

end SyncCascade.Json
