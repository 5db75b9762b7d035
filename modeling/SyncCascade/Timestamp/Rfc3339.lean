import SyncCascade.Timestamp

/-!
# The text of a moment

Moments are written in UTC with the fewest of 0, 3, 6 or 9 fraction digits that lose nothing. They
are read with a mandatory offset; blanks may stand between the components, one digit may stand where
two are usual, and a blank may stand for the `T`.
-/

namespace SyncCascade.Timestamp

/-- Years of four digits are bare; others carry their sign. -/
def yearChars (year : Int) : List Char :=
  if 0 ≤ year ∧ year ≤ 9999 then Numeral.padded 4 year.toNat
  else
    let ds := Numeral.digits year.natAbs
    (if year < 0 then '-' else '+') :: (List.replicate (4 - ds.length) '0' ++ ds)

def fractionChars (nanos : Nat) : List Char :=
  if nanos = 0 then []
  else if nanos % 1000000 = 0 then '.' :: Numeral.padded 3 (nanos / 1000000)
  else if nanos % 1000 = 0 then '.' :: Numeral.padded 6 (nanos / 1000)
  else '.' :: Numeral.padded 9 nanos

def chars (t : Timestamp) : List Char :=
  let date := Date.ofDays (t.seconds / 86400)
  let clock := (t.seconds % 86400).toNat
  let leap := 1000000000 ≤ t.nanos
  let second := clock % 60 + if leap then 1 else 0
  let nanos := if leap then t.nanos - 1000000000 else t.nanos
  yearChars date.year ++ '-' :: Numeral.padded 2 date.month ++ '-' :: Numeral.padded 2 date.day ++
    'T' :: Numeral.padded 2 (clock / 3600) ++ ':' :: Numeral.padded 2 (clock / 60 % 60) ++
    ':' :: Numeral.padded 2 second ++ fractionChars nanos ++ ['Z']

def text (t : Timestamp) : String := String.ofList t.chars

/-- The characters with the Unicode property White_Space. -/
def isBlank (c : Char) : Bool :=
  let n := c.toNat
  (9 ≤ n && n ≤ 13) || n = 0x20 || n = 0x85 || n = 0xA0 || n = 0x1680 ||
    (0x2000 ≤ n && n ≤ 0x200A) || n = 0x2028 || n = 0x2029 || n = 0x202F || n = 0x205F || n = 0x3000

def skipBlanks (cs : List Char) : List Char := cs.dropWhile isBlank

/-- From one to `most` digits after blanks. -/
def number? (most : Nat) (cs : List Char) : Option (Nat × List Char) :=
  let body := skipBlanks cs
  let ds := (body.take most).takeWhile Numeral.isDigit
  (Numeral.natural? ds).map fun n => (n, body.drop ds.length)

def field? (most low high : Nat) (cs : List Char) : Option (Nat × List Char) :=
  (number? most cs).filter fun p => low ≤ p.1 ∧ p.1 ≤ high

def literal? (c : Char) (cs : List Char) : Option (List Char) :=
  match skipBlanks cs with
  | d :: rest => if c = d then some rest else none
  | [] => none

/-- Four digits at most, or any number of them after a sign. -/
def year? (cs : List Char) : Option (Int × List Char) :=
  match skipBlanks cs with
  | '-' :: rest => (signed rest).map fun p => (-(p.1 : Int), p.2)
  | '+' :: rest => (signed rest).map fun p => ((p.1 : Int), p.2)
  | body => (number? 4 body).map fun p => ((p.1 : Int), p.2)
where
  signed (rest : List Char) : Option (Nat × List Char) :=
    let ds := rest.takeWhile Numeral.isDigit
    (Numeral.natural? ds).map fun n => (n, rest.drop ds.length)

/-- An optional fraction of the second, cut to nanoseconds. -/
def fraction? : List Char → Option (Nat × List Char)
  | '.' :: rest =>
    let ds := rest.takeWhile Numeral.isDigit
    let kept := ds.take 9
    (Numeral.natural? kept).map fun n => (n * Nat.pow 10 (9 - kept.length), rest.drop ds.length)
  | cs => some (0, cs)

/-- Minutes east of Greenwich. -/
def offset? (cs : List Char) : Option (Int × List Char) :=
  if (cs.take 3).map Char.toUpper = ['U', 'T', 'C'] then some (0, cs.drop 3)
  else
    match cs with
    | 'Z' :: rest | 'z' :: rest => some (0, rest)
    | '+' :: rest => (amount? rest).map fun p => ((p.1 : Int), p.2)
    | '-' :: rest | '−' :: rest => (amount? rest).map fun p => (-(p.1 : Int), p.2)
    | _ => none
where
  twoDigits? : List Char → Option (Nat × List Char)
    | a :: b :: rest => (Numeral.natural? [a, b]).map fun n => (n, rest)
    | _ => none
  amount? (cs : List Char) : Option (Nat × List Char) := do
    let (hours, rest) ← twoDigits? cs
    let (minutes, rest) ← twoDigits? (rest.dropWhile fun c => c = ':' || isBlank c)
    if minutes < 60 ∧ hours < 24 then some (hours * 60 + minutes, rest) else none

def ofChars? (cs : List Char) : Option Timestamp := do
  let (year, cs) ← year? cs
  let cs ← literal? '-' cs
  let (month, cs) ← field? 2 1 12 cs
  let cs ← literal? '-' cs
  let (day, cs) ← field? 2 1 31 cs
  let cs ← match cs with
    | 'T' :: rest | 't' :: rest | ' ' :: rest => some rest
    | _ => none
  let (hour, cs) ← field? 2 0 23 cs
  let cs ← literal? ':' cs
  let (minute, cs) ← field? 2 0 59 cs
  let cs ← literal? ':' cs
  let (second, cs) ← field? 2 0 60 cs
  let (nanos, cs) ← fraction? cs
  let (offset, cs) ← offset? (skipBlanks cs)
  if (skipBlanks cs).isEmpty && yearInRange year && day ≤ daysInMonth year month then
    let leap := second = 60
    let days := Date.toDays ⟨year, month, day⟩
    let clock : Nat := hour * 3600 + minute * 60 + if leap then 59 else second
    let seconds := days * 86400 + clock - offset * 60
    if yearInRange (Date.ofDays (seconds / 86400)).year then
      some ⟨seconds, if leap then nanos + 1000000000 else nanos⟩
    else none
  else none

def parse? (s : String) : Option Timestamp := ofChars? s.toList

end SyncCascade.Timestamp
