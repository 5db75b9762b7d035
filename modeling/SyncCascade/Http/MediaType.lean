/-!
# Media types

A media type is a type, a subtype and perhaps a suffix after a plus sign, followed by parameters.
Letters count in either case. Only visible ASCII and blanks occur in it.
-/

namespace SyncCascade.Http

structure MediaType where
  type : String
  subtype : String
  suffix : Option String
deriving DecidableEq, Repr

namespace MediaType

def isTokenChar (c : Char) : Bool :=
  c.isAlphanum || "!#$%&'*+-.^_|~".toList.contains c || c.toNat = 0x60

def isQuotedChar (c : Char) : Bool := 31 < c.toNat && c.toNat < 127

/-- What stands after the value of a parameter: nothing, or another parameter after a semicolon. -/
inductive Tail where
  | nothing
  | more (cs : List Char)

/-- After the quotes of a value, where blanks may follow. -/
def afterQuotes? : List Char → Option Tail
  | [] => some .nothing
  | ' ' :: rest => afterQuotes? rest
  | ';' :: rest => some (.more rest)
  | _ => none

/-- The tail after a value. A value in quotes is not empty: its first character may be a quote. -/
def value? (cs : List Char) : Option Tail :=
  match cs with
  | '"' :: first :: rest =>
    match rest.dropWhile fun c => c ≠ '"' && isQuotedChar c with
    | '"' :: after => if isQuotedChar first then afterQuotes? after else none
    | _ => none
  | _ =>
    match cs.span isTokenChar with
    | (_, []) => some .nothing
    | ([], _) => none
    | (_, ';' :: rest) => some (.more rest)
    | _ => none

def areParameters : (fuel : Nat) → List Char → Bool
  | 0, _ => false
  | fuel + 1, cs =>
    match cs.dropWhile (· = ' ') with
    | [] => true
    | name =>
      match name.span isTokenChar with
      | (_ :: _, '=' :: rest) =>
        match value? rest with
        | some .nothing => true
        | some (.more rest) => areParameters fuel rest
        | none => false
      | _ => false

/-- The part before the last plus sign that is not the first character, and the part after it. -/
def splitSuffix (name : List Char) : List Char × Option (List Char) :=
  let reversed := name.reverse
  let last := reversed.takeWhile (· ≠ '+')
  match (reversed.drop last.length).drop 1 with
  | [] => (name, none)
  | before => (before.reverse, some last.reverse)

def lower (cs : List Char) : String := String.ofList (cs.map Char.toLower)

def parse? (s : String) : Option MediaType :=
  match s.toList.span isTokenChar with
  | (type@(_ :: _), '/' :: rest) =>
    match rest.span isTokenChar with
    | (name, after) =>
      let parametersOk :=
        match after with
        | [] => true
        | ';' :: parameters => !name.isEmpty && areParameters (parameters.length + 1) parameters
        | _ => false
      if parametersOk then
        let (subtype, suffix) := splitSuffix name
        some ⟨lower type, lower subtype, suffix.map lower⟩
      else none
  | _ => none

def isJson (m : MediaType) : Bool :=
  m.type == "application" && (m.subtype == "json" || m.suffix == some "json")

end MediaType

end SyncCascade.Http
