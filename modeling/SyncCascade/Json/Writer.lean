import SyncCascade.Hex
import SyncCascade.Json
import SyncCascade.Numeral

/-!
# The text of a JSON value

Values are written without blanks, the members of an object in the order they have. In a string a
quote, a backslash and the controls are escaped; everything else stands as it is.
-/

namespace SyncCascade.Json

def escape (c : Char) : List Char :=
  if c = '"' then ['\\', '"']
  else if c = '\\' then ['\\', '\\']
  else if c = '\n' then ['\\', 'n']
  else if c = '\r' then ['\\', 'r']
  else if c = '\t' then ['\\', 't']
  else if c.toNat = 8 then ['\\', 'b']
  else if c.toNat = 12 then ['\\', 'f']
  else if c.toNat < 32 then ['\\', 'u', '0', '0', Hex.digit (c.toNat / 16), Hex.digit c.toNat]
  else [c]

def stringChars (s : List Char) : List Char := '"' :: s.flatMap escape ++ ['"']

def separated : List (List Char) → List Char
  | [] => []
  | [t] => t
  | t :: rest => t ++ ',' :: separated rest

def memberChars (name : String) (value : List Char) : List Char :=
  stringChars name.toList ++ ':' :: value

mutual

def chars : Json → List Char
  | null => "null".toList
  | bool true => "true".toList
  | bool false => "false".toList
  | int n => (Numeral.integerText n).toList
  | real t => t.toList
  | string s => stringChars s.toList
  | array items => '[' :: separated (itemsChars items) ++ [']']
  | object members => '{' :: separated (membersChars members) ++ ['}']

def itemsChars : List Json → List (List Char)
  | [] => []
  | a :: rest => chars a :: itemsChars rest

def membersChars : List (String × Json) → List (List Char)
  | [] => []
  | (name, a) :: rest => memberChars name (chars a) :: membersChars rest

end

def text (j : Json) : String := String.ofList j.chars

end SyncCascade.Json
