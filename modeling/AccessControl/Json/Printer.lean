import AccessControl.Double.Text
import AccessControl.Json.Basic

namespace AccessControl.Json

def hexDigit (n : Nat) : Char := (Nat.digitChar n)

def escape (c : Char) : List Char :=
  if c = '"' then ['\\', '"']
  else if c = '\\' then ['\\', '\\']
  else if c = '\n' then ['\\', 'n']
  else if c = '\r' then ['\\', 'r']
  else if c = '\t' then ['\\', 't']
  else if c = '\x08' then ['\\', 'b']
  else if c = '\x0c' then ['\\', 'f']
  else if c.toNat < 0x20 then ['\\', 'u', '0', '0', hexDigit (c.toNat / 16), hexDigit (c.toNat % 16)]
  else [c]

def quote (s : String) : String := String.ofList ('"' :: s.toList.flatMap escape ++ ['"'])

def doubleText (d : Double) : String := if d.isFinite then d.numberText else "null"

mutual

def compact : Json → String
  | null => "null"
  | bool b => if b then "true" else "false"
  | integer n => toString n
  | double d => doubleText d
  | string s => quote s
  | array items => "[" ++ compactItems items ++ "]"
  | object fields => "\x7b" ++ compactFields fields ++ "\x7d"
  | unreadable => "null"

def compactItems : List Json → String
  | [] => ""
  | [j] => j.compact
  | j :: js => j.compact ++ "," ++ compactItems js

def compactFields : List (String × Json) → String
  | [] => ""
  | [(k, j)] => quote k ++ ":" ++ j.compact
  | (k, j) :: fs => quote k ++ ":" ++ j.compact ++ "," ++ compactFields fs

end

def indent (level : Nat) : String := "\n" ++ String.ofList (List.replicate (2 * level) ' ')

mutual

def prettyAt (level : Nat) : Json → String
  | array [] => "[]"
  | array (j :: js) => "[" ++ prettyItems (level + 1) (j :: js) ++ indent level ++ "]"
  | object [] => "\x7b\x7d"
  | object (f :: fs) => "\x7b" ++ prettyFields (level + 1) (f :: fs) ++ indent level ++ "\x7d"
  | j => j.compact

def prettyItems (level : Nat) : List Json → String
  | [] => ""
  | [j] => indent level ++ j.prettyAt level
  | j :: js => indent level ++ j.prettyAt level ++ "," ++ prettyItems level js

def prettyFields (level : Nat) : List (String × Json) → String
  | [] => ""
  | [(k, j)] => indent level ++ quote k ++ ": " ++ j.prettyAt level
  | (k, j) :: fs => indent level ++ quote k ++ ": " ++ j.prettyAt level ++ "," ++ prettyFields level fs

end

def pretty (j : Json) : String := j.prettyAt 0

end AccessControl.Json
